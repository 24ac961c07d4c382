import ManifestSecrets.Json.Reader
import ManifestSecrets.Proofs.Json.Order

set_option autoImplicit false

namespace ManifestSecrets

def Tree.Finite : Tree → Prop
  | .number n => n.isFinite = true
  | _ => True

namespace Json

structure Proper (value : Json) : Prop where
  ordered : value.Ordered
  finite : value.EachLeaf Tree.Finite

theorem proper_array_iff (items : List Json) : Proper (.array items) ↔ ∀ item ∈ items, item.Proper := by
  have ordered : (Json.array items).Ordered ↔ _ := items_ordered_iff items
  have finite := each_leaf_array Tree.Finite items
  exact ⟨fun proper item member => ⟨ordered.mp proper.ordered item member, finite.mp proper.finite item member⟩,
    fun each => ⟨ordered.mpr fun item member => (each item member).ordered,
      finite.mpr fun item member => (each item member).finite⟩⟩

theorem proper_object_iff (fields : List (String × Json)) :
    Proper (.object fields) ↔ KeyMap.Ordered fields ∧ ∀ field ∈ fields, field.2.Proper := by
  have inside := fields_ordered_iff fields
  have finite := each_leaf_object Tree.Finite fields
  exact ⟨fun proper => ⟨proper.ordered.1, fun field member =>
      ⟨inside.mp proper.ordered.2 field member, finite.mp proper.finite field member⟩⟩,
    fun ⟨rises, each⟩ => ⟨⟨rises, inside.mpr fun field member => (each field member).ordered⟩,
      finite.mpr fun field member => (each field member).finite⟩⟩

theorem proper_number_iff (n : Number) : Proper (.number n) ↔ n.isFinite = true :=
  ⟨fun proper => (Tree.each_leaf_single Tree.Finite (.number n) rfl).mp proper.finite,
    fun finite => ⟨trivial, (Tree.each_leaf_single Tree.Finite (.number n) rfl).mpr finite⟩⟩

theorem proper_scalar (value : Json) (scalar : value = .null ∨ (∃ b, value = .bool b) ∨ ∃ s, value = .text s) :
    value.Proper := by
  obtain rfl | ⟨b, rfl⟩ | ⟨s, rfl⟩ := scalar <;>
    exact ⟨trivial, (Tree.each_leaf_single Tree.Finite _ rfl).mpr trivial⟩

theorem numeral_finite (numeral : Numeral) (n : Number) (read : numeral.number? = some n) : n.isFinite = true := by
  unfold Numeral.number? at read
  split at read
  · obtain rfl := Option.some.inj read
    rfl
  · obtain ⟨x, float, rfl⟩ := Option.map_eq_some_iff.mp read
    obtain ⟨m, -, finite⟩ := Option.bind_eq_some_iff.mp float
    obtain rfl := Option.some.inj finite
    rfl

namespace Reader

theorem number_finite (cs rest : List Char) (n : Number) (read : number? cs = some (n, rest)) : n.isFinite = true := by
  simp only [number?, Option.bind_eq_bind, Option.bind_eq_some_iff] at read
  obtain ⟨whole, -, fraction, -, exponent, -, value, numeral, last⟩ := read
  obtain ⟨rfl, -⟩ := Prod.mk.inj (Option.some.inj last)
  exact numeral_finite _ _ numeral

section Step

variable {fuel depth : Nat} {cs rest : List Char}

structure Sound (fuel : Nat) : Prop where
  values : ∀ depth cs value rest, value? fuel depth cs = some (value, rest) → value.Proper
  items : ∀ depth cs items rest, items? fuel depth cs = some (items, rest) → ∀ item ∈ items, item.Proper
  fields : ∀ depth cs fields rest, fields? fuel depth cs = some (fields, rest) → ∀ field ∈ fields, field.2.Proper

theorem value_proper (sound : Sound fuel) (value : Json) (read : value? (fuel + 1) depth cs = some (value, rest)) :
    value.Proper := by
  rw [value?] at read
  split at read
  case h_5 =>
    split at read
    case h_1 => simp at read
    case h_2 =>
      obtain ⟨rfl, -⟩ := Prod.mk.inj (Option.some.inj read)
      exact (proper_array_iff []).mpr (by simp)
    case h_3 =>
      obtain ⟨⟨items, behind⟩, inside, last⟩ := Option.bind_eq_some_iff.mp read
      obtain ⟨rfl, -⟩ := Prod.mk.inj (Option.some.inj last)
      exact (proper_array_iff items).mpr (sound.items _ _ _ _ inside)
  case h_6 =>
    split at read
    case h_1 => simp at read
    case h_2 =>
      obtain ⟨rfl, -⟩ := Prod.mk.inj (Option.some.inj read)
      exact (proper_object_iff []).mpr ⟨trivial, by simp⟩
    case h_3 =>
      obtain ⟨⟨fields, behind⟩, inside, last⟩ := Option.bind_eq_some_iff.mp read
      obtain ⟨rfl, -⟩ := Prod.mk.inj (Option.some.inj last)
      exact (proper_object_iff _).mpr ⟨KeyMap.of_list_ordered fields,
        fun field member => sound.fields _ _ _ _ inside field (KeyMap.mem_of_list member)⟩
  case h_7 =>
    obtain ⟨⟨n, behind⟩, numeral, last⟩ := Option.bind_eq_some_iff.mp read
    obtain ⟨rfl, -⟩ := Prod.mk.inj (Option.some.inj last)
    exact (proper_number_iff n).mpr (number_finite _ _ n numeral)
  all_goals
    obtain ⟨taken, -, last⟩ := Option.bind_eq_some_iff.mp read
    obtain ⟨rfl, -⟩ := Prod.mk.inj (Option.some.inj last)
    exact proper_scalar _ (by simp)

theorem items_proper (sound : Sound fuel) (items : List Json)
    (read : items? (fuel + 1) depth cs = some (items, rest)) : ∀ item ∈ items, item.Proper := by
  rw [items?] at read
  obtain ⟨⟨item, behind⟩, first, read⟩ := Option.bind_eq_some_iff.mp read
  dsimp only at read
  have proper := sound.values _ _ _ _ first
  split at read
  case h_1 =>
    obtain ⟨⟨others, behind⟩, later, last⟩ := Option.bind_eq_some_iff.mp read
    obtain ⟨rfl, -⟩ := Prod.mk.inj (Option.some.inj last)
    exact List.forall_mem_cons.mpr ⟨proper, sound.items _ _ _ _ later⟩
  case h_2 =>
    obtain ⟨rfl, -⟩ := Prod.mk.inj (Option.some.inj read)
    exact List.forall_mem_singleton.mpr proper
  case h_3 => simp at read

theorem fields_proper (sound : Sound fuel) (fields : List (String × Json))
    (read : fields? (fuel + 1) depth cs = some (fields, rest)) : ∀ field ∈ fields, field.2.Proper := by
  rw [fields?] at read
  split at read
  case h_2 => simp at read
  obtain ⟨⟨key, behind⟩, -, read⟩ := Option.bind_eq_some_iff.mp read
  dsimp only at read
  split at read
  case h_2 => simp at read
  obtain ⟨⟨value, behind⟩, first, read⟩ := Option.bind_eq_some_iff.mp read
  dsimp only at read
  have proper := sound.values _ _ _ _ first
  split at read
  case h_1 =>
    obtain ⟨⟨others, behind⟩, later, last⟩ := Option.bind_eq_some_iff.mp read
    obtain ⟨rfl, -⟩ := Prod.mk.inj (Option.some.inj last)
    exact List.forall_mem_cons.mpr ⟨proper, sound.fields _ _ _ _ later⟩
  case h_2 =>
    obtain ⟨rfl, -⟩ := Prod.mk.inj (Option.some.inj read)
    exact List.forall_mem_singleton.mpr proper
  case h_3 => simp at read

end Step

theorem sound (fuel : Nat) : Sound fuel := by
  induction fuel with
  | zero => exact ⟨by simp [value?], by simp [items?], by simp [fields?]⟩
  | succ fuel ih =>
    exact ⟨fun _ _ value _ => value_proper ih value, fun _ _ items _ => items_proper ih items,
      fun _ _ fields _ => fields_proper ih fields⟩

end Reader

theorem read_proper (s : String) (value : Json) (read : read? s = some value) : value.Proper := by
  rw [read?] at read
  split at read
  case h_2 => simp at read
  case h_1 found rest first =>
    split at read
    · obtain rfl := Option.some.inj read
      exact (Reader.sound _).values _ _ _ _ first
    · simp at read

end Json

end ManifestSecrets
