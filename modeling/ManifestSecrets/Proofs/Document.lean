import ManifestSecrets.Document
import ManifestSecrets.Proofs.Decimal.Number
import ManifestSecrets.Proofs.Tree.Leaves

set_option autoImplicit false

namespace ManifestSecrets

theorem ok_of_to_option {ε α : Type} {x : Except ε α} {result : α} (found : x.toOption = some result) :
    x = .ok result := by
  cases x with
  | error e => cases found
  | ok a => exact congrArg _ (Option.some.inj found)

theorem bind_ok {ε α β : Type} {x : Except ε α} {f : α → Except ε β} {result : β} (ok : x >>= f = .ok result) :
    ∃ a, x = .ok a ∧ f a = .ok result := by
  cases x with
  | error e => simp [bind, Except.bind] at ok
  | ok a => exact ⟨a, rfl, ok⟩

theorem bind_ok_iff {ε α β : Type} {x : Except ε α} {f : α → Except ε β} {result : β} :
    x >>= f = .ok result ↔ ∃ a, x = .ok a ∧ f a = .ok result := by
  constructor
  · exact bind_ok
  · rintro ⟨a, ran, ok⟩
    rw [ran]
    exact ok

theorem bind_error_iff {ε α β : Type} {x : Except ε α} {f : α → Except ε β} {e : ε} :
    x >>= f = .error e ↔ x = .error e ∨ ∃ a, x = .ok a ∧ f a = .error e := by
  cases x with
  | error e' => simp [bind, Except.bind]
  | ok a => simp [bind, Except.bind]

theorem map_ok {ε α β : Type} {x : Except ε α} {f : α → β} {result : β} (ok : x.map f = .ok result) :
    ∃ a, x = .ok a ∧ f a = result := by
  cases x with
  | error e => simp [Except.map] at ok
  | ok a => exact ⟨a, rfl, Except.ok.inj ok⟩

namespace Json

mutual
def Ordered : Json → Prop
  | .object fields => KeyMap.Ordered fields ∧ FieldsOrdered fields
  | .array items => ItemsOrdered items
  | .text _ => True
  | .number _ => True
  | .bool _ => True
  | .null => True

def ItemsOrdered : List Json → Prop
  | [] => True
  | item :: rest => Ordered item ∧ ItemsOrdered rest

def FieldsOrdered : List (String × Json) → Prop
  | [] => True
  | (_, value) :: rest => Ordered value ∧ FieldsOrdered rest
end

end Json

namespace Tree

def NoBytes : Tree → Prop
  | .bytes _ => False
  | _ => True

structure Decoded (t : Tree) : Prop where
  ordered : t.Ordered
  bytesless : t.EachLeaf NoBytes

theorem decoded_mapping (entries : KeyMap Tree) (ordered : KeyMap.Ordered entries)
    (decoded : ∀ entry ∈ entries, Decoded entry.2) : Decoded (.mapping entries) where
  ordered := ⟨ordered, (entries_ordered_iff entries).mpr fun entry member => (decoded entry member).ordered⟩
  bytesless := (each_leaf_mapping _ _).mpr fun entry member => (decoded entry member).bytesless

theorem decoded_sequence (items : List Tree) (decoded : ∀ item ∈ items, Decoded item) :
    Decoded (.sequence items) where
  ordered := (items_ordered_iff items).mpr fun item member => (decoded item member).ordered
  bytesless := (each_leaf_sequence _ _).mpr fun item member => (decoded item member).bytesless

theorem decoded_leaf (leaf : Tree) (ends : leaf.isLeaf = true) (noBytes : leaf.NoBytes) : Decoded leaf := by
  refine ⟨?_, (each_leaf_single _ _ ends).mpr noBytes⟩
  cases leaf with
  | mapping entries => simp [isLeaf] at ends
  | sequence items => simp [isLeaf] at ends
  | _ => trivial

theorem of_yaml_number (path : String) (n : Number) :
    ofYaml path (.number n) = if n.isFinite then .ok (.number n) else .error (.invalidNumber path (n.write .yaml)) := by
  rw [ofYaml, n.carried_same]
  cases n.isFinite <;> rfl

theorem of_yaml_number_ok (path : String) (n : Number) (t : Tree) (ok : ofYaml path (.number n) = .ok t) :
    n.isFinite = true ∧ t = .number n := by
  rw [of_yaml_number] at ok
  split at ok
  next finite => exact ⟨finite, (Except.ok.inj ok).symm⟩
  next => cases ok

mutual
theorem of_yaml_decoded (path : String) (value : Yaml) (t : Tree) (ok : ofYaml path value = .ok t) : Decoded t := by
  cases value with
  | mapping entries =>
    rw [ofYaml] at ok
    obtain ⟨found, inside, same⟩ := bind_ok ok
    obtain rfl := Except.ok.inj same
    obtain ⟨ordered, decoded⟩ := entries_of_yaml_decoded path [] entries found inside trivial (by simp)
    exact decoded_mapping found ordered decoded
  | sequence items =>
    rw [ofYaml] at ok
    obtain ⟨found, inside, same⟩ := bind_ok ok
    obtain rfl := Except.ok.inj same
    exact decoded_sequence found (items_of_yaml_decoded path 0 items found inside)
  | text s =>
    obtain rfl := Except.ok.inj ok
    exact decoded_leaf _ rfl trivial
  | bool b =>
    obtain rfl := Except.ok.inj ok
    exact decoded_leaf _ rfl trivial
  | null =>
    obtain rfl := Except.ok.inj ok
    exact decoded_leaf _ rfl trivial
  | number n =>
    obtain ⟨-, rfl⟩ := of_yaml_number_ok path n t ok
    exact decoded_leaf _ rfl trivial
  | tagged tag value => simp [ofYaml] at ok

theorem items_of_yaml_decoded (path : String) (i : Nat) (items : List Yaml) (found : List Tree)
    (ok : itemsOfYaml path i items = .ok found) : ∀ item ∈ found, Decoded item := by
  cases items with
  | nil =>
    obtain rfl := Except.ok.inj ok
    simp
  | cons item rest =>
    rw [itemsOfYaml] at ok
    obtain ⟨first, firstOk, ok⟩ := bind_ok ok
    obtain ⟨later, laterOk, same⟩ := bind_ok ok
    obtain rfl := Except.ok.inj same
    exact List.forall_mem_cons.mpr
      ⟨of_yaml_decoded _ item first firstOk, items_of_yaml_decoded path (i + 1) rest later laterOk⟩

-- The invariant of the loop is that what was seen so far is a decoded mapping.
theorem entries_of_yaml_decoded (path : String) (seen : KeyMap Tree) (entries : List (Yaml × Yaml))
    (found : KeyMap Tree) (ok : entriesOfYaml path seen entries = .ok found) (ordered : KeyMap.Ordered seen)
    (decoded : ∀ entry ∈ seen, Decoded entry.2) :
    KeyMap.Ordered found ∧ ∀ entry ∈ found, Decoded entry.2 := by
  cases entries with
  | nil =>
    obtain rfl := Except.ok.inj ok
    exact ⟨ordered, decoded⟩
  | cons head rest =>
    obtain ⟨key, value⟩ := head
    rw [entriesOfYaml] at ok
    cases named : keyText? key with
    | none => simp [named] at ok
    | some name =>
      rw [named] at ok
      obtain ⟨first, firstOk, ok⟩ := bind_ok ok
      refine entries_of_yaml_decoded path _ rest found ok (KeyMap.insert_ordered name first seen ordered) ?_
      intro entry member
      rcases KeyMap.mem_insert member with rfl | member
      · exact of_yaml_decoded _ value first firstOk
      · exact decoded entry member
end

theorem entries_of_json (fields : List (String × Json)) : entriesOfJson fields = KeyMap.mapValues ofJson fields := by
  induction fields with
  | nil => rfl
  | cons head rest ih => exact congrArg _ ih

theorem entries_to_json (entries : List (String × Tree)) : entriesToJson entries = KeyMap.mapValues toJson entries := by
  induction entries with
  | nil => rfl
  | cons head rest ih => exact congrArg _ ih

theorem items_of_json (items : List Json) : itemsOfJson items = items.map ofJson := by
  induction items with
  | nil => rfl
  | cons item rest ih => exact congrArg _ ih

theorem items_to_json (items : List Tree) : itemsToJson items = items.map toJson := by
  induction items with
  | nil => rfl
  | cons item rest ih => exact congrArg _ ih

theorem entries_of_json_rise (fields : List (String × Json)) (rises : KeyMap.Ordered fields) :
    KeyMap.Ordered (entriesOfJson fields) := by
  rw [entries_of_json]
  exact KeyMap.map_values_ordered ofJson fields rises

mutual
theorem of_json_ordered (value : Json) (ordered : value.Ordered) : (ofJson value).Ordered := by
  cases value with
  | object fields => exact ⟨entries_of_json_rise fields ordered.1, entries_of_json_ordered fields ordered.2⟩
  | array items => exact items_of_json_ordered items ordered
  | _ => trivial

theorem items_of_json_ordered (items : List Json) (ordered : Json.ItemsOrdered items) :
    ItemsOrdered (itemsOfJson items) := by
  cases items with
  | nil => trivial
  | cons item rest => exact ⟨of_json_ordered item ordered.1, items_of_json_ordered rest ordered.2⟩

theorem entries_of_json_ordered (fields : List (String × Json)) (ordered : Json.FieldsOrdered fields) :
    EntriesOrdered (entriesOfJson fields) := by
  cases fields with
  | nil => trivial
  | cons head rest =>
    obtain ⟨key, value⟩ := head
    exact ⟨of_json_ordered value ordered.1, entries_of_json_ordered rest ordered.2⟩
end

mutual
theorem of_json_bytesless (value : Json) : (ofJson value).EachLeaf NoBytes := by
  cases value with
  | object fields =>
    rw [ofJson, each_leaf_mapping]
    exact entries_of_json_bytesless fields
  | array items =>
    rw [ofJson, each_leaf_sequence]
    exact items_of_json_bytesless items
  | _ => exact (each_leaf_single _ _ rfl).mpr trivial

theorem items_of_json_bytesless (items : List Json) : ∀ item ∈ itemsOfJson items, EachLeaf NoBytes item := by
  cases items with
  | nil => simp [itemsOfJson]
  | cons item rest =>
    rw [itemsOfJson, List.forall_mem_cons]
    exact ⟨of_json_bytesless item, items_of_json_bytesless rest⟩

theorem entries_of_json_bytesless (fields : List (String × Json)) :
    ∀ entry ∈ entriesOfJson fields, EachLeaf NoBytes entry.2 := by
  cases fields with
  | nil => simp [entriesOfJson]
  | cons head rest =>
    obtain ⟨key, value⟩ := head
    rw [entriesOfJson, List.forall_mem_cons]
    exact ⟨of_json_bytesless value, entries_of_json_bytesless rest⟩
end

end Tree

namespace Document

def Ordered (d : Document) : Prop := (Tree.mapping d.root).Ordered

def Decoded (d : Document) : Prop := (Tree.mapping d.root).Decoded

theorem of_tree_root (t : Tree) (d : Document) (ok : ofTree t = .ok d) : t = .mapping d.root := by
  cases t with
  | mapping root =>
    obtain rfl := Except.ok.inj ok
    rfl
  | _ => simp [ofTree] at ok

theorem of_tree_decoded (t : Tree) (decoded : t.Decoded) (d : Document) (ok : ofTree t = .ok d) : d.Decoded := by
  obtain rfl := of_tree_root t d ok
  exact decoded

theorem of_yaml_decoded (value : Yaml) (d : Document) (ok : ofYaml value = .ok d) : d.Decoded := by
  obtain ⟨t, decodes, ok⟩ := bind_ok ok
  exact of_tree_decoded t (Tree.of_yaml_decoded "" value t decodes) d ok

theorem field_ordered (d : Document) (ordered : d.Ordered) (name : String) (value : Tree)
    (here : d.root.find? name = some value) : value.Ordered :=
  (Tree.entries_ordered_iff d.root).mp ordered.2 _ (KeyMap.find_mem here)

theorem to_json_root (d : Document) : d.toJson = .object (KeyMap.mapValues Tree.toJson d.root) := by
  rw [toJson, Tree.toJson, Tree.entries_to_json]

theorem kind_iff (d : Document) (kind : String) : d.kind? = some kind ↔ d.root.find? "kind" = some (.text kind) := by
  unfold kind?
  split
  next s here => simp [here]
  next other =>
    refine iff_of_false (by simp) fun here => ?_
    exact other kind here

end Document

end ManifestSecrets
