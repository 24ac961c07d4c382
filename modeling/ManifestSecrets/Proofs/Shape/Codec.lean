import ManifestSecrets.Proofs.Json.Order
import ManifestSecrets.Proofs.Shape.Decoder
import ManifestSecrets.Proofs.Text.Canonical

/-!
What a value goes through between decoding and writing: which of its places are kept, that no leaf is added,
and that what is written is decoded to the same again. The laws are stated for values and for the fields of a
record, where a value may be absent before or after.
-/

set_option autoImplicit false

namespace ManifestSecrets.Shape

-- The places that a shape keeps: all of them, or those inside the fields it names and, where it keeps unknown
-- fields, all those outside.
inductive Outline where
  | whole
  | record (named : List (String × Outline)) (others : Bool)

namespace Outline

def keeps : Outline → Path → Bool
  | _, [] => true
  | .whole, _ => true
  | .record named others, .key name :: rest =>
      match KeyMap.find? name named with
      | some inner => inner.keeps rest
      | none => others
  | .record _ _, .index _ :: _ => false

end Outline

def Keeps (outline : Outline) (source written : Option Json) : Prop :=
  ∀ path leaf, source.bind (Json.at? path) = some leaf → leaf.isScalar = true →
    (written.bind (Json.at? path) = some leaf ↔ outline.keeps path = true)

theorem Decoder.optional_ok_iff {α : Type} (d : Decoder α) (v : Json) (o : Option α) :
    Decoder.optional d v = .ok o ↔ (v = .null ∧ o = none) ∨ (v ≠ .null ∧ ∃ a, d v = .ok a ∧ o = some a) := by
  by_cases null : v = .null
  · subst null
    simp [Decoder.optional, eq_comm]
  · have other : Decoder.optional d v = (d v).map some := by
      cases v with
      | null => exact absurd rfl null
      | _ => rfl
    rw [other]
    cases decoded : d v with
    | error fault => simp [Except.map, null]
    | ok a => simp [Except.map, null, eq_comm]

structure Codec (α : Type) where
  decode : Decoder α
  write : α → Option Json
  absent : Option α

namespace Codec

variable {α : Type}

def Reads (c : Codec α) (source : Option Json) (a : α) : Prop :=
  match source with
  | some v => c.decode v = .ok a
  | none => c.absent = some a

structure Lawful (c : Codec α) (outline : Outline) : Prop where
  keeps : ∀ source a, c.Reads source a → Keeps outline source (c.write a)
  leaves : ∀ p source a, c.Reads source a → (∀ v ∈ source, v.EachLeaf p) → ∀ w ∈ c.write a, w.EachLeaf p
  again : ∀ source a, (∀ v ∈ source, v.Ordered) → c.Reads source a → c.Reads ((c.write a).map Json.sorted) a

-- What is written is what was read, or nothing where nothing is lost by it.
structure Verbatim (c : Codec α) : Prop where
  exact : ∀ v a, c.decode v = .ok a → c.write a = some v ∨
    (c.write a = none ∧ c.absent = some a ∧ ∀ path leaf, v.at? path = some leaf → leaf.isScalar = false)
  absent : ∀ a, c.absent = some a → c.write a = none

theorem verbatim_lawful (c : Codec α) (verbatim : c.Verbatim) : c.Lawful .whole where
  keeps source a reads path leaf here scalar := by
    refine iff_of_true ?_ (by cases path <;> rfl)
    cases source with
    | none => simp at here
    | some v =>
      rcases verbatim.exact v a reads with same | ⟨-, -, empty⟩
      · rwa [same]
      · simp [empty path leaf here] at scalar
  leaves p source a reads each := by
    cases source with
    | none => simp [verbatim.absent a reads]
    | some v =>
      rcases verbatim.exact v a reads with same | ⟨none, -, -⟩
      · rwa [same]
      · simp [none]
  again source a ordered reads := by
    cases source with
    | none =>
      rw [verbatim.absent a reads]
      exact reads
    | some v =>
      rcases verbatim.exact v a reads with same | ⟨none, absent, -⟩
      · rw [same, Option.map_some, Json.sorted_of_ordered v (ordered v rfl)]
        exact reads
      · rw [none]
        exact absent

def required (d : Decoder α) (write : α → Json) : Codec α := ⟨d, fun a => some (write a), none⟩

def optional (d : Decoder α) (write : α → Json) : Codec (Option α) := ⟨Decoder.optional d, Option.map write, some none⟩

def defaulted (d : Decoder α) (write : α → Json) (value : α) : Codec α := ⟨d, fun a => some (write a), some value⟩

def entries (d : Decoder α) (write : α → Json) : Codec (KeyMap α) :=
  ⟨Decoder.map d, fun m => if m.isEmpty then none else some (.object (KeyMap.mapValues write m)), some []⟩

def items : Codec (List Json) := ⟨Decoder.list, fun m => if m.isEmpty then none else some (.array m), some []⟩

end Codec

def Exact {α : Type} (d : Decoder α) (write : α → Json) : Prop := ∀ v a, d v = .ok a → write a = v

namespace Exact

variable {α : Type} {d : Decoder α} {write : α → Json}

theorem text : Exact Decoder.text Json.text := by
  intro v a ok
  cases v with
  | text s =>
    obtain rfl := Except.ok.inj ok
    rfl
  | _ => simp [Decoder.text] at ok

theorem bool : Exact Decoder.bool Json.bool := by
  intro v a ok
  cases v with
  | bool b =>
    obtain rfl := Except.ok.inj ok
    rfl
  | _ => simp [Decoder.bool] at ok

theorem integer (name : String) (least greatest : Int) :
    Exact (Decoder.integer name least greatest) (fun n => .number (.integer n)) := by
  intro v a ok
  unfold Decoder.integer at ok
  split at ok
  · split at ok
    · obtain rfl := Except.ok.inj ok
      rfl
    · simp at ok
  · simp at ok

theorem value : Exact Decoder.value id := fun _ _ ok => (Except.ok.inj ok).symm

theorem bytes : Exact Decoder.bytes bytesJson := by
  intro v a ok
  cases v with
  | text s =>
    rw [Decoder.bytes] at ok
    cases decoded : Text.decodeBase64 s with
    | error fault => simp [decoded] at ok
    | ok b =>
      rw [decoded] at ok
      obtain rfl := Except.ok.inj ok
      exact congrArg Json.text (Text.encode_decoded s b decoded)
  | _ => simp [Decoder.bytes] at ok

theorem entries (exact : Exact d write) (fields : KeyMap Json) (m : KeyMap α) (ok : Decoder.entries d fields = .ok m) :
    KeyMap.mapValues write m = fields := by
  induction fields generalizing m with
  | nil =>
    obtain rfl := Except.ok.inj ok
    rfl
  | cons head rest ih =>
    obtain ⟨key, v⟩ := head
    obtain ⟨a, decoded, ok⟩ := bind_ok ok
    obtain ⟨later, laterOk, same⟩ := bind_ok ok
    obtain rfl := Except.ok.inj same
    rw [KeyMap.map_values_cons, exact v a decoded, ih later laterOk]

theorem required_verbatim (exact : Exact d write) : (Codec.required d write).Verbatim where
  exact v a ok := .inl (congrArg some (exact v a ok))
  absent a none := by simp [Codec.required] at none

theorem optional_verbatim (exact : Exact d write) : (Codec.optional d write).Verbatim where
  exact v o ok := by
    rcases (Decoder.optional_ok_iff d v o).mp ok with ⟨rfl, rfl⟩ | ⟨-, a, decoded, rfl⟩
    · exact .inr ⟨rfl, rfl, Json.childless_at _ rfl Json.null_childless⟩
    · exact .inl (congrArg some (exact v a decoded))
  absent o none := by
    obtain rfl := Option.some.inj none
    rfl

theorem entries_verbatim (exact : Exact d write) : (Codec.entries d write).Verbatim where
  exact v m ok := by
    cases v with
    | object fields =>
      have same : KeyMap.mapValues write m = fields := exact.entries fields m ok
      cases m with
      | nil =>
        subst same
        exact .inr ⟨rfl, rfl, Json.childless_at _ rfl Json.object_nil_childless⟩
      | cons entry rest => exact .inl (congrArg (fun fields => some (Json.object fields)) same)
    | _ => simp [Codec.entries, Decoder.map] at ok
  absent m none := by
    obtain rfl := Option.some.inj none
    rfl

theorem items_verbatim : Codec.items.Verbatim where
  exact v m ok := by
    cases v with
    | array items =>
      obtain rfl : items = m := Except.ok.inj ok
      cases items with
      | nil => exact .inr ⟨rfl, rfl, Json.childless_at _ rfl Json.array_nil_childless⟩
      | cons item rest => exact .inl rfl
    | _ => simp [Codec.items, Decoder.list] at ok
  absent m none := by
    obtain rfl := Option.some.inj none
    rfl

end Exact

structure Faithful {α : Type} (d : Decoder α) (write : α → Json) (outline : Outline) : Prop where
  record : ∀ v a, d v = .ok a → ∃ fields, write a = .object fields
  keeps : ∀ v a, d v = .ok a → Keeps outline (some v) (some (write a))
  leaves : ∀ p v a, d v = .ok a → v.EachLeaf p → (write a).EachLeaf p
  again : ∀ v a, v.Ordered → d v = .ok a → d (write a).sorted = .ok a

namespace Faithful

variable {α : Type} {d : Decoder α} {write : α → Json} {outline : Outline}

theorem required_lawful (faithful : Faithful d write outline) : (Codec.required d write).Lawful outline where
  keeps source a reads := by
    cases source with
    | none => simp [Codec.Reads, Codec.required] at reads
    | some v => exact faithful.keeps v a reads
  leaves p source a reads each := by
    cases source with
    | none => simp [Codec.Reads, Codec.required] at reads
    | some v =>
      intro w written
      obtain rfl : write a = w := Option.some.inj written
      exact faithful.leaves p v a reads (each v rfl)
  again source a ordered reads := by
    cases source with
    | none => simp [Codec.Reads, Codec.required] at reads
    | some v => exact faithful.again v a (ordered v rfl) reads

theorem optional_lawful (faithful : Faithful d write outline) : (Codec.optional d write).Lawful outline where
  keeps source o reads := by
    cases source with
    | none => exact fun path leaf here => by simp at here
    | some v =>
      rcases (Decoder.optional_ok_iff d v o).mp reads with ⟨rfl, rfl⟩ | ⟨-, a, decoded, rfl⟩
      · intro path leaf here scalar
        simp [Json.childless_at .null rfl Json.null_childless path leaf here] at scalar
      · exact faithful.keeps v a decoded
  leaves p source o reads each := by
    cases source with
    | none =>
      obtain rfl := Option.some.inj reads
      simp [Codec.optional]
    | some v =>
      rcases (Decoder.optional_ok_iff d v o).mp reads with ⟨rfl, rfl⟩ | ⟨-, a, decoded, rfl⟩
      · simp [Codec.optional]
      · intro w written
        obtain rfl : write a = w := Option.some.inj written
        exact faithful.leaves p v a decoded (each v rfl)
  again source o ordered reads := by
    cases source with
    | none =>
      obtain rfl := Option.some.inj reads
      rfl
    | some v =>
      rcases (Decoder.optional_ok_iff d v o).mp reads with ⟨rfl, rfl⟩ | ⟨-, a, decoded, rfl⟩
      · rfl
      · obtain ⟨fields, object⟩ := faithful.record v a decoded
        refine (Decoder.optional_ok_iff d _ _).mpr (.inr ⟨?_, a, faithful.again v a (ordered v rfl) decoded, rfl⟩)
        simp [object, Json.sorted]

theorem wrapped (faithful : Faithful d write outline) {β : Type} (wrap : α → β) (writeWrapped : β → Json)
    (same : ∀ a, writeWrapped (wrap a) = write a) : Faithful (fun v => (d v).map wrap) writeWrapped outline where
  record v b ok := by
    obtain ⟨a, decoded, rfl⟩ := map_ok ok
    rw [same]
    exact faithful.record v a decoded
  keeps v b ok := by
    obtain ⟨a, decoded, rfl⟩ := map_ok ok
    rw [same]
    exact faithful.keeps v a decoded
  leaves p v b ok each := by
    obtain ⟨a, decoded, rfl⟩ := map_ok ok
    rw [same]
    exact faithful.leaves p v a decoded each
  again v b ordered ok := by
    obtain ⟨a, decoded, rfl⟩ := map_ok ok
    simp only [same, faithful.again v a ordered decoded, Except.map]

-- The value for an absent field is the one read from an object without fields.
theorem defaulted_lawful (faithful : Faithful d write outline) (value : α) (blank : write value = .object [])
    (decoded : d (.object []) = .ok value) : (Codec.defaulted d write value).Lawful outline where
  keeps source a reads := by
    cases source with
    | none => exact fun path leaf here => by simp at here
    | some v => exact faithful.keeps v a reads
  leaves p source a reads each := by
    intro w written
    obtain rfl : write a = w := Option.some.inj written
    cases source with
    | none =>
      obtain rfl := Option.some.inj reads
      simp [blank, Json.each_leaf_object]
    | some v => exact faithful.leaves p v a reads (each v rfl)
  again source a ordered reads := by
    cases source with
    | none =>
      obtain rfl := Option.some.inj reads
      change d (write value).sorted = .ok value
      rw [blank]
      exact decoded
    | some v => exact faithful.again v a (ordered v rfl) reads

end Faithful

end ManifestSecrets.Shape
