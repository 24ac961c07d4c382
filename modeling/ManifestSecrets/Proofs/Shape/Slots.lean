import ManifestSecrets.Proofs.Shape.Codec

set_option autoImplicit false

namespace ManifestSecrets.Shape

theorem Decoder.find_others (known : List String) (name : String) (fields : KeyMap Json) :
    KeyMap.find? name (Decoder.others known fields) = if name ∈ known then none else KeyMap.find? name fields := by
  induction fields with
  | nil => simp [Decoder.others, KeyMap.find?]
  | cons head rest ih =>
    obtain ⟨key, value⟩ := head
    rw [Decoder.others] at ih ⊢
    by_cases same : name = key
    · subst same
      by_cases named : name ∈ known
      · simpa [named] using ih
      · simp [named, KeyMap.find?]
    · by_cases named : key ∈ known
      · simpa [named, KeyMap.find?, same] using ih
      · simpa [named, KeyMap.find?, same] using ih

-- A field of the record `σ`: its name, how it is read and written, and what of it is kept.
structure Slot (σ : Type) where
  Value : Type
  name : String
  codec : Codec Value
  outline : Outline
  get : σ → Value

variable {σ : Type}

namespace Slot

def written (slot : Slot σ) (r : σ) : Option Json := slot.codec.write (slot.get r)

def names (slots : List (Slot σ)) : List String := slots.map Slot.name

def outlines (slots : List (Slot σ)) : List (String × Outline) := slots.map fun slot => (slot.name, slot.outline)

def Read (slots : List (Slot σ)) (source : String → Option Json) (r : σ) : Prop :=
  ∀ slot ∈ slots, slot.codec.Reads (source slot.name) (slot.get r)

def fields (slots : List (Slot σ)) (r : σ) (rest : KeyMap Json) : KeyMap Json :=
  slots.flatMap (fun slot => field slot.name (slot.written r)) ++ rest

def unnamed (slots : List (Slot σ)) (others : Bool) (found : KeyMap Json) : KeyMap Json :=
  if others then Decoder.others (names slots) found else []

def ReadItems : List (Slot σ) → List Json → σ → Prop
  | [], _, _ => True
  | slot :: slots, items, r => slot.codec.Reads items.head? (slot.get r) ∧ ReadItems slots items.tail r

theorem fields_cons (slot : Slot σ) (slots : List (Slot σ)) (r : σ) (rest : KeyMap Json) :
    fields (slot :: slots) r rest = field slot.name (slot.written r) ++ fields slots r rest := by
  rw [fields, List.flatMap_cons, List.append_assoc]
  rfl

theorem find_fields_other (slots : List (Slot σ)) (r : σ) (rest : KeyMap Json) (name : String)
    (other : name ∉ names slots) : KeyMap.find? name (fields slots r rest) = KeyMap.find? name rest := by
  induction slots with
  | nil => rfl
  | cons slot slots ih =>
    simp only [names, List.map_cons, List.mem_cons, not_or] at other
    rw [fields_cons, KeyMap.find_append _ _ _ (find_field_other _ _ _ other.1), ih other.2]

theorem find_fields_slot (slots : List (Slot σ)) (distinct : (names slots).Nodup) (r : σ) (rest : KeyMap Json)
    (slot : Slot σ) (member : slot ∈ slots) (fresh : KeyMap.find? slot.name rest = none) :
    KeyMap.find? slot.name (fields slots r rest) = slot.written r := by
  induction slots with
  | nil => exact absurd member List.not_mem_nil
  | cons head slots ih =>
    obtain ⟨apart, slotsDistinct⟩ := List.nodup_cons.mp distinct
    rw [fields_cons]
    rcases List.mem_cons.mp member with rfl | later
    · have absent := find_fields_other slots r rest slot.name apart
      cases written : slot.written r with
      | none => rw [field, List.nil_append, absent, fresh]
      | some w => rw [field, List.cons_append, KeyMap.find?, if_pos rfl]
    · have other : slot.name ≠ head.name := by
        intro same
        exact apart (same ▸ List.mem_map_of_mem later)
      rw [KeyMap.find_append _ _ _ (find_field_other _ _ _ other), ih slotsDistinct later]

theorem mem_fields (slots : List (Slot σ)) (r : σ) (rest : KeyMap Json) (entry : String × Json) :
    entry ∈ fields slots r rest ↔
      (∃ slot ∈ slots, entry.1 = slot.name ∧ slot.written r = some entry.2) ∨ entry ∈ rest := by
  have single : ∀ slot : Slot σ, entry ∈ field slot.name (slot.written r) ↔
      entry.1 = slot.name ∧ slot.written r = some entry.2 := by
    intro slot
    cases slot.written r with
    | none => simp [field]
    | some w => simp [field, Prod.ext_iff, eq_comm]
  simp only [fields, List.mem_append, List.mem_flatMap, single]

theorem fields_distinct (slots : List (Slot σ)) (distinct : (names slots).Nodup) (r : σ) (rest : KeyMap Json)
    (ordered : KeyMap.Ordered rest) (fresh : ∀ name ∈ names slots, KeyMap.find? name rest = none) :
    (KeyMap.keys (fields slots r rest)).Nodup := by
  induction slots with
  | nil => exact KeyMap.keys_distinct rest ordered
  | cons slot slots ih =>
    obtain ⟨apart, slotsDistinct⟩ := List.nodup_cons.mp distinct
    obtain ⟨here, later⟩ := List.forall_mem_cons.mp fresh
    have inner := ih slotsDistinct later
    rw [fields_cons]
    cases slot.written r with
    | none => exact inner
    | some w =>
      have absent := find_fields_other slots r rest slot.name apart
      exact List.nodup_cons.mpr ⟨(KeyMap.find_none_iff _ _).mp (absent.trans here), inner⟩

theorem find_unnamed (slots : List (Slot σ)) (others : Bool) (found : KeyMap Json) (name : String) :
    KeyMap.find? name (unnamed slots others found) =
      if others = true ∧ name ∉ names slots then KeyMap.find? name found else none := by
  cases others with
  | false => simp [unnamed, KeyMap.find?]
  | true =>
    rw [unnamed, if_pos rfl, Decoder.find_others]
    by_cases named : name ∈ names slots
    · simp [named]
    · simp [named]

theorem mem_unnamed (slots : List (Slot σ)) (others : Bool) (found : KeyMap Json) (entry : String × Json)
    (member : entry ∈ unnamed slots others found) : entry ∈ found := by
  cases others with
  | false => exact absurd member List.not_mem_nil
  | true => exact (List.mem_filter.mp member).1

theorem unnamed_ordered (slots : List (Slot σ)) (others : Bool) (found : KeyMap Json)
    (ordered : KeyMap.Ordered found) : KeyMap.Ordered (unnamed slots others found) := by
  cases others with
  | false => trivial
  | true => exact KeyMap.filter_ordered _ found ordered

theorem read_items_source (slots : List (Slot σ)) (distinct : (names slots).Nodup) (items : List Json) (r : σ)
    (reads : ReadItems slots items r) :
    ∃ source : String → Option Json, Read slots source r ∧ ∀ name, ∀ v ∈ source name, v ∈ items := by
  induction slots generalizing items with
  | nil => exact ⟨fun _ => none, fun slot member => absurd member List.not_mem_nil, by simp⟩
  | cons slot slots ih =>
    obtain ⟨apart, slotsDistinct⟩ := List.nodup_cons.mp distinct
    obtain ⟨source, later, inside⟩ := ih slotsDistinct items.tail reads.2
    refine ⟨fun name => if name = slot.name then items.head? else source name, ?_, fun name v found => ?_⟩
    · refine List.forall_mem_cons.mpr ⟨by simpa using reads.1, fun other member => ?_⟩
      have different : other.name ≠ slot.name := fun same => apart (same ▸ List.mem_map_of_mem member)
      simpa [different] using later other member
    · by_cases here : name = slot.name
      · simp only [if_pos here] at found
        exact List.mem_of_mem_head? found
      · simp only [if_neg here] at found
        exact List.mem_of_mem_tail (inside name v found)

theorem find_outlines (slots : List (Slot σ)) (distinct : (names slots).Nodup) (slot : Slot σ) (member : slot ∈ slots) :
    KeyMap.find? slot.name (outlines slots) = some slot.outline := by
  induction slots with
  | nil => exact absurd member List.not_mem_nil
  | cons head slots ih =>
    obtain ⟨apart, slotsDistinct⟩ := List.nodup_cons.mp distinct
    rcases List.mem_cons.mp member with rfl | later
    · simp [outlines, KeyMap.find?]
    · have other : slot.name ≠ head.name := by
        intro same
        exact apart (same ▸ List.mem_map_of_mem later)
      have found := ih slotsDistinct later
      rw [outlines] at found ⊢
      rw [List.map_cons, KeyMap.find?, if_neg other, found]

theorem find_outlines_other (slots : List (Slot σ)) (name : String) (other : name ∉ names slots) :
    KeyMap.find? name (outlines slots) = none := by
  rwa [KeyMap.find_none_iff, KeyMap.keys, outlines, List.map_map]

end Slot

open Shape.Slot

structure Described (d : Decoder σ) (write : σ → Json) (slots : List (Slot σ)) (others : Bool)
    (rest : σ → KeyMap Json) : Prop where
  distinct : (names slots).Nodup
  lawful : ∀ slot ∈ slots, slot.codec.Lawful slot.outline
  container : ∀ v r, d v = .ok r → (∃ found, v = .object found) ∨ ∃ items, v = .array items
  object : ∀ found r, d (.object found) = .ok r ↔
    Read slots (fun name => KeyMap.find? name found) r ∧ rest r = unnamed slots others found
  array : ∀ items r, d (.array items) = .ok r → others = false ∧ rest r = [] ∧ ReadItems slots items r
  written : ∀ r, write r = .object (fields slots r (rest r))

namespace Described

variable {d : Decoder σ} {write : σ → Json} {slots : List (Slot σ)} {others : Bool} {rest : σ → KeyMap Json}

theorem object_keeps (described : Described d write slots others rest) (found : KeyMap Json) (r : σ)
    (ok : d (.object found) = .ok r) :
    Keeps (.record (outlines slots) others) (some (.object found)) (some (write r)) := by
  obtain ⟨reads, kept⟩ := (described.object found r).mp ok
  rw [described.written r, kept]
  intro path leaf here scalar
  cases path with
  | nil =>
    obtain rfl := Option.some.inj here
    simp [Json.isScalar] at scalar
  | cons step below =>
    cases step with
    | index i => simp [Json.at?, Json.child?] at here
    | key name =>
      have inside : (KeyMap.find? name found).bind (Json.at? below) = some leaf := here
      change (KeyMap.find? name (fields slots r _)).bind (Json.at? below) = some leaf ↔ _
      by_cases named : name ∈ names slots
      · obtain ⟨slot, member, rfl⟩ := List.mem_map.mp named
        have fresh : KeyMap.find? slot.name (unnamed slots others found) = none := by simp [find_unnamed, named]
        rw [find_fields_slot slots described.distinct r _ slot member fresh, Outline.keeps,
          find_outlines slots described.distinct slot member]
        exact (described.lawful slot member).keeps _ _ (reads slot member) below leaf inside scalar
      · rw [find_fields_other slots r _ name named, find_unnamed, Outline.keeps, find_outlines_other slots name named]
        cases others with
        | false => simp
        | true => simpa [named] using inside

-- A record is never written as an array, so nothing stays in its place.
theorem array_keeps (described : Described d write slots others rest) (items : List Json) (r : σ) :
    Keeps (.record (outlines slots) others) (some (.array items)) (some (write r)) := by
  rw [described.written r]
  intro path leaf here scalar
  cases path with
  | nil =>
    obtain rfl := Option.some.inj here
    simp [Json.isScalar] at scalar
  | cons step below =>
    cases step with
    | index i => simp [Json.at?, Json.child?, Outline.keeps]
    | key name => simp [Json.at?, Json.child?] at here

theorem written_leaves (described : Described d write slots others rest) (p : Tree → Prop)
    (source : String → Option Json) (r : σ) (reads : Read slots source r) (each : ∀ name, ∀ v ∈ source name, v.EachLeaf p)
    (unknown : ∀ entry ∈ rest r, entry.2.EachLeaf p) : (write r).EachLeaf p := by
  rw [described.written r, Json.each_leaf_object]
  intro entry member
  rcases (mem_fields slots r _ entry).mp member with ⟨slot, inSlots, -, written⟩ | inRest
  · exact (described.lawful slot inSlots).leaves p _ _ (reads slot inSlots) (each slot.name) entry.2 written
  · exact unknown entry inRest

theorem find_written (described : Described d write slots others rest) (r : σ) (found : KeyMap Json)
    (ordered : KeyMap.Ordered found) (kept : rest r = unnamed slots others found) :
    ∃ out, (write r).sorted = .object out ∧ KeyMap.Ordered out ∧
      (∀ slot ∈ slots, KeyMap.find? slot.name out = (slot.written r).map Json.sorted) ∧
      ∀ name, name ∉ names slots → KeyMap.find? name out = (KeyMap.find? name (rest r)).map Json.sorted := by
  have fresh : ∀ name ∈ names slots, KeyMap.find? name (rest r) = none :=
    fun name named => by simp [kept, find_unnamed, named]
  have restOrdered : KeyMap.Ordered (rest r) := kept ▸ unnamed_ordered slots others found ordered
  have distinct := fields_distinct slots described.distinct r (rest r) restOrdered fresh
  rw [described.written r]
  refine ⟨_, rfl, KeyMap.of_list_ordered _, fun slot member => ?_, fun name other => ?_⟩
  · rw [Json.find_sorted slot.name _ distinct,
      find_fields_slot slots described.distinct r _ slot member (fresh _ (List.mem_map_of_mem member))]
  · rw [Json.find_sorted name _ distinct, find_fields_other slots r _ name other]

theorem read_again (described : Described d write slots others rest) (source : String → Option Json) (r : σ)
    (reads : Read slots source r) (ordered : ∀ name, ∀ v ∈ source name, v.Ordered) (found : KeyMap Json)
    (foundOrdered : (Json.object found).Ordered) (kept : rest r = unnamed slots others found) :
    d (write r).sorted = .ok r := by
  obtain ⟨out, written, outOrdered, slotFound, otherFound⟩ := described.find_written r found foundOrdered.1 kept
  rw [written, described.object, kept]
  constructor
  · intro slot member
    change slot.codec.Reads (KeyMap.find? slot.name out) _
    rw [slotFound slot member]
    exact (described.lawful slot member).again _ _ (ordered slot.name) (reads slot member)
  · have restOrdered := unnamed_ordered slots others found foundOrdered.1
    refine KeyMap.ext_of_find _ _ restOrdered (unnamed_ordered slots others out outOrdered) fun name => ?_
    rw [find_unnamed, find_unnamed]
    by_cases unknown : others = true ∧ name ∉ names slots
    · rw [if_pos unknown, if_pos unknown, otherFound name unknown.2, kept, find_unnamed, if_pos unknown]
      cases here : KeyMap.find? name found with
      | none => rfl
      | some v =>
        have inside := (Json.fields_ordered_iff found).mp foundOrdered.2 _ (KeyMap.find_mem here)
        rw [Option.map_some, Json.sorted_of_ordered v inside]
    · rw [if_neg unknown, if_neg unknown]

theorem faithful (described : Described d write slots others rest) :
    Faithful d write (.record (outlines slots) others) where
  record v r ok := ⟨_, described.written r⟩
  keeps v r ok := by
    rcases described.container v r ok with ⟨found, rfl⟩ | ⟨items, rfl⟩
    · exact described.object_keeps found r ok
    · exact described.array_keeps items r
  leaves p v r ok each := by
    rcases described.container v r ok with ⟨found, rfl⟩ | ⟨items, rfl⟩
    · obtain ⟨reads, kept⟩ := (described.object found r).mp ok
      rw [Json.each_leaf_object] at each
      refine described.written_leaves p _ r reads (fun name v here => each _ (KeyMap.find_mem here)) ?_
      rw [kept]
      exact fun entry member => each entry (mem_unnamed slots others found entry member)
    · obtain ⟨-, unknown, taken⟩ := described.array items r ok
      obtain ⟨source, reads, member⟩ := read_items_source slots described.distinct items r taken
      rw [Json.each_leaf_array] at each
      exact described.written_leaves p source r reads (fun name v here => each v (member name v here)) (by simp [unknown])
  again v r ordered ok := by
    rcases described.container v r ok with ⟨found, rfl⟩ | ⟨items, rfl⟩
    · obtain ⟨reads, kept⟩ := (described.object found r).mp ok
      have inside := (Json.fields_ordered_iff found).mp ordered.2
      exact described.read_again _ r reads (fun name v here => inside _ (KeyMap.find_mem here)) found ordered kept
    · obtain ⟨closed, unknown, taken⟩ := described.array items r ok
      obtain ⟨source, reads, member⟩ := read_items_source slots described.distinct items r taken
      have inside := (Json.items_ordered_iff items).mp ordered
      have kept : rest r = unnamed slots others [] := by rw [unknown, unnamed, closed, if_neg Bool.false_ne_true]
      exact described.read_again source r reads (fun name v here => inside v (member name v here)) []
        ⟨trivial, trivial⟩ kept

end Described

end ManifestSecrets.Shape
