import ManifestSecrets.Document
import Mathlib.Data.List.Lex

/-!
What a document has no form for. The faults of a YAML value stand at positions, which are in the order of its
text: entries and items in turn, and the key of an entry before its value. A fault is named with the path of the
value that is at fault or, for a key, of its mapping.
-/

set_option autoImplicit false

namespace ManifestSecrets

inductive Offset where
  | key (i : Nat)
  | value (i : Nat)
  | item (i : Nat)
deriving DecidableEq

abbrev Position := List Offset

def Offset.Before : Offset → Offset → Prop
  | .key i, .key j => i < j
  | .key i, .value j => i ≤ j
  | .value i, .key j => i < j
  | .value i, .value j => i < j
  | .item i, .item j => i < j
  | _, _ => False

def Position.Before (a b : Position) : Prop := List.Lex Offset.Before a b

instance : Std.Asymm Offset.Before where
  asymm a b before after := by
    cases a <;> cases b <;> simp only [Offset.Before] at before after <;> omega

theorem Position.before_asymm (a b : Position) (before : Before a b) : ¬ Before b a :=
  (List.Lex.asymm Offset.Before).asymm a b before

namespace Yaml

def Nameless : Yaml → Prop
  | .null => True
  | .sequence _ => True
  | .mapping _ => True
  | .tagged _ _ => True
  | _ => False

inductive Names : Yaml → String → Prop
  | text (s : String) : Names (.text s) s
  | number (n : Number) : Names (.number n) (n.write .yaml)
  | bool (b : Bool) : Names (.bool b) (if b then "true" else "false")

inductive Inside : Yaml → Yaml → Prop
  | itself (value : Yaml) : Inside value value
  | item {inner item : Yaml} {items : List Yaml} (member : item ∈ items) (below : Inside inner item) :
      Inside inner (.sequence items)
  | entry {inner key value : Yaml} {entries : List (Yaml × Yaml)} (member : (key, value) ∈ entries)
      (below : Inside inner value) : Inside inner (.mapping entries)

def Faulty : Yaml → Prop
  | .tagged _ _ => True
  | .number n => n.isFinite = false
  | .mapping entries => ∃ entry ∈ entries, Nameless entry.1
  | _ => False

def Expressible (value : Yaml) : Prop := ∀ inner, Inside inner value → ¬ Faulty inner

inductive Fault : String → Yaml → Position → StructuralError → Prop
  | tag (path tag : String) (value : Yaml) : Fault path (.tagged tag value) [] (.tagged path (tagText tag))
  | number (path : String) (n : Number) (endless : n.isFinite = false) :
      Fault path (.number n) [] (.invalidNumber path (n.write .yaml))
  | key {path : String} {entries : List (Yaml × Yaml)} {i : Nat} {key value : Yaml}
      (here : entries[i]? = some (key, value)) (nameless : key.Nameless) :
      Fault path (.mapping entries) [.key i] (.nonStringKey path key.describe)
  | entry {path name : String} {entries : List (Yaml × Yaml)} {i : Nat} {key value : Yaml} {position : Position}
      {e : StructuralError} (here : entries[i]? = some (key, value)) (named : key.Names name)
      (below : Fault (if path = "" then name else path ++ "." ++ name) value position e) :
      Fault path (.mapping entries) (.value i :: position) e
  | item {path : String} {items : List Yaml} {i : Nat} {item : Yaml} {position : Position} {e : StructuralError}
      (here : items[i]? = some item) (below : Fault (path ++ "[" ++ toString i ++ "]") item position e) :
      Fault path (.sequence items) (.item i :: position) e

def typeName : Yaml → String
  | .mapping _ => "mapping"
  | .sequence _ => "sequence"
  | .text _ => "string"
  | .null => "null"
  | .bool _ => "bool"
  | .number _ => "number"
  | .tagged _ _ => "tagged value"

-- A fault with no other one before it.
def FirstFault (value : Yaml) (path : String) (e : StructuralError) : Prop :=
  ∃ position, Fault path value position e ∧ ∀ other f, Fault path value other f →
    (other, f) = (position, e) ∨ Position.Before position other

theorem key_text_none_iff (key : Yaml) : Tree.keyText? key = none ↔ key.Nameless := by
  cases key <;> simp [Tree.keyText?, Nameless]

theorem key_text_some_iff (key : Yaml) (name : String) : Tree.keyText? key = some name ↔ key.Names name := by
  constructor
  · intro named
    cases key with
    | text s => exact Option.some.inj named ▸ .text s
    | number n => exact Option.some.inj named ▸ .number n
    | bool b => exact Option.some.inj named ▸ .bool b
    | _ => simp [Tree.keyText?] at named
  · rintro (_ | _ | _) <;> rfl

theorem mapping_type_iff (value : Yaml) : value.typeName = "mapping" ↔ ∃ entries, value = .mapping entries := by
  cases value <;> simp [typeName]

theorem expressible_mapping_iff (entries : List (Yaml × Yaml)) :
    Expressible (.mapping entries) ↔ ∀ entry ∈ entries, ¬ Nameless entry.1 ∧ Expressible entry.2 := by
  constructor
  · intro expressible entry member
    refine ⟨fun nameless => expressible _ (.itself _) ⟨entry, member, nameless⟩, fun inner below => ?_⟩
    exact expressible inner (.entry member below)
  · intro each inner inside
    cases inside with
    | itself =>
      rintro ⟨entry, member, nameless⟩
      exact (each entry member).1 nameless
    | entry member below => exact (each _ member).2 inner below

theorem expressible_sequence_iff (items : List Yaml) :
    Expressible (.sequence items) ↔ ∀ item ∈ items, Expressible item := by
  constructor
  · exact fun expressible item member inner below => expressible inner (.item member below)
  · intro each inner inside
    cases inside with
    | itself => exact id
    | item member below => exact each _ member inner below

theorem expressible_number_iff (n : Number) : Expressible (.number n) ↔ n.isFinite = true := by
  constructor
  · intro expressible
    exact Bool.not_eq_false _ ▸ expressible _ (.itself _)
  · rintro finite inner (_ | _)
    simp [Faulty, finite]

def under (offset : Offset) (found : Position × StructuralError) : Position × StructuralError :=
  (offset :: found.1, found.2)

mutual
def faults (path : String) : Yaml → List (Position × StructuralError)
  | .mapping entries => entryFaults path 0 entries
  | .sequence items => itemFaults path 0 items
  | .number n => if n.isFinite then [] else [([], .invalidNumber path (n.write .yaml))]
  | .tagged tag _ => [([], .tagged path (tagText tag))]
  | .text _ => []
  | .bool _ => []
  | .null => []

def itemFaults (path : String) (i : Nat) : List Yaml → List (Position × StructuralError)
  | [] => []
  | item :: rest => (faults (Tree.itemPath path i) item).map (under (.item i)) ++ itemFaults path (i + 1) rest

def entryFaults (path : String) (i : Nat) : List (Yaml × Yaml) → List (Position × StructuralError)
  | [] => []
  | (key, value) :: rest =>
      (match Tree.keyText? key with
        | none => [([.key i], .nonStringKey path key.describe)]
        | some name => (faults (Tree.childPath path name) value).map (under (.value i)))
        ++ entryFaults path (i + 1) rest
end

section Listed

variable (path : String)

theorem entry_faults_nameless (i : Nat) (key value : Yaml) (rest : List (Yaml × Yaml))
    (nameless : Tree.keyText? key = none) : entryFaults path i ((key, value) :: rest) =
      ([.key i], .nonStringKey path key.describe) :: entryFaults path (i + 1) rest := by
  rw [entryFaults, nameless]
  rfl

theorem entry_faults_named (i : Nat) (key value : Yaml) (rest : List (Yaml × Yaml)) (name : String)
    (named : Tree.keyText? key = some name) : entryFaults path i ((key, value) :: rest) =
      (faults (Tree.childPath path name) value).map (under (.value i)) ++ entryFaults path (i + 1) rest := by
  rw [entryFaults, named]

theorem mem_item_faults (i : Nat) (items : List Yaml) (position : Position) (e : StructuralError) :
    (position, e) ∈ itemFaults path i items ↔ ∃ j item below, items[j]? = some item ∧
      position = .item (i + j) :: below ∧ (below, e) ∈ faults (Tree.itemPath path (i + j)) item := by
  induction items generalizing i with
  | nil => simp [itemFaults]
  | cons head rest ih =>
    rw [itemFaults, List.mem_append, List.mem_map, ih]
    constructor
    · rintro (⟨⟨below, f⟩, inside, same⟩ | ⟨j, item, below, here, rfl, inside⟩)
      · obtain ⟨rfl, rfl⟩ := Prod.mk.inj same
        exact ⟨0, head, below, rfl, rfl, inside⟩
      · have shifted : i + 1 + j = i + (j + 1) := by omega
        exact ⟨j + 1, item, below, here, by rw [shifted], shifted ▸ inside⟩
    · rintro ⟨j, item, below, here, rfl, inside⟩
      cases j with
      | zero =>
        obtain rfl : head = item := Option.some.inj here
        exact .inl ⟨(below, e), inside, rfl⟩
      | succ j =>
        have shifted : i + (j + 1) = i + 1 + j := by omega
        exact .inr ⟨j, item, below, here, by rw [shifted], shifted ▸ inside⟩

def EntryFault (i : Nat) (key value : Yaml) (position : Position) (e : StructuralError) : Prop :=
  (Tree.keyText? key = none ∧ position = [.key i] ∧ e = .nonStringKey path key.describe) ∨
    ∃ name below, Tree.keyText? key = some name ∧ position = .value i :: below ∧
      (below, e) ∈ faults (Tree.childPath path name) value

theorem mem_entry_faults_cons (i : Nat) (key value : Yaml) (rest : List (Yaml × Yaml)) (position : Position)
    (e : StructuralError) : (position, e) ∈ entryFaults path i ((key, value) :: rest) ↔
      EntryFault path i key value position e ∨ (position, e) ∈ entryFaults path (i + 1) rest := by
  cases named : Tree.keyText? key with
  | none =>
    rw [entry_faults_nameless path i key value rest named, List.mem_cons, Prod.mk.injEq]
    simp [EntryFault, named]
  | some name =>
    rw [entry_faults_named path i key value rest name named, List.mem_append, List.mem_map]
    refine or_congr_left ?_
    constructor
    · rintro ⟨⟨below, f⟩, inside, same⟩
      obtain ⟨rfl, rfl⟩ := Prod.mk.inj same
      exact .inr ⟨name, below, named, rfl, inside⟩
    · rintro (⟨nameless, -⟩ | ⟨other, below, otherNamed, rfl, inside⟩)
      · simp [named] at nameless
      · obtain rfl : name = other := Option.some.inj (named.symm.trans otherNamed)
        exact ⟨(below, e), inside, rfl⟩

theorem mem_entry_faults (i : Nat) (entries : List (Yaml × Yaml)) (position : Position) (e : StructuralError) :
    (position, e) ∈ entryFaults path i entries ↔ ∃ j key value, entries[j]? = some (key, value) ∧
      EntryFault path (i + j) key value position e := by
  induction entries generalizing i with
  | nil => simp [entryFaults]
  | cons head rest ih =>
    obtain ⟨k, v⟩ := head
    rw [mem_entry_faults_cons, ih]
    constructor
    · rintro (first | ⟨j, key, value, here, later⟩)
      · exact ⟨0, k, v, rfl, first⟩
      · have shifted : i + 1 + j = i + (j + 1) := by omega
        exact ⟨j + 1, key, value, here, shifted ▸ later⟩
    · rintro ⟨j, key, value, here, found⟩
      cases j with
      | zero =>
        obtain ⟨rfl, rfl⟩ := Prod.mk.inj (Option.some.inj here)
        exact .inl found
      | succ j =>
        have shifted : i + (j + 1) = i + 1 + j := by omega
        exact .inr ⟨j, key, value, here, shifted ▸ found⟩

end Listed

theorem fault_of_mem (path : String) (value : Yaml) (position : Position) (e : StructuralError)
    (member : (position, e) ∈ faults path value) : Fault path value position e := by
  induction position generalizing path value with
  | nil =>
    cases value with
    | number n =>
      by_cases finite : n.isFinite
      · simp [faults, finite] at member
      · simp only [faults, finite, Bool.false_eq_true, if_false, List.mem_singleton, Prod.mk.injEq, true_and] at member
        exact member ▸ .number path n (by simpa using finite)
    | tagged tag inner =>
      obtain ⟨-, rfl⟩ := Prod.mk.inj (List.mem_singleton.mp member)
      exact .tag path tag inner
    | mapping entries =>
      obtain ⟨j, key, value, -, ⟨-, same, -⟩ | ⟨_, _, -, same, -⟩⟩ := (mem_entry_faults _ _ _ _ _).mp member
      · simp at same
      · simp at same
    | sequence items =>
      obtain ⟨j, item, below, -, same, -⟩ := (mem_item_faults _ _ _ _ _).mp member
      simp at same
    | _ => exact absurd member List.not_mem_nil
  | cons offset below ih =>
    cases value with
    | mapping entries =>
      obtain ⟨j, key, value, here, found⟩ := (mem_entry_faults _ _ _ _ _).mp member
      rw [Nat.zero_add] at found
      rcases found with ⟨nameless, same, rfl⟩ | ⟨name, rest, named, same, inside⟩
      · exact same ▸ .key here ((key_text_none_iff key).mp nameless)
      · obtain ⟨rfl, rfl⟩ := List.cons.inj same
        exact .entry here ((key_text_some_iff key name).mp named) (ih _ value inside)
    | sequence items =>
      obtain ⟨j, item, rest, here, same, inside⟩ := (mem_item_faults _ _ _ _ _).mp member
      rw [Nat.zero_add] at same inside
      obtain ⟨rfl, rfl⟩ := List.cons.inj same
      exact .item here (ih _ item inside)
    | number n =>
      by_cases finite : n.isFinite <;> simp [faults, finite] at member
    | tagged tag inner => simp [faults] at member
    | _ => exact absurd member List.not_mem_nil

theorem mem_of_fault (path : String) (value : Yaml) (position : Position) (e : StructuralError)
    (fault : Fault path value position e) : (position, e) ∈ faults path value := by
  induction fault with
  | tag path tag value => exact List.mem_singleton_self _
  | number path n endless => simp [faults, endless]
  | key here nameless =>
    refine (mem_entry_faults _ _ _ _ _).mpr ⟨_, _, _, here, ?_⟩
    exact .inl ⟨(key_text_none_iff _).mpr nameless, by rw [Nat.zero_add], rfl⟩
  | entry here named _ ih =>
    refine (mem_entry_faults _ _ _ _ _).mpr ⟨_, _, _, here, ?_⟩
    exact .inr ⟨_, _, (key_text_some_iff _ _).mpr named, by rw [Nat.zero_add], ih⟩
  | item here _ ih =>
    refine (mem_item_faults _ _ _ _ _).mpr ⟨_, _, _, here, by rw [Nat.zero_add], ?_⟩
    rwa [Nat.zero_add]

theorem mem_faults_iff (path : String) (value : Yaml) (position : Position) (e : StructuralError) :
    (position, e) ∈ faults path value ↔ Fault path value position e :=
  ⟨fault_of_mem path value position e, mem_of_fault path value position e⟩

theorem under_rises (offset : Offset) (found : List (Position × StructuralError))
    (rises : found.Pairwise fun a b => Position.Before a.1 b.1) :
    (found.map (under offset)).Pairwise fun a b => Position.Before a.1 b.1 := by
  rw [List.pairwise_map]
  exact rises.imp fun before => .cons before

mutual
theorem faults_rise (path : String) (value : Yaml) :
    (faults path value).Pairwise fun a b => Position.Before a.1 b.1 := by
  cases value with
  | mapping entries => exact entry_faults_rise path 0 entries
  | sequence items => exact item_faults_rise path 0 items
  | number n =>
    by_cases finite : n.isFinite <;> simp [faults, finite]
  | tagged tag inner => exact List.pairwise_singleton _ _
  | _ => exact .nil

theorem item_faults_rise (path : String) (i : Nat) (items : List Yaml) :
    (itemFaults path i items).Pairwise fun a b => Position.Before a.1 b.1 := by
  cases items with
  | nil => exact .nil
  | cons item rest =>
    refine List.pairwise_append.mpr
      ⟨under_rises _ _ (faults_rise _ item), item_faults_rise path (i + 1) rest, ?_⟩
    rintro a first ⟨position, e⟩ second
    obtain ⟨front, -, rfl⟩ := List.mem_map.mp first
    obtain ⟨j, other, below, -, rfl, -⟩ := (mem_item_faults _ _ _ _ _).mp second
    have less : i < i + 1 + j := by omega
    exact .rel less

-- A nameless key has no fault of its value beside it, so its own one comes before all later entries.
theorem entry_faults_rise (path : String) (i : Nat) (entries : List (Yaml × Yaml)) :
    (entryFaults path i entries).Pairwise fun a b => Position.Before a.1 b.1 := by
  cases entries with
  | nil => exact .nil
  | cons head rest =>
    obtain ⟨key, value⟩ := head
    have later := entry_faults_rise path (i + 1) rest
    cases named : Tree.keyText? key with
    | none =>
      rw [entry_faults_nameless path i key value rest named, List.pairwise_cons]
      refine ⟨?_, later⟩
      rintro ⟨position, e⟩ second
      obtain ⟨j, k, v, -, ⟨-, rfl, -⟩ | ⟨-, -, -, rfl, -⟩⟩ := (mem_entry_faults _ _ _ _ _).mp second
      · have less : i < i + 1 + j := by omega
        exact .rel less
      · have less : i ≤ i + 1 + j := by omega
        exact .rel less
    | some name =>
      rw [entry_faults_named path i key value rest name named]
      refine List.pairwise_append.mpr ⟨under_rises _ _ (faults_rise _ value), later, ?_⟩
      rintro a first ⟨position, e⟩ second
      obtain ⟨front, -, rfl⟩ := List.mem_map.mp first
      have less (j : Nat) : i < i + 1 + j := by omega
      obtain ⟨j, k, v, -, ⟨-, rfl, -⟩ | ⟨-, -, -, rfl, -⟩⟩ := (mem_entry_faults _ _ _ _ _).mp second
      · exact .rel (less j)
      · exact .rel (less j)
end

mutual
theorem faults_nil_iff (path : String) (value : Yaml) : faults path value = [] ↔ value.Expressible := by
  cases value with
  | mapping entries =>
    rw [expressible_mapping_iff]
    exact entry_faults_nil_iff path 0 entries
  | sequence items =>
    rw [expressible_sequence_iff]
    exact item_faults_nil_iff path 0 items
  | number n =>
    rw [expressible_number_iff]
    by_cases finite : n.isFinite <;> simp [faults, finite]
  | tagged tag inner =>
    refine iff_of_false (by simp [faults]) fun expressible => ?_
    exact expressible _ (.itself _) trivial
  | _ =>
    refine iff_of_true rfl ?_
    rintro inner (_ | _)
    exact id

theorem item_faults_nil_iff (path : String) (i : Nat) (items : List Yaml) :
    itemFaults path i items = [] ↔ ∀ item ∈ items, item.Expressible := by
  cases items with
  | nil => simp [itemFaults]
  | cons item rest =>
    rw [itemFaults, List.append_eq_nil_iff, List.map_eq_nil_iff, List.forall_mem_cons]
    exact and_congr (faults_nil_iff _ item) (item_faults_nil_iff path (i + 1) rest)

theorem entry_faults_nil_iff (path : String) (i : Nat) (entries : List (Yaml × Yaml)) :
    entryFaults path i entries = [] ↔ ∀ entry ∈ entries, ¬ Nameless entry.1 ∧ entry.2.Expressible := by
  cases entries with
  | nil => simp [entryFaults]
  | cons head rest =>
    obtain ⟨key, value⟩ := head
    rw [List.forall_mem_cons, ← entry_faults_nil_iff path (i + 1) rest, ← key_text_none_iff]
    cases named : Tree.keyText? key with
    | none => simp [entry_faults_nameless path i key value rest named]
    | some name =>
      rw [entry_faults_named path i key value rest name named, List.append_eq_nil_iff, List.map_eq_nil_iff,
        faults_nil_iff _ value]
      simp
end

def first? (found : List (Position × StructuralError)) : Option StructuralError := found.head?.map Prod.snd

theorem first_append (a b : List (Position × StructuralError)) : first? (a ++ b) = (first? a).or (first? b) := by
  rw [first?, List.head?_append, Option.map_or]
  rfl

theorem first_under (offset : Offset) (found : List (Position × StructuralError)) :
    first? (found.map (under offset)) = first? found := by
  rw [first?, List.head?_map, Option.map_map]
  rfl

theorem first_iff (found : List (Position × StructuralError))
    (rises : found.Pairwise fun a b => Position.Before a.1 b.1) (e : StructuralError) :
    first? found = some e ↔ ∃ position, (position, e) ∈ found ∧
      ∀ other f, (other, f) ∈ found → (other, f) = (position, e) ∨ Position.Before position other := by
  cases found with
  | nil => simp [first?]
  | cons head rest =>
    obtain ⟨least, first⟩ := head
    obtain ⟨above, -⟩ := List.pairwise_cons.mp rises
    constructor
    · intro same
      obtain rfl : first = e := Option.some.inj same
      refine ⟨least, List.mem_cons_self, fun other f member => ?_⟩
      exact (List.mem_cons.mp member).imp id fun inRest => above (other, f) inRest
    · rintro ⟨position, member, before⟩
      rcases List.mem_cons.mp member with same | inRest
      · obtain ⟨-, rfl⟩ := Prod.mk.inj same
        rfl
      · have less := above (position, e) inRest
        rcases before least first List.mem_cons_self with same | more
        · obtain ⟨-, rfl⟩ := Prod.mk.inj same
          rfl
        · exact absurd more (Position.before_asymm _ _ less)

theorem first_fault_iff (path : String) (value : Yaml) (e : StructuralError) :
    first? (faults path value) = some e ↔ value.FirstFault path e := by
  rw [first_iff _ (faults_rise path value)]
  simp only [mem_faults_iff, FirstFault]

end Yaml

end ManifestSecrets
