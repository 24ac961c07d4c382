import ManifestSecrets.Proofs.Document

set_option autoImplicit false

namespace ManifestSecrets

theorem KeyMap.forall_map_values {α β : Type} (f : α → β) (entries : KeyMap α) (p : String × β → Prop) :
    (∀ entry ∈ mapValues f entries, p entry) ↔ ∀ entry ∈ entries, p (entry.1, f entry.2) := by
  rw [mapValues, List.forall_mem_map]

namespace Json

def child? : PathStep → Json → Option Json
  | .key name, .object fields => KeyMap.find? name fields
  | .index i, .array items => items[i]?
  | _, _ => none

def at? : Path → Json → Option Json
  | [], value => some value
  | step :: rest, value => (child? step value).bind (at? rest)

def isScalar : Json → Bool
  | .text _ => true
  | .number _ => true
  | .bool _ => true
  | _ => false

theorem null_childless (step : PathStep) : child? step .null = none := by
  cases step <;> rfl

theorem object_nil_childless (step : PathStep) : child? step (.object []) = none := by
  cases step <;> rfl

theorem array_nil_childless (step : PathStep) : child? step (.array []) = none := by
  cases step <;> rfl

theorem childless_at (value : Json) (container : value.isScalar = false) (childless : ∀ step, value.child? step = none)
    (path : Path) (leaf : Json) (here : value.at? path = some leaf) : leaf.isScalar = false := by
  cases path with
  | nil =>
    obtain rfl := Option.some.inj here
    exact container
  | cons step rest => simp [at?, childless step] at here

def EachLeaf (p : Tree → Prop) (value : Json) : Prop := (Tree.ofJson value).EachLeaf p

theorem each_leaf_object (p : Tree → Prop) (fields : KeyMap Json) :
    EachLeaf p (.object fields) ↔ ∀ entry ∈ fields, EachLeaf p entry.2 := by
  rw [EachLeaf, Tree.ofJson, Tree.each_leaf_mapping, Tree.entries_of_json, KeyMap.forall_map_values]
  rfl

theorem each_leaf_array (p : Tree → Prop) (items : List Json) :
    EachLeaf p (.array items) ↔ ∀ item ∈ items, EachLeaf p item := by
  rw [EachLeaf, Tree.ofJson, Tree.each_leaf_sequence, Tree.items_of_json, List.forall_mem_map]
  rfl

end Json

namespace Tree

theorem to_json_child (step : PathStep) (t : Tree) : t.toJson.child? step = (t.child? step).map toJson := by
  cases t with
  | mapping entries =>
    cases step with
    | key name => rw [toJson, Json.child?, child?, entries_to_json, KeyMap.find_map_values]
    | index i => rfl
  | sequence items =>
    cases step with
    | key name => rfl
    | index i => rw [toJson, Json.child?, child?, items_to_json, List.getElem?_map]
  | _ => cases step <;> rfl

theorem to_json_at (path : Path) (t : Tree) : t.toJson.at? path = (t.at? path).map toJson := by
  induction path generalizing t with
  | nil => rfl
  | cons step rest ih =>
    rw [Json.at?, at?, to_json_child]
    cases t.child? step with
    | none => rfl
    | some child => exact ih child

end Tree

end ManifestSecrets
