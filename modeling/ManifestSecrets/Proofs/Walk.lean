import ManifestSecrets.Proofs.Tree.Leaves

set_option autoImplicit false

namespace ManifestSecrets.Tree

variable (policy : Policy) (secrets : SecretMap)

structure Rewritten (key : String) (before after : Tree) : Prop where
  text : ∀ path s, before.at? path = some (.text s) →
    after.at? path = some (policy.replace (fieldKey key path) s secrets).value
  leaf : ∀ path leaf, before.at? path = some leaf → leaf.isLeaf = true → leaf.text? = none →
    after.at? path = some leaf
  mapping : ∀ path entries, before.at? path = some (.mapping entries) →
    ∃ filled, after.at? path = some (.mapping filled) ∧ KeyMap.keys filled = KeyMap.keys entries
  sequence : ∀ path items, before.at? path = some (.sequence items) →
    ∃ filled, after.at? path = some (.sequence filled) ∧ filled.length = items.length

def textErrors (key : String) (found : List (Path × String)) : List ReplacementError :=
  found.flatMap fun (path, s) => (policy.replace (fieldKey key path) s secrets).errors

def walkedLeaves (key : String) (found : List (Path × Tree)) : List (Path × Tree) :=
  found.flatMap fun (path, leaf) =>
    (walk policy secrets (fieldKey key path) leaf).value.leaves.map (within path)

theorem text_errors_append (key : String) (a b : List (Path × String)) :
    textErrors policy secrets key (a ++ b) = textErrors policy secrets key a ++ textErrors policy secrets key b :=
  List.flatMap_append

theorem text_errors_within (key : String) (step : PathStep) (found : List (Path × String)) :
    textErrors policy secrets key (found.map fun (p, s) => ([step] ++ p, s)) =
      textErrors policy secrets (stepKey key step) found := by
  simp only [textErrors, List.flatMap_map]
  rfl

theorem walked_leaves_append (key : String) (a b : List (Path × Tree)) :
    walkedLeaves policy secrets key (a ++ b) =
      walkedLeaves policy secrets key a ++ walkedLeaves policy secrets key b :=
  List.flatMap_append

theorem walked_leaves_within (key : String) (step : PathStep) (found : List (Path × Tree)) :
    walkedLeaves policy secrets key (found.map (within [step])) =
      (walkedLeaves policy secrets (stepKey key step) found).map (within [step]) := by
  simp only [walkedLeaves, List.flatMap_map, List.map_flatMap, List.map_map]
  rfl

mutual
theorem walk_errors (key : String) (t : Tree) :
    (walk policy secrets key t).errors = textErrors policy secrets key t.texts := by
  cases t with
  | mapping entries => exact walk_entries_errors key entries
  | sequence items => exact walk_items_errors key 0 items
  | text s => simp [walk, textErrors, texts, textsOf, leaves, text?, fieldKey]
  | _ => rfl

theorem walk_items_errors (key : String) (i : Nat) (items : List Tree) :
    (walkItems policy secrets key i items).errors = textErrors policy secrets key (textsOf (itemLeaves i items)) := by
  cases items with
  | nil => rfl
  | cons item rest =>
    rw [itemLeaves, texts_of_append, texts_of_within, text_errors_append, text_errors_within,
      ← walk_items_errors key (i + 1) rest]
    exact congrArg (· ++ _) (walk_errors (indexedKey key i) item)

-- The key given from outside does not count, since each path starts with a key of its own.
theorem walk_entries_errors (key : String) (entries : List (String × Tree)) :
    (walkEntries policy secrets entries).errors = textErrors policy secrets key (textsOf (entryLeaves entries)) := by
  cases entries with
  | nil => rfl
  | cons head rest =>
    obtain ⟨name, value⟩ := head
    rw [entryLeaves, texts_of_append, texts_of_within, text_errors_append, text_errors_within,
      ← walk_entries_errors key rest]
    exact congrArg (· ++ _) (walk_errors name value)
end

mutual
theorem walk_leaves (key : String) (t : Tree) :
    (walk policy secrets key t).value.leaves = walkedLeaves policy secrets key t.leaves := by
  have alone (leaf : Tree) : walkedLeaves policy secrets key [([], leaf)] =
      (walk policy secrets key leaf).value.leaves := by
    rw [walkedLeaves, List.flatMap_singleton]
    exact List.map_id _
  cases t with
  | mapping entries => exact walk_entries_leaves key entries
  | sequence items => exact walk_items_leaves key 0 items
  | _ => exact (alone _).symm

theorem walk_items_leaves (key : String) (i : Nat) (items : List Tree) :
    itemLeaves i (walkItems policy secrets key i items).value = walkedLeaves policy secrets key (itemLeaves i items) := by
  cases items with
  | nil => rfl
  | cons item rest =>
    have first := walk_leaves (indexedKey key i) item
    rw [itemLeaves, walked_leaves_append, walked_leaves_within, stepKey, ← first,
      ← walk_items_leaves key (i + 1) rest]
    rfl

theorem walk_entries_leaves (key : String) (entries : List (String × Tree)) :
    entryLeaves (walkEntries policy secrets entries).value = walkedLeaves policy secrets key (entryLeaves entries) := by
  cases entries with
  | nil => rfl
  | cons head rest =>
    obtain ⟨name, value⟩ := head
    have first := walk_leaves name value
    rw [entryLeaves, walked_leaves_append, walked_leaves_within, stepKey, ← first,
      ← walk_entries_leaves key rest]
    rfl
end

theorem walk_leaf (key : String) (leaf : Tree) (ends : leaf.isLeaf = true) (other : leaf.text? = none) :
    walk policy secrets key leaf = .pure leaf := by
  cases leaf with
  | mapping entries => simp [isLeaf] at ends
  | sequence items => simp [isLeaf] at ends
  | text s => simp [text?] at other
  | _ => rfl

theorem mem_walked_leaves_iff (key : String) (t : Tree) (found : Path × Tree) :
    found ∈ (walk policy secrets key t).value.leaves ↔
      (found ∈ t.leaves ∧ found.2.text? = none) ∨
        ∃ path s, (path, s) ∈ t.texts ∧
          ∃ inner ∈ (policy.replace (fieldKey key path) s secrets).value.leaves, found = within path inner := by
  rw [walk_leaves, walkedLeaves, List.mem_flatMap]
  constructor
  · rintro ⟨⟨path, leaf⟩, member, inside⟩
    obtain ⟨inner, below, rfl⟩ := List.mem_map.mp inside
    cases text : leaf.text? with
    | none =>
      have ends := leaves_end t _ member
      rw [walk_leaf policy secrets _ leaf ends text, Walked.pure, leaf_leaves leaf ends, List.mem_singleton] at below
      rw [below, within, List.append_nil]
      exact .inl ⟨member, text⟩
    | some s =>
      obtain rfl : leaf = .text s := by cases leaf <;> simp_all [text?]
      exact .inr ⟨path, s, (mem_texts_of _ _ _).mpr member, inner, below, rfl⟩
  · rintro (⟨member, other⟩ | ⟨path, s, member, inner, below, rfl⟩)
    · have ends := leaves_end t _ member
      refine ⟨found, member, List.mem_map.mpr ⟨([], found.2), ?_, by rw [within, List.append_nil]⟩⟩
      rw [walk_leaf policy secrets _ found.2 ends other, Walked.pure, leaf_leaves found.2 ends]
      exact List.mem_singleton_self _
    · exact ⟨(path, .text s), (mem_texts_of _ _ _).mp member, List.mem_map_of_mem below⟩

theorem walk_entries_keys (entries : List (String × Tree)) :
    KeyMap.keys (walkEntries policy secrets entries).value = KeyMap.keys entries := by
  induction entries with
  | nil => rfl
  | cons head rest ih =>
    obtain ⟨name, value⟩ := head
    exact congrArg (name :: ·) ih

theorem walk_items_length (key : String) (i : Nat) (items : List Tree) :
    (walkItems policy secrets key i items).value.length = items.length := by
  induction items generalizing i with
  | nil => rfl
  | cons item rest ih => exact congrArg (· + 1) (ih (i + 1))

theorem walk_entries_find (name : String) (entries : List (String × Tree)) :
    KeyMap.find? name (walkEntries policy secrets entries).value =
      (KeyMap.find? name entries).map fun value => (walk policy secrets name value).value := by
  induction entries with
  | nil => rfl
  | cons head rest ih =>
    obtain ⟨key, value⟩ := head
    by_cases same : name = key
    · simp [walkEntries, Walked.both, KeyMap.find?, same]
    · simpa [walkEntries, Walked.both, KeyMap.find?, same] using ih

theorem walk_items_get (key : String) (i j : Nat) (items : List Tree) :
    (walkItems policy secrets key i items).value[j]? =
      items[j]?.map fun item => (walk policy secrets (indexedKey key (i + j)) item).value := by
  induction items generalizing i j with
  | nil => rfl
  | cons item rest ih =>
    cases j with
    | zero => rfl
    | succ j =>
      have shifted : i + 1 + j = i + (j + 1) := by omega
      simpa [walkItems, Walked.both, shifted] using ih (i + 1) j

theorem walk_child (key : String) (step : PathStep) (t child : Tree) (isChild : child? step t = some child) :
    child? step (walk policy secrets key t).value = some (walk policy secrets (stepKey key step) child).value := by
  cases t with
  | mapping entries =>
    cases step with
    | key name =>
      simp only [child?] at isChild
      simp [walk, Walked.map, child?, walk_entries_find, isChild, stepKey]
    | index i => simp [child?] at isChild
  | sequence items =>
    cases step with
    | key name => simp [child?] at isChild
    | index i =>
      simp only [child?] at isChild
      simp [walk, Walked.map, child?, walk_items_get, isChild, stepKey]
  | _ => simp [child?] at isChild

theorem walk_at (key : String) (path : Path) (t found : Tree) (here : t.at? path = some found) :
    (walk policy secrets key t).value.at? path = some (walk policy secrets (fieldKey key path) found).value := by
  induction path generalizing key t with
  | nil =>
    obtain rfl : t = found := by simpa [at?] using here
    rfl
  | cons step rest ih =>
    obtain ⟨child, isChild, below⟩ := Option.bind_eq_some_iff.mp here
    rw [at?, walk_child policy secrets key step t child isChild, Option.bind_some, ih _ child below]
    rfl

theorem walk_rewritten (key : String) (t : Tree) : Rewritten policy secrets key t (walk policy secrets key t).value where
  text path s here := walk_at policy secrets key path t _ here
  leaf path leaf here ends other := by
    rw [walk_at policy secrets key path t leaf here, walk_leaf policy secrets _ leaf ends other]
    rfl
  mapping path entries here :=
    ⟨_, walk_at policy secrets key path t _ here, walk_entries_keys policy secrets entries⟩
  sequence path items here :=
    ⟨_, walk_at policy secrets key path t _ here, walk_items_length policy secrets _ 0 items⟩

end ManifestSecrets.Tree
