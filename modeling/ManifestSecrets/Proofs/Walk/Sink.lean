import ManifestSecrets.Proofs.Placeholder.Resolve
import ManifestSecrets.Proofs.Walk

set_option autoImplicit false

namespace ManifestSecrets

def Walked.after {α : Type} (sink : List ReplacementError) (w : Walked α) : Walked α :=
  ⟨w.value, sink ++ w.errors, w.visited⟩

namespace Tree

mutual
-- Each part gets the errors of all parts before it and hands them on with its own.
def walkInto (policy : Policy) (secrets : SecretMap) (key : String) (sink : List ReplacementError) :
    Tree → Walked Tree
  | .mapping entries => (walkEntriesInto policy secrets sink entries).map .mapping
  | .sequence items => (walkItemsInto policy secrets key 0 sink items).map .sequence
  | .text s =>
      let r := policy.replace key s secrets
      ⟨r.value, sink ++ r.errors, 1⟩
  | .bytes b => ⟨.bytes b, sink, 0⟩
  | .null => ⟨.null, sink, 0⟩
  | .bool b => ⟨.bool b, sink, 0⟩
  | .number n => ⟨.number n, sink, 0⟩

def walkItemsInto (policy : Policy) (secrets : SecretMap) (key : String) (index : Nat)
    (sink : List ReplacementError) : List Tree → Walked (List Tree)
  | [] => ⟨[], sink, 0⟩
  | item :: rest =>
      let first := walkInto policy secrets (indexedKey key index) sink item
      let later := walkItemsInto policy secrets key (index + 1) first.errors rest
      ⟨first.value :: later.value, later.errors, first.visited + later.visited⟩

def walkEntriesInto (policy : Policy) (secrets : SecretMap) (sink : List ReplacementError) :
    List (String × Tree) → Walked (List (String × Tree))
  | [] => ⟨[], sink, 0⟩
  | (key, value) :: rest =>
      let first := walkInto policy secrets key sink value
      let later := walkEntriesInto policy secrets first.errors rest
      ⟨(key, first.value) :: later.value, later.errors, first.visited + later.visited⟩
end

def BelowKey (path : Path) (name : String) (indexes : List Nat) : Prop :=
  ∃ front, path = front ++ .key name :: indexes.map .index

def bracketed (index : Nat) : String := "[" ++ toString index ++ "]"

variable (policy : Policy) (secrets : SecretMap)

mutual
theorem walk_into_after (key : String) (sink : List ReplacementError) (t : Tree) :
    walkInto policy secrets key sink t = (walk policy secrets key t).after sink := by
  cases t with
  | mapping entries =>
    rw [walkInto, walk_entries_into_after sink entries]
    rfl
  | sequence items =>
    rw [walkInto, walk_items_into_after key 0 sink items]
    rfl
  | text s => rfl
  | _ => simp [walkInto, walk, Walked.after, Walked.pure]

theorem walk_items_into_after (key : String) (i : Nat) (sink : List ReplacementError) (items : List Tree) :
    walkItemsInto policy secrets key i sink items = (walkItems policy secrets key i items).after sink := by
  cases items with
  | nil => simp [walkItemsInto, walkItems, Walked.after, Walked.pure]
  | cons item rest =>
    have first := walk_into_after (indexedKey key i) sink item
    have later := fun errors => walk_items_into_after key (i + 1) errors rest
    simp only [walkItemsInto, first, later, walkItems, Walked.after, Walked.both, List.append_assoc]

theorem walk_entries_into_after (sink : List ReplacementError) (entries : List (String × Tree)) :
    walkEntriesInto policy secrets sink entries = (walkEntries policy secrets entries).after sink := by
  cases entries with
  | nil => simp [walkEntriesInto, walkEntries, Walked.after, Walked.pure]
  | cons head rest =>
    obtain ⟨name, value⟩ := head
    have first := walk_into_after name sink value
    have later := fun errors => walk_entries_into_after errors rest
    simp only [walkEntriesInto, first, later, walkEntries, Walked.after, Walked.both, List.append_assoc]
end

theorem field_key_append (key : String) (front rest : Path) :
    fieldKey key (front ++ rest) = fieldKey (fieldKey key front) rest :=
  List.foldl_append

theorem field_key_indexes (key : String) (indexes : List Nat) :
    fieldKey key (indexes.map .index) = key ++ String.join (indexes.map bracketed) := by
  induction indexes generalizing key with
  | nil => simp [fieldKey]
  | cons i rest ih =>
    have step : fieldKey key (.index i :: rest.map .index) = fieldKey (indexedKey key i) (rest.map .index) := rfl
    rw [List.map_cons, List.map_cons, String.join_cons, step, ih, indexedKey, bracketed]
    simp only [String.append_assoc]

theorem field_key_below (key name : String) (path : Path) (indexes : List Nat)
    (below : BelowKey path name indexes) : fieldKey key path = name ++ String.join (indexes.map bracketed) := by
  obtain ⟨front, same⟩ := below
  have step (k : String) : fieldKey k (.key name :: indexes.map .index) = fieldKey name (indexes.map .index) := rfl
  rw [same, field_key_append, step, field_key_indexes]

-- The induction is on what is left of the path; `passed` are the indexes since the last key.
theorem below_some_key (last : String) (passed : List Nat) (path : Path) :
    ∃ name indexes, BelowKey (.key last :: passed.map .index ++ path) name indexes := by
  induction path generalizing last passed with
  | nil => exact ⟨last, passed, [], by simp⟩
  | cons step rest ih =>
    cases step with
    | key name =>
      obtain ⟨deeper, indexes, front, same⟩ := ih name []
      refine ⟨deeper, indexes, .key last :: passed.map .index ++ front, ?_⟩
      rw [List.append_assoc, ← same]
      simp
    | index i =>
      obtain ⟨deeper, indexes, front, same⟩ := ih last (passed ++ [i])
      refine ⟨deeper, indexes, front, ?_⟩
      rw [← same]
      simp

theorem mapping_text_below (entries : List (String × Tree)) (path : Path) (s : String)
    (here : (Tree.mapping entries).at? path = some (.text s)) : ∃ name indexes, BelowKey path name indexes := by
  cases path with
  | nil => simp [at?] at here
  | cons step rest =>
    cases step with
    | key name => exact below_some_key name [] rest
    | index i => simp [at?, child?] at here

mutual
theorem walk_visited (key : String) (t : Tree) : (walk policy secrets key t).visited = t.texts.length := by
  cases t with
  | mapping entries => exact walk_entries_visited entries
  | sequence items => exact walk_items_visited key 0 items
  | _ => rfl

theorem walk_items_visited (key : String) (i : Nat) (items : List Tree) :
    (walkItems policy secrets key i items).visited = (textsOf (itemLeaves i items)).length := by
  cases items with
  | nil => rfl
  | cons item rest =>
    rw [itemLeaves, texts_of_append, texts_of_within, List.length_append, List.length_map,
      ← walk_items_visited key (i + 1) rest]
    exact congrArg (· + _) (walk_visited (indexedKey key i) item)

theorem walk_entries_visited (entries : List (String × Tree)) :
    (walkEntries policy secrets entries).visited = (textsOf (entryLeaves entries)).length := by
  cases entries with
  | nil => rfl
  | cons head rest =>
    obtain ⟨name, value⟩ := head
    rw [entryLeaves, texts_of_append, texts_of_within, List.length_append, List.length_map,
      ← walk_entries_visited rest]
    exact congrArg (· + _) (walk_visited name value)
end

theorem walk_into_rewrites (entries : KeyMap Tree) (ordered : (Tree.mapping entries).Ordered)
    (sink : List ReplacementError) :
    walkEntriesInto policy secrets sink entries = (walkEntries policy secrets entries).after sink ∧
      Rewritten policy secrets "" (.mapping entries) (.mapping (walkEntries policy secrets entries).value) ∧
      (walkEntries policy secrets entries).errors = (Tree.mapping entries).texts.flatMap (fun (path, s) =>
        (policy.replace (fieldKey "" path) s secrets).errors) ∧
      (walkEntries policy secrets entries).visited = (Tree.mapping entries).texts.length ∧
      (Tree.mapping entries).texts.Pairwise (fun a b => Path.Before a.1 b.1) ∧
      (∀ path s, (path, s) ∈ (Tree.mapping entries).texts ↔ (Tree.mapping entries).at? path = some (.text s)) ∧
      ∀ path s, (Tree.mapping entries).at? path = some (.text s) → ∃ name indexes, BelowKey path name indexes ∧
        fieldKey "" path = name ++ String.join (indexes.map bracketed) := by
  refine ⟨walk_entries_into_after policy secrets sink entries, walk_rewritten policy secrets "" (.mapping entries),
    walk_entries_errors policy secrets "" entries, walk_entries_visited policy secrets entries,
    texts_rise _ ordered, mem_texts_iff _ ordered, ?_⟩
  intro path s here
  obtain ⟨name, indexes, below⟩ := mapping_text_below entries path s here
  exact ⟨name, indexes, below, field_key_below "" name path indexes below⟩

def nestedPlaceholders : KeyMap Tree :=
  [("args", .sequence [.null, .sequence [.text "--verbose", .text "<a>"]]),
    ("env", .mapping [("raw", .bytes [60, 97, 62]), ("settings", .text "<b>")])]

theorem walk_into_rewrites_nested :
    (Tree.mapping nestedPlaceholders).Ordered ∧
      (walkEntriesInto .generic [("b", .object [("c", .text "<a>")])] [.missingPlaceholder "name" "<k>" "k"]
        nestedPlaceholders).errors =
          [.missingPlaceholder "name" "<k>" "k", .missingPlaceholder "args[1][1]" "<a>" "a"] ∧
      (walkEntriesInto .generic [("b", .object [("c", .text "<a>")])] [.missingPlaceholder "name" "<k>" "k"]
        nestedPlaceholders).visited = 3 ∧
      (Tree.mapping (walkEntriesInto .generic [("b", .object [("c", .text "<a>")])]
        [.missingPlaceholder "name" "<k>" "k"] nestedPlaceholders).value).at? [.key "env", .key "settings"] =
          some (.mapping [("c", .text "<a>")]) := by
  have ordered : (Tree.mapping nestedPlaceholders).Ordered := by
    simp only [nestedPlaceholders, Ordered, EntriesOrdered, ItemsOrdered, KeyMap.Ordered]
    decide
  have whole : Placeholder.Whole [("b", .object [("c", .text "<a>")])] (Placeholder.cut "<b>".toList)
      (.object [("c", .text "<a>")]) :=
    ⟨by simp, ['b'], "b", by decide +kernel, (Placeholder.names_iff _ _).mpr (by decide +kernel), rfl⟩
  obtain ⟨into, rewritten, errors, visited, -⟩ := walk_into_rewrites .generic
    [("b", .object [("c", .text "<a>")])] nestedPlaceholders ordered [.missingPlaceholder "name" "<k>" "k"]
  have filled := rewritten.text [.key "env", .key "settings"] "<b>" rfl
  rw [Policy.replace, Placeholder.resolve_whole _ _ _ _ whole] at filled
  rw [into, Walked.after, errors, visited]
  exact ⟨ordered, by decide +kernel, by decide +kernel, filled⟩

end Tree

end ManifestSecrets
