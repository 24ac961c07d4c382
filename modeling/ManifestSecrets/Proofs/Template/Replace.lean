import ManifestSecrets.Proofs.Template.Subtrees

set_option autoImplicit false

namespace ManifestSecrets

namespace Document

variable (secrets : SecretMap)

def Holds (d : Document) (name : String) (path : Path) (found : Tree) : Prop :=
  ∃ entries, d.root.find? name = some (.mapping entries) ∧ (Tree.mapping entries).at? path = some found

def Resolvable (d : Document) (name : String) (policy : Policy) : Prop :=
  ∀ path s, d.Holds name path (.text s) → ¬ policy.Unresolved secrets s

-- The eligible ones of some sub-trees are rewritten, and no other field of the root changes.
structure Rewritten (subtrees : List (String × Policy)) (before after : Document) : Prop where
  filled : ∀ name policy entries, (name, policy) ∈ subtrees → before.root.find? name = some (.mapping entries) →
    ∃ walked, after.root.find? name = some (.mapping walked) ∧
      Tree.Rewritten policy secrets name (.mapping entries) (.mapping walked)
  kept : ∀ field, (∀ policy entries, (field, policy) ∈ subtrees → before.root.find? field ≠ some (.mapping entries)) →
    after.root.find? field = before.root.find? field

theorem mem_leaves_of_holds (d : Document) (name : String) (path : Path) (leaf : Tree)
    (held : d.Holds name path leaf) (ends : leaf.isLeaf = true) : (path, leaf) ∈ d.leaves name := by
  obtain ⟨entries, here, found⟩ := held
  rw [leaves_mapping d name entries here]
  exact Tree.mem_leaves_of_at _ path leaf found ends

theorem holds_of_mem_leaves (d : Document) (ordered : d.Ordered) (name : String) (path : Path) (leaf : Tree)
    (member : (path, leaf) ∈ d.leaves name) : d.Holds name path leaf := by
  rcases d.eligible_or_skipped name with ⟨entries, here⟩ | skipped
  · rw [leaves_mapping d name entries here] at member
    exact ⟨entries, here, Tree.at_of_mem_leaves _ (field_ordered d ordered name _ here) path leaf member⟩
  · rw [leaves_skipped d name skipped] at member
    exact absurd member List.not_mem_nil

theorem mem_texts_iff (d : Document) (ordered : d.Ordered) (name : String) (path : Path) (s : String) :
    (path, s) ∈ d.texts name ↔ d.Holds name path (.text s) := by
  rw [texts, Tree.mem_texts_of]
  exact ⟨holds_of_mem_leaves d ordered name path _, fun held => mem_leaves_of_holds d name path _ held rfl⟩

theorem unresolved_nil_iff (d : Document) (ordered : d.Ordered) (name : String) (policy : Policy) :
    d.unresolved secrets name policy = [] ↔ d.Resolvable secrets name policy := by
  simp only [unresolved_nil_iff_texts, Resolvable, mem_texts_iff d ordered]

theorem filled_all_rewritten (d : Document) (subtrees : List (String × Policy))
    (distinct : (subtrees.map Prod.fst).Nodup) : Rewritten secrets subtrees d (d.filledAll secrets subtrees) where
  filled name policy entries member here := by
    refine ⟨(Tree.walkEntries policy secrets entries).value, ?_, Tree.walk_rewritten policy secrets name _⟩
    rw [filled_all_find secrets d subtrees name policy distinct member, filled_find secrets d name policy entries here]
  kept field skipped := by
    by_cases named : field ∈ subtrees.map Prod.fst
    · obtain ⟨⟨name, policy⟩, member, rfl⟩ := List.mem_map.mp named
      rw [filled_all_find secrets d subtrees name policy distinct member,
        filled_skipped secrets d name policy fun entries => skipped policy entries member]
    · exact filled_all_find_other secrets d subtrees field named

end Document

namespace Template

theorem first_replacement (kind : Kind) (document : Document) (secrets : SecretMap)
    (declared : document.kind? = some kind.name) (ordered : document.Ordered) :
    ∃ t, create document secrets = .ok t ∧
      (t.replace.2.2 = .ok () ↔
        ∀ name policy, (name, policy) ∈ kind.subtrees → document.Resolvable secrets name policy) ∧
      (t.replace.2.2 = .ok () →
        t.replace.1.errors = [] ∧ document.Rewritten secrets kind.subtrees t.replace.1.document) ∧
      (∀ passed name policy later, kind.subtrees = passed ++ (name, policy) :: later →
        (∀ n p, (n, p) ∈ passed → document.Resolvable secrets n p) → ¬ document.Resolvable secrets name policy →
        t.replace.2.2 = .error (.replacement kind name (document.unresolved secrets name policy)) ∧
          t.replace.1.errors = document.unresolved secrets name policy ∧
          document.Rewritten secrets (passed ++ [(name, policy)]) t.replace.1.document) ∧
      (∀ name entries, document.root.find? name = some (.mapping entries) →
        (Tree.mapping entries).texts.Pairwise (fun a b => Path.Before a.1 b.1) ∧
          ∀ path s, (path, s) ∈ (Tree.mapping entries).texts ↔
            (Tree.mapping entries).at? path = some (.text s)) := by
  have resolvable := Document.unresolved_nil_iff secrets document ordered
  refine ⟨_, create_declared kind document secrets declared, ?_, ?_, ?_, ?_⟩
  · rw [replace_ok_iff]
    constructor
    · exact fun clear name policy member => (resolvable name policy).mp (clear _ member)
    · exact fun all subtree member => (resolvable _ _).mpr (all _ _ member)
  · intro succeeded
    obtain ⟨-, after⟩ := replace_clear _ ((replace_ok_iff _).mp succeeded)
    rw [after]
    exact ⟨rfl, Document.filled_all_rewritten secrets document _ (subtrees_distinct kind)⟩
  · intro passed name policy later order passedResolvable unresolvable
    have clear : ∀ subtree ∈ passed, document.unresolved secrets subtree.1 subtree.2 = [] :=
      fun subtree member => (resolvable _ _).mpr (passedResolvable _ _ member)
    have blocked : document.unresolved secrets name policy ≠ [] :=
      fun unread => unresolvable ((resolvable name policy).mp unread)
    obtain ⟨failed, after⟩ :=
      replace_blocked { kind, document, secrets } passed later name policy order clear blocked
    have distinct : ((passed ++ [(name, policy)]).map Prod.fst).Nodup := by
      have whole := subtrees_distinct kind
      rw [order, List.append_cons, List.map_append] at whole
      exact (List.nodup_append.mp whole).1
    rw [after]
    exact ⟨failed, rfl, Document.filled_all_rewritten secrets document _ distinct⟩
  · intro name entries here
    have inside := Document.field_ordered document ordered name _ here
    exact ⟨Tree.texts_rise _ inside, Tree.mem_texts_iff _ inside⟩

def unnamed : Document :=
  ⟨[("data", .mapping [("password", .text "<pw>")]), ("kind", .text "Secret"),
    ("metadata", .mapping [("labels", .sequence [.text "<a>-<b>-<a>"]), ("name", .text "<nope>")])]⟩

theorem first_replacement_unnamed :
    unnamed.kind? = some Kind.secret.name ∧ unnamed.Ordered ∧
      ∃ t, create unnamed [("b", .null), ("pw", .text "s3cr3t")] = .ok t ∧
        t.replace.2.2 = .error (.replacement .secret "metadata"
          [.missingPlaceholder "labels[0]" "<a>-<b>-<a>" "a", .missingPlaceholder "labels[0]" "<a>-<b>-<a>" "a",
            .missingPlaceholder "name" "<nope>" "nope"]) ∧
        t.replace.1.document.root.find? "data" = some (.mapping [("password", .text "<pw>")]) := by
  have declared : unnamed.kind? = some Kind.secret.name := by decide
  have ordered : unnamed.Ordered := by
    simp only [unnamed, Document.Ordered, Tree.Ordered, Tree.EntriesOrdered, Tree.ItemsOrdered, KeyMap.Ordered]
    decide
  have errors : unnamed.unresolved [("b", .null), ("pw", .text "s3cr3t")] "metadata" .generic =
      [.missingPlaceholder "labels[0]" "<a>-<b>-<a>" "a", .missingPlaceholder "labels[0]" "<a>-<b>-<a>" "a",
        .missingPlaceholder "name" "<nope>" "nope"] := by decide +kernel
  obtain ⟨t, created, -, -, blocked, -⟩ :=
    first_replacement .secret unnamed [("b", .null), ("pw", .text "s3cr3t")] declared ordered
  have unresolvable : ¬ unnamed.Resolvable [("b", .null), ("pw", .text "s3cr3t")] "metadata" .generic := by
    rw [← Document.unresolved_nil_iff _ _ ordered, errors]
    simp
  obtain ⟨failed, -, after⟩ := blocked [] "metadata" .generic _ rfl (by simp) unresolvable
  rw [errors] at failed
  exact ⟨declared, ordered, t, created, failed, after.kept "data" (by simp)⟩

end Template

end ManifestSecrets
