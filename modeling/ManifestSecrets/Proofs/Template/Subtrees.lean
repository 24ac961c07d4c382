import ManifestSecrets.Proofs.Document
import ManifestSecrets.Proofs.Policy
import ManifestSecrets.Proofs.Walk
import ManifestSecrets.Template

set_option autoImplicit false

namespace ManifestSecrets

namespace Document

-- A field that is no mapping is no sub-tree, so no leaves are found in it.
def leaves (d : Document) (name : String) : List (Path × Tree) :=
  match d.root.find? name with
  | some (.mapping entries) => (Tree.mapping entries).leaves
  | _ => []

def texts (d : Document) (name : String) : List (Path × String) := Tree.textsOf (d.leaves name)

def unresolved (secrets : SecretMap) (d : Document) (name : String) (policy : Policy) : List ReplacementError :=
  (d.texts name).flatMap fun (path, s) => policy.unresolved secrets (Tree.fieldKey name path) s

def filled (secrets : SecretMap) (d : Document) (name : String) (policy : Policy) : Document :=
  match d.root.find? name with
  | some (.mapping entries) => d.put name (.mapping (Tree.walkEntries policy secrets entries).value)
  | _ => d

def filledAll (secrets : SecretMap) (d : Document) (subtrees : List (String × Policy)) : Document :=
  subtrees.foldl (fun d subtree => d.filled secrets subtree.1 subtree.2) d

variable (secrets : SecretMap)

theorem eligible_or_skipped (d : Document) (name : String) :
    (∃ entries, d.root.find? name = some (.mapping entries)) ∨
      ∀ entries, d.root.find? name ≠ some (.mapping entries) := by
  by_cases eligible : ∃ entries, d.root.find? name = some (.mapping entries)
  · exact .inl eligible
  · exact .inr fun entries here => eligible ⟨entries, here⟩

theorem leaves_mapping (d : Document) (name : String) (entries : List (String × Tree))
    (here : d.root.find? name = some (.mapping entries)) : d.leaves name = (Tree.mapping entries).leaves := by
  rw [leaves, here]

theorem leaves_skipped (d : Document) (name : String)
    (skipped : ∀ entries, d.root.find? name ≠ some (.mapping entries)) : d.leaves name = [] := by
  unfold leaves
  split
  next entries here => exact absurd here (skipped entries)
  next => rfl

theorem leaves_same (d e : Document) (name : String) (same : d.root.find? name = e.root.find? name) :
    d.leaves name = e.leaves name := by
  rw [leaves, leaves, same]

theorem unresolved_mapping (d : Document) (name : String) (policy : Policy) (entries : List (String × Tree))
    (here : d.root.find? name = some (.mapping entries)) :
    d.unresolved secrets name policy = (Tree.walkEntries policy secrets entries).errors := by
  rw [unresolved, texts, leaves_mapping d name entries here, Tree.walk_entries_errors policy secrets name]
  simp only [Tree.textErrors, Policy.replace_errors]
  rfl

theorem unresolved_skipped (d : Document) (name : String) (policy : Policy)
    (skipped : ∀ entries, d.root.find? name ≠ some (.mapping entries)) : d.unresolved secrets name policy = [] := by
  rw [unresolved, texts, leaves_skipped d name skipped]
  rfl

theorem unresolved_nil_iff_texts (d : Document) (name : String) (policy : Policy) :
    d.unresolved secrets name policy = [] ↔ ∀ path s, (path, s) ∈ d.texts name → ¬ policy.Unresolved secrets s := by
  simp only [unresolved, List.flatMap_eq_nil_iff, Policy.unresolved_nil_iff]
  exact ⟨fun all path s => all (path, s), fun all found => all found.1 found.2⟩

theorem filled_mapping (d : Document) (name : String) (policy : Policy) (entries : List (String × Tree))
    (here : d.root.find? name = some (.mapping entries)) :
    d.filled secrets name policy = d.put name (.mapping (Tree.walkEntries policy secrets entries).value) := by
  rw [filled, here]

theorem filled_skipped (d : Document) (name : String) (policy : Policy)
    (skipped : ∀ entries, d.root.find? name ≠ some (.mapping entries)) : d.filled secrets name policy = d := by
  unfold filled
  split
  next entries here => exact absurd here (skipped entries)
  next => rfl

theorem filled_find (d : Document) (name : String) (policy : Policy) (entries : List (String × Tree))
    (here : d.root.find? name = some (.mapping entries)) :
    (d.filled secrets name policy).root.find? name =
      some (.mapping (Tree.walkEntries policy secrets entries).value) := by
  rw [filled_mapping secrets d name policy entries here]
  exact KeyMap.find_insert_self name _ _

theorem filled_find_other (d : Document) (name field : String) (policy : Policy) (other : field ≠ name) :
    (d.filled secrets name policy).root.find? field = d.root.find? field := by
  rcases d.eligible_or_skipped name with ⟨entries, here⟩ | skipped
  · rw [filled_mapping secrets d name policy entries here]
    exact KeyMap.find_insert_other name field _ _ other
  · rw [filled_skipped secrets d name policy skipped]

theorem filled_unresolved_other (d : Document) (name field : String) (policy shaped : Policy) (other : field ≠ name) :
    (d.filled secrets name policy).unresolved secrets field shaped = d.unresolved secrets field shaped := by
  rw [unresolved, texts, leaves_same _ d field (filled_find_other secrets d name field policy other)]
  rfl

theorem filled_all_find_other (d : Document) (subtrees : List (String × Policy)) (field : String)
    (other : field ∉ subtrees.map Prod.fst) : (d.filledAll secrets subtrees).root.find? field = d.root.find? field := by
  induction subtrees generalizing d with
  | nil => rfl
  | cons head rest ih =>
    simp only [List.map_cons, List.mem_cons, not_or] at other
    rw [filledAll, List.foldl_cons, ← filledAll, ih _ other.2, filled_find_other secrets d _ _ _ other.1]

theorem filled_all_find (d : Document) (subtrees : List (String × Policy)) (name : String) (policy : Policy)
    (distinct : (subtrees.map Prod.fst).Nodup) (member : (name, policy) ∈ subtrees) :
    (d.filledAll secrets subtrees).root.find? name = (d.filled secrets name policy).root.find? name := by
  induction subtrees generalizing d with
  | nil => simp at member
  | cons head rest ih =>
    obtain ⟨fresh, restDistinct⟩ := List.nodup_cons.mp distinct
    rw [filledAll, List.foldl_cons, ← filledAll]
    rcases List.mem_cons.mp member with rfl | inRest
    · exact filled_all_find_other secrets _ rest name fresh
    · have other : name ≠ head.1 := by
        rintro rfl
        exact fresh (List.mem_map.mpr ⟨_, inRest, rfl⟩)
      have kept := filled_find_other secrets d head.1 name head.2 other
      rw [ih _ restDistinct inRest]
      rcases d.eligible_or_skipped name with ⟨entries, here⟩ | skipped
      · rw [filled_find secrets d name policy entries here,
          filled_find secrets _ name policy entries (kept.trans here)]
      · rw [filled_skipped secrets d name policy skipped, filled_skipped secrets _ name policy (kept ▸ skipped), kept]

end Document

namespace Template

variable (kind : Kind) (secrets : SecretMap)

theorem walk_subtree_spec (d : Document) (name : String) (policy : Policy) :
    (walkSubtree kind secrets d name policy).document = d.filled secrets name policy ∧
      (walkSubtree kind secrets d name policy).errors = d.unresolved secrets name policy := by
  rcases d.eligible_or_skipped name with ⟨entries, here⟩ | skipped
  · rw [Document.filled_mapping secrets d name policy entries here,
      Document.unresolved_mapping secrets d name policy entries here, walkSubtree, here]
    exact ⟨rfl, rfl⟩
  · rw [Document.filled_skipped secrets d name policy skipped, Document.unresolved_skipped secrets d name policy skipped]
    unfold walkSubtree
    split
    next entries here => exact absurd here (skipped entries)
    next => exact ⟨rfl, rfl⟩
    next => exact ⟨rfl, rfl⟩

theorem walk_subtrees_cons (d : Document) (name : String) (policy : Policy) (rest : List (String × Policy)) :
    (d.unresolved secrets name policy = [] →
      (walkSubtrees kind secrets d ((name, policy) :: rest)).document =
          (walkSubtrees kind secrets (d.filled secrets name policy) rest).document ∧
        (walkSubtrees kind secrets d ((name, policy) :: rest)).failed =
          (walkSubtrees kind secrets (d.filled secrets name policy) rest).failed) ∧
    (d.unresolved secrets name policy ≠ [] →
      (walkSubtrees kind secrets d ((name, policy) :: rest)).document = d.filled secrets name policy ∧
        (walkSubtrees kind secrets d ((name, policy) :: rest)).failed =
          some (name, d.unresolved secrets name policy)) := by
  obtain ⟨document, errors⟩ := walk_subtree_spec kind secrets d name policy
  constructor
  · intro clear
    rw [clear] at errors
    simp [walkSubtrees, errors, document]
  · intro blocked
    rw [walkSubtrees]
    simp [errors, document, blocked]

-- Later sub-trees are not touched by what the earlier ones put into the document.
theorem filled_clear (d : Document) (name : String) (policy : Policy) (rest : List (String × Policy))
    (fresh : name ∉ rest.map Prod.fst) (clear : ∀ subtree ∈ rest, d.unresolved secrets subtree.1 subtree.2 = []) :
    ∀ subtree ∈ rest, (d.filled secrets name policy).unresolved secrets subtree.1 subtree.2 = [] := by
  intro subtree member
  rw [Document.filled_unresolved_other secrets d, clear subtree member]
  rintro rfl
  exact fresh (List.mem_map_of_mem member)

theorem walk_subtrees_clear (d : Document) (subtrees : List (String × Policy))
    (distinct : (subtrees.map Prod.fst).Nodup)
    (clear : ∀ subtree ∈ subtrees, d.unresolved secrets subtree.1 subtree.2 = []) :
    (walkSubtrees kind secrets d subtrees).document = d.filledAll secrets subtrees ∧
      (walkSubtrees kind secrets d subtrees).failed = none := by
  induction subtrees generalizing d with
  | nil => exact ⟨rfl, rfl⟩
  | cons head rest ih =>
    obtain ⟨fresh, restDistinct⟩ := List.nodup_cons.mp distinct
    obtain ⟨headClear, restClear⟩ := List.forall_mem_cons.mp clear
    obtain ⟨document, failed⟩ := (walk_subtrees_cons kind secrets d head.1 head.2 rest).1 headClear
    rw [document, failed]
    exact ih _ restDistinct (filled_clear secrets d head.1 head.2 rest fresh restClear)

theorem walk_subtrees_blocked (d : Document) (passed later : List (String × Policy)) (name : String) (policy : Policy)
    (distinct : ((passed ++ (name, policy) :: later).map Prod.fst).Nodup)
    (clear : ∀ subtree ∈ passed, d.unresolved secrets subtree.1 subtree.2 = [])
    (blocked : d.unresolved secrets name policy ≠ []) :
    (walkSubtrees kind secrets d (passed ++ (name, policy) :: later)).document =
        d.filledAll secrets (passed ++ [(name, policy)]) ∧
      (walkSubtrees kind secrets d (passed ++ (name, policy) :: later)).failed =
        some (name, d.unresolved secrets name policy) := by
  induction passed generalizing d with
  | nil => exact (walk_subtrees_cons kind secrets d name policy later).2 blocked
  | cons head rest ih =>
    rw [List.cons_append, List.map_cons] at distinct
    obtain ⟨fresh, restDistinct⟩ := List.nodup_cons.mp distinct
    obtain ⟨headClear, restClear⟩ := List.forall_mem_cons.mp clear
    simp only [List.map_append, List.map_cons, List.mem_append, List.mem_cons, not_or] at fresh
    have kept : (d.filled secrets head.1 head.2).unresolved secrets name policy = d.unresolved secrets name policy :=
      Document.filled_unresolved_other secrets d head.1 name head.2 policy (Ne.symm fresh.2.1)
    obtain ⟨document, failed⟩ :=
      (walk_subtrees_cons kind secrets d head.1 head.2 (rest ++ (name, policy) :: later)).1 headClear
    rw [List.cons_append, document, failed, ← kept]
    exact ih _ restDistinct (filled_clear secrets d head.1 head.2 rest fresh.1 restClear) (kept ▸ blocked)

theorem first_blocked (d : Document) (subtrees : List (String × Policy)) :
    (∀ subtree ∈ subtrees, d.unresolved secrets subtree.1 subtree.2 = []) ∨
      ∃ passed name policy later, subtrees = passed ++ (name, policy) :: later ∧
        (∀ subtree ∈ passed, d.unresolved secrets subtree.1 subtree.2 = []) ∧ d.unresolved secrets name policy ≠ [] := by
  induction subtrees with
  | nil => exact .inl fun _ member => absurd member List.not_mem_nil
  | cons head rest ih =>
    by_cases clear : d.unresolved secrets head.1 head.2 = []
    · rcases ih with restClear | ⟨passed, name, policy, later, rfl, passedClear, blocked⟩
      · exact .inl (List.forall_mem_cons.mpr ⟨clear, restClear⟩)
      · exact .inr ⟨head :: passed, name, policy, later, rfl, List.forall_mem_cons.mpr ⟨clear, passedClear⟩, blocked⟩
    · exact .inr ⟨[], head.1, head.2, rest, rfl, fun _ member => absurd member List.not_mem_nil, clear⟩

theorem subtrees_distinct : (kind.subtrees.map Prod.fst).Nodup := by
  cases kind <;> decide

theorem replace_clear (t : Template)
    (clear : ∀ subtree ∈ t.kind.subtrees, t.document.unresolved t.secrets subtree.1 subtree.2 = []) :
    t.replace.2.2 = .ok () ∧
      t.replace.1 = { t with
        document := t.document.filledAll t.secrets t.kind.subtrees, errors := [], replaced := true } := by
  obtain ⟨document, failed⟩ := walk_subtrees_clear t.kind t.secrets t.document _ (subtrees_distinct t.kind) clear
  simp only [replace, failed, document]
  exact ⟨trivial, trivial⟩

theorem replace_blocked (t : Template) (passed later : List (String × Policy)) (name : String) (policy : Policy)
    (order : t.kind.subtrees = passed ++ (name, policy) :: later)
    (clear : ∀ subtree ∈ passed, t.document.unresolved t.secrets subtree.1 subtree.2 = [])
    (blocked : t.document.unresolved t.secrets name policy ≠ []) :
    t.replace.2.2 = .error (.replacement t.kind name (t.document.unresolved t.secrets name policy)) ∧
      t.replace.1 = { t with
        document := t.document.filledAll t.secrets (passed ++ [(name, policy)]),
        errors := t.document.unresolved t.secrets name policy } := by
  obtain ⟨document, failed⟩ := walk_subtrees_blocked t.kind t.secrets t.document passed later name policy
    (order ▸ subtrees_distinct t.kind) clear blocked
  simp only [replace, order, failed, document]
  exact ⟨trivial, trivial⟩

theorem replace_ok_iff (t : Template) :
    t.replace.2.2 = .ok () ↔
      ∀ subtree ∈ t.kind.subtrees, t.document.unresolved t.secrets subtree.1 subtree.2 = [] := by
  constructor
  · intro succeeded
    rcases first_blocked t.secrets t.document t.kind.subtrees with clear | ⟨passed, name, policy, later, order, clear, blocked⟩
    · exact clear
    · rw [(replace_blocked t passed later name policy order clear blocked).1] at succeeded
      simp at succeeded
  · intro clear
    exact (replace_clear t clear).1

theorem create_declared (kind : Kind) (document : Document) (secrets : SecretMap)
    (declared : document.kind? = some kind.name) : create document secrets = .ok { kind, document, secrets } := by
  have named : Kind.ofName? kind.name = some kind := by cases kind <;> decide
  simp only [create, declared, named]

theorem exported_ok_iff (t : Template) (e : Exported) :
    t.exported = .ok e ↔ t.replaced = true ∧ Exported.decode t.kind t.document.toJson = .ok e := by
  rw [exported]
  cases t.replaced with
  | false => simp
  | true => cases decoded : Exported.decode t.kind t.document.toJson <;> simp

end Template

end ManifestSecrets
