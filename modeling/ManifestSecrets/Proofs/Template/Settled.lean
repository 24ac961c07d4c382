import ManifestSecrets.Proofs.Template.Retry
import ManifestSecrets.Proofs.Text.Base64

set_option autoImplicit false

namespace ManifestSecrets

namespace Document

variable (secrets : SecretMap)

theorem leaves_bytesless (d : Document) (decoded : d.Decoded) (name : String) :
    ∀ found ∈ d.leaves name, found.2.NoBytes := by
  rcases d.eligible_or_skipped name with ⟨entries, here⟩ | skipped
  · rw [leaves_mapping d name entries here]
    exact (Tree.each_leaf_mapping _ _).mp decoded.bytesless _ (KeyMap.find_mem here)
  · rw [leaves_skipped d name skipped]
    exact fun found member => absurd member List.not_mem_nil

theorem filled_root_ordered (d : Document) (name : String) (policy : Policy) (ordered : KeyMap.Ordered d.root) :
    KeyMap.Ordered (d.filled secrets name policy).root := by
  rcases d.eligible_or_skipped name with ⟨entries, here⟩ | skipped
  · rw [filled_mapping secrets d name policy entries here]
    exact KeyMap.insert_ordered name _ d.root ordered
  · rwa [filled_skipped secrets d name policy skipped]

theorem filled_all_root_ordered (d : Document) (subtrees : List (String × Policy)) (ordered : KeyMap.Ordered d.root) :
    KeyMap.Ordered (d.filledAll secrets subtrees).root := by
  induction subtrees generalizing d with
  | nil => exact ordered
  | cons head rest ih => exact ih _ (filled_root_ordered secrets d head.1 head.2 ordered)

theorem settled_resolved (d : Document) (name : String) (policy : Policy)
    (settled : ∀ found ∈ d.leaves name, policy.Settled found.2) : d.unresolved secrets name policy = [] := by
  rw [unresolved_nil_iff_texts]
  intro path s member
  have tokenless := settled _ ((Tree.mem_texts_of _ path s).mp member)
  exact Policy.tokenless_resolved secrets policy s tokenless.2

theorem filled_fixed (d : Document) (name : String) (policy : Policy) (ordered : KeyMap.Ordered d.root)
    (settled : ∀ found ∈ d.leaves name, policy.Settled found.2) : d.filled secrets name policy = d := by
  rcases d.eligible_or_skipped name with ⟨entries, here⟩ | skipped
  · rw [leaves_mapping d name entries here] at settled
    have fixed := Tree.walk_entries_fixed policy secrets entries ((Tree.each_leaf_mapping _ _).mp settled)
    rw [filled_mapping secrets d name policy entries here, fixed, put, KeyMap.insert_same name _ d.root ordered here]
  · exact filled_skipped secrets d name policy skipped

theorem filled_all_fixed (d : Document) (subtrees : List (String × Policy)) (ordered : KeyMap.Ordered d.root)
    (settled : ∀ subtree ∈ subtrees, ∀ found ∈ d.leaves subtree.1, subtree.2.Settled found.2) :
    d.filledAll secrets subtrees = d := by
  induction subtrees with
  | nil => rfl
  | cons head rest ih =>
    obtain ⟨first, later⟩ := List.forall_mem_cons.mp settled
    rw [filledAll, List.foldl_cons, filled_fixed secrets d head.1 head.2 ordered first]
    exact ih later

end Document

namespace Template

def Settled (t : Template) : Prop :=
  ∀ subtree ∈ t.kind.subtrees, ∀ found ∈ t.document.leaves subtree.1, subtree.2.Settled found.2

theorem clear_settles (t : Template) (bracketless : Placeholder.Bracketless t.secrets) (decoded : t.document.Decoded)
    (clear : t.Clear) : t.replace.1.Settled := by
  intro subtree member
  rw [(replace_clear t clear).2] at member ⊢
  have distinct := subtrees_distinct t.kind
  have front := Document.filled_front t.secrets t.document t.kind.subtrees [] (by rwa [List.append_nil])
  rw [(front subtree.1 subtree.2).1 member]
  exact Document.filled_settled t.secrets bracketless t.document subtree.1 subtree.2
    (Document.leaves_bytesless t.document decoded subtree.1) (clear subtree member)

theorem settled_fixed (t : Template) (ordered : KeyMap.Ordered t.document.root) (settled : t.Settled) :
    t.replace.2.2 = .ok () ∧ t.replace.1 = { t with errors := [], replaced := true } := by
  have clear : t.Clear := fun subtree member =>
    Document.settled_resolved t.secrets t.document subtree.1 subtree.2 (settled subtree member)
  obtain ⟨ok, after⟩ := replace_clear t clear
  refine ⟨ok, ?_⟩
  rw [after, Document.filled_all_fixed t.secrets t.document _ ordered settled]

theorem settled_run (t : Template) (fixed : t.replace.1 = t) (n : Nat) : t.replaceTimes n = t := by
  induction n with
  | zero => rfl
  | succ n ih => rw [replaceTimes, ih, fixed]

theorem replace_ok_final (kind : Kind) (document : Document) (secrets : SecretMap)
    (declared : document.kind? = some kind.name) (decoded : document.Decoded)
    (bracketless : Placeholder.Bracketless secrets) :
    ∃ t, create document secrets = .ok t ∧ (t.replace.2.2 = .ok () →
      (∀ name policy, (name, policy) ∈ kind.subtrees → ∀ path s,
        (t.replace.1.document.Holds name path (.text s) → ¬ Placeholder.HasToken s) ∧
          (t.replace.1.document.Holds name path (.bytes (Text.utf8 s)) → ¬ Placeholder.HasToken s)) ∧
      ∀ n, (t.replace.1.replaceTimes n).replace.2.2 = .ok () ∧
        (t.replace.1.replaceTimes n).replace.1.document = t.replace.1.document) := by
  refine ⟨_, create_declared kind document secrets declared, fun ok => ?_⟩
  have clear := (replace_ok_iff _).mp ok
  have settled := clear_settles { kind, document, secrets } bracketless decoded clear
  constructor
  · intro name policy member path s
    have leaves := settled (name, policy) (by rwa [replace_kind])
    constructor
    · intro held
      rw [← Placeholder.tokens_nil_iff]
      exact (leaves _ (Document.mem_leaves_of_holds _ name path _ held rfl)).2
    · intro held
      obtain ⟨text, same, tokenless⟩ := leaves _ (Document.mem_leaves_of_holds _ name path _ held rfl)
      rw [← Placeholder.tokens_nil_iff, Text.utf8_inj same]
      exact tokenless
  · intro n
    have after := (replace_clear _ clear).2
    have ordered : KeyMap.Ordered (replace { kind, document, secrets }).1.document.root := by
      rw [after]
      exact Document.filled_all_root_ordered secrets document _ decoded.ordered.1
    obtain ⟨again, same⟩ := settled_fixed _ ordered settled
    have fixed : (replace { kind, document, secrets }).1.replace.1 = (replace { kind, document, secrets }).1 := by
      rw [same, after]
    rw [settled_run _ fixed n]
    exact ⟨again, congrArg Template.document fixed⟩

def strayBrackets : Document :=
  ⟨[("apiVersion", .text "v1"), ("data", .mapping [("password", .text "<pw>"), ("rule", .text "<pw> < a\n> b")]),
    ("kind", .text "Secret"), ("metadata", .mapping [("name", .text "<<env>")])]⟩

-- The open bracket after the token and the closing one on the next line stay apart.
theorem replace_ok_final_stray :
    strayBrackets.kind? = some Kind.secret.name ∧ strayBrackets.Decoded ∧
      Placeholder.Bracketless [("env", .text "dev"), ("pw", .text "s3cr3t")] ∧
      ∃ t, create strayBrackets [("env", .text "dev"), ("pw", .text "s3cr3t")] = .ok t ∧ t.replace.2.2 = .ok () ∧
        t.replace.1.toYaml.toOption = some
          "apiVersion: v1\nkind: Secret\nmetadata:\n  name: dev\ndata:\n  password: czNjcjN0\n  rule: czNjcjN0IDwgYQo+IGI=\n" ∧
        (∀ path s, t.replace.1.document.Holds "data" path (.bytes (Text.utf8 s)) → ¬ Placeholder.HasToken s) ∧
        (t.replaceTimes 3).document = t.replace.1.document := by
  have declared : strayBrackets.kind? = some Kind.secret.name := by decide
  have decoded : strayBrackets.Decoded := by
    constructor
    · simp only [strayBrackets, Tree.Ordered, Tree.EntriesOrdered, KeyMap.Ordered]
      decide
    · simp [strayBrackets, Tree.EachLeaf, Tree.leaves, Tree.entryLeaves, Tree.within, Tree.NoBytes]
  have bracketless : Placeholder.Bracketless [("env", .text "dev"), ("pw", .text "s3cr3t")] := by
    intro n secret found
    rcases List.mem_cons.mp (KeyMap.find_mem found) with same | same
    · obtain ⟨-, rfl⟩ := Prod.mk.inj same
      decide
    · obtain ⟨-, rfl⟩ := Prod.mk.inj (List.mem_singleton.mp same)
      decide
  obtain ⟨t, created, final⟩ := replace_ok_final .secret strayBrackets _ declared decoded bracketless
  obtain rfl := Except.ok.inj created
  have ok : (replace ⟨.secret, strayBrackets, [("env", .text "dev"), ("pw", .text "s3cr3t")], [], false⟩).2.2 = .ok () :=
    (replace_ok_iff _).mpr (by decide +kernel)
  obtain ⟨tokenless, run⟩ := final ok
  refine ⟨declared, decoded, bracketless, _, created, ok, by decide +kernel, ?_, (run 1).2⟩
  exact fun path s => (tokenless "data" .secret (by simp [Kind.subtrees]) path s).2

end Template

end ManifestSecrets
