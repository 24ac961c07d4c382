import ManifestSecrets.Proofs.Template.Retry

set_option autoImplicit false

namespace ManifestSecrets

namespace Document

variable (secrets : SecretMap)

theorem passing_iff (d : Document) (ordered : d.Ordered) (name : String) (policy : Policy) :
    d.Passing secrets name policy ↔ ∀ path s, (path, s) ∈ d.texts name → ¬ policy.Lasting secrets s := by
  simp only [Passing, mem_texts_iff d ordered]

theorem passing_resolvable (d : Document) (name : String) (policy : Policy) (shapes : policy ≠ .secret)
    (passing : d.Passing secrets name policy) : d.Resolvable secrets name policy := by
  intro path s held unresolved
  exact shapes (Policy.unresolved_passing secrets policy s unresolved (passing path s held)).1

end Document

namespace Template

theorem fresh_stuck_iff (t : Template) (ordered : t.document.Ordered) :
    ¬ t.Stuck ↔ ∀ name policy, (name, policy) ∈ t.kind.subtrees → t.document.Passing t.secrets name policy := by
  simp only [Document.passing_iff t.secrets t.document ordered]
  constructor
  · intro passing name policy member path s text lasting
    exact passing ⟨name, policy, member, path, s, text, lasting⟩
  · rintro passing ⟨name, policy, member, path, s, text, lasting⟩
    exact passing name policy member path s text lasting

theorem fresh_clear_iff (t : Template) (ordered : t.document.Ordered) :
    t.Clear ↔ ∀ name policy, (name, policy) ∈ t.kind.subtrees → t.document.Resolvable t.secrets name policy := by
  simp only [Clear, Prod.forall, Document.unresolved_nil_iff t.secrets t.document ordered]

-- From the second replacement on, unknown names under the secret policy do not count any more.
theorem export_accepted_iff (kind : Kind) (document : Document) (secrets : SecretMap)
    (declared : document.kind? = some kind.name) (ordered : document.Ordered)
    (bracketless : Placeholder.Bracketless secrets) :
    ∃ t, create document secrets = .ok t ∧ ∀ n,
      ((t.replaceTimes n).exported ≠ .error (.notReplaced kind) ↔
        0 < n ∧ (∀ name policy, (name, policy) ∈ kind.subtrees → document.Passing secrets name policy) ∧
          (n = 1 → ∀ name policy, (name, policy) ∈ kind.subtrees → document.Resolvable secrets name policy)) ∧
      ((t.replaceTimes n).toYaml ≠ .error (.notReplaced kind) ↔
        (t.replaceTimes n).exported ≠ .error (.notReplaced kind)) ∧
      ((t.replaceTimes n).replace.2.2 = .ok () ↔
        (∀ name policy, (name, policy) ∈ kind.subtrees → document.Passing secrets name policy) ∧
          (n = 0 → ∀ name policy, (name, policy) ∈ kind.subtrees → document.Resolvable secrets name policy)) ∧
      ((t.replaceTimes n).exported ≠ .error (.notReplaced kind) →
        ∀ name policy, (name, policy) ∈ kind.subtrees → policy ≠ .secret → document.Resolvable secrets name policy) := by
  refine ⟨_, create_declared kind document secrets declared, fun n => ?_⟩
  have passing := fresh_stuck_iff { kind, document, secrets } ordered
  have clear := fresh_clear_iff { kind, document, secrets } ordered
  have exported := exported_refused_iff (replaceTimes { kind, document, secrets } n)
  have written := to_yaml_refused_iff (replaceTimes { kind, document, secrets } n)
  rw [replace_times_kind] at exported written
  have accepted := run_accepted_iff { kind, document, secrets } rfl bracketless n
  rw [passing, clear] at accepted
  have ok := run_ok_iff { kind, document, secrets } bracketless n
  rw [passing, clear] at ok
  refine ⟨?_, ?_, ok, ?_⟩
  · rw [Ne, exported, Bool.not_eq_false, accepted]
  · rw [Ne, Ne, written, exported]
  · rw [Ne, exported, Bool.not_eq_false, accepted]
    intro holds name policy member shapes
    exact document.passing_resolvable secrets name policy shapes (holds.2.1 name policy member)

def unknownPassword : Document :=
  ⟨[("apiVersion", .text "v1"), ("data", .mapping [("password", .text "<missing>")]), ("kind", .text "Secret")]⟩

theorem missing_token : Placeholder.tokens "<missing>" = ["missing"] := by
  have whole : Placeholder.cut "<missing>".toList = [.token "missing".toList] :=
    (Placeholder.cut_eq_iff _ _).mpr (by simp [Placeholder.IsCut, Placeholder.joined, Placeholder.Piece.chars])
  rw [Placeholder.tokens, whole]
  rfl

theorem export_unknown_password :
    unknownPassword.kind? = some Kind.secret.name ∧ unknownPassword.Ordered ∧ Placeholder.Bracketless [] ∧
      ∃ t, create unknownPassword [] = .ok t ∧
        (t.replaceTimes 1).exported = .error (.notReplaced .secret) ∧
        (t.replaceTimes 1).replace.2.2 = .ok () ∧
        (t.replaceTimes 2).exported ≠ .error (.notReplaced .secret) := by
  have declared : unknownPassword.kind? = some Kind.secret.name := by decide
  have ordered : unknownPassword.Ordered := by
    simp only [unknownPassword, Document.Ordered, Tree.Ordered, Tree.EntriesOrdered, KeyMap.Ordered]
    decide
  have bracketless : Placeholder.Bracketless [] := by
    intro n secret found
    simp [KeyMap.find?] at found
  have passing : ∀ name policy, (name, policy) ∈ Kind.secret.subtrees → unknownPassword.Passing [] name policy := by
    intro name policy member
    rw [Document.passing_iff [] _ ordered]
    rintro path s text (⟨shapes, -⟩ | ⟨-, -, n, -, secret, found, -⟩)
    · simp only [Kind.subtrees, List.mem_cons, Prod.mk.injEq, List.not_mem_nil, or_false] at member
      rcases member with ⟨rfl, rfl⟩ | ⟨rfl, rfl⟩ | ⟨rfl, rfl⟩
      · exact absurd text List.not_mem_nil
      · exact shapes rfl
      · exact absurd text List.not_mem_nil
    · simp [KeyMap.find?] at found
  have unresolvable : ¬ unknownPassword.Resolvable [] "data" .secret := by
    intro resolvable
    exact resolvable [.key "password"] "<missing>" ⟨_, rfl, rfl⟩ (.inl ⟨"missing", by simp [missing_token], rfl⟩)
  obtain ⟨t, created, run⟩ := export_accepted_iff .secret unknownPassword [] declared ordered bracketless
  obtain ⟨accepted, -, ok, -⟩ := run 1
  refine ⟨declared, ordered, bracketless, t, created, ?_, ok.mpr ⟨passing, by simp⟩, ?_⟩
  · apply Classical.byContradiction
    intro exported
    exact unresolvable ((accepted.mp exported).2.2 rfl "data" .secret (by simp [Kind.subtrees]))
  · exact (run 2).1.mpr ⟨by omega, passing, by simp⟩

-- The base64 of `<missing>` is exported, though the name is still unknown.
theorem unknown_password_exported :
    ∃ t, create unknownPassword [] = .ok t ∧
      t.replace.2.2 = .error (.replacement .secret "data" [.missingPlaceholder "password" "<missing>" "missing"]) ∧
      t.replace.1.replace.2.2 = .ok () ∧
      t.replace.1.replace.1.toYaml.toOption =
        some "apiVersion: v1\nkind: Secret\nmetadata: \x7b\x7d\ndata:\n  password: PG1pc3Npbmc+\n" ∧
      unknownPassword.Holds "data" [.key "password"] (.text "<missing>") ∧
      Policy.Unresolved .secret [] "<missing>" := by
  have errors : unknownPassword.unresolved [] "data" .secret = [.missingPlaceholder "password" "<missing>" "missing"] := by
    decide +kernel
  refine ⟨_, rfl, ?_, ?_, ?_, ⟨_, rfl, rfl⟩, .inl ⟨"missing", by simp [missing_token], rfl⟩⟩
  · rw [← errors]
    exact (replace_blocked _ [("metadata", .generic)] [("stringData", .string)] "data" .secret rfl (by decide +kernel)
      (by simp [errors])).1
  · exact (replace_ok_iff _).mpr (by decide +kernel)
  · decide +kernel

end Template

end ManifestSecrets
