import ManifestSecrets.Proofs.Retry
import ManifestSecrets.Proofs.Template.Replace

set_option autoImplicit false

namespace ManifestSecrets

namespace Document

variable (secrets : SecretMap)

-- No text of the sub-tree has an unresolved item that outlives a replacement.
def Passing (d : Document) (name : String) (policy : Policy) : Prop :=
  ∀ path s, d.Holds name path (.text s) → ¬ policy.Lasting secrets s

theorem mem_filled_leaves_iff (d : Document) (name : String) (policy : Policy) (found : Path × Tree) :
    found ∈ (d.filled secrets name policy).leaves name ↔
      (found ∈ d.leaves name ∧ found.2.text? = none) ∨
        ∃ path s, (path, s) ∈ d.texts name ∧
          ∃ inner ∈ (policy.replace (Tree.fieldKey name path) s secrets).value.leaves, found = Tree.within path inner := by
  rcases d.eligible_or_skipped name with ⟨entries, here⟩ | skipped
  · rw [leaves_mapping _ name _ (filled_find secrets d name policy entries here), texts, leaves_mapping d name entries here]
    exact Tree.mem_walked_leaves_iff policy secrets name (.mapping entries) found
  · rw [filled_skipped secrets d name policy skipped, texts, leaves_skipped d name skipped]
    simp [Tree.textsOf]

theorem filled_settled (bracketless : Placeholder.Bracketless secrets) (d : Document) (name : String) (policy : Policy)
    (bytesless : ∀ found ∈ d.leaves name, found.2.NoBytes) (clear : d.unresolved secrets name policy = []) :
    ∀ found ∈ (d.filled secrets name policy).leaves name, policy.Settled found.2 := by
  intro found member
  rcases (mem_filled_leaves_iff secrets d name policy found).mp member with ⟨old, other⟩ | ⟨path, s, text, inner, below, rfl⟩
  · have noBytes := bytesless found old
    obtain ⟨path, leaf⟩ := found
    cases leaf with
    | text s => simp [Tree.text?] at other
    | bytes b => exact absurd noBytes id
    | _ => trivial
  · have resolved := (unresolved_nil_iff_texts secrets d name policy).mp clear path s text
    exact Policy.replace_settled secrets bracketless policy _ s resolved inner below

theorem filled_lasting (bracketless : Placeholder.Bracketless secrets) (d : Document) (name : String) (policy : Policy)
    (lasting : ∃ path s, (path, s) ∈ d.texts name ∧ policy.Lasting secrets s) :
    ∃ path s, (path, s) ∈ (d.filled secrets name policy).texts name ∧ policy.Lasting secrets s := by
  obtain ⟨path, s, text, lasts⟩ := lasting
  obtain ⟨left, same, leftLasts⟩ :=
    Policy.replace_lasting secrets bracketless policy (Tree.fieldKey name path) s lasts
  refine ⟨path ++ [], left, ?_, leftLasts⟩
  rw [texts, Tree.mem_texts_of, mem_filled_leaves_iff]
  refine .inr ⟨path, s, text, ([], .text left), ?_, rfl⟩
  rw [same]
  exact List.mem_singleton_self _

theorem filled_passing (bracketless : Placeholder.Bracketless secrets) (d : Document) (name : String) (policy : Policy)
    (passing : ∀ path s, (path, s) ∈ d.texts name → ¬ policy.Lasting secrets s) :
    (d.filled secrets name policy).unresolved secrets name policy = [] := by
  rw [unresolved_nil_iff_texts]
  intro path s member
  rw [texts, Tree.mem_texts_of, mem_filled_leaves_iff] at member
  rcases member with ⟨-, other⟩ | ⟨before, value, text, inner, below, same⟩
  · simp [Tree.text?] at other
  · have isText : inner.2 = .text s := (congrArg Prod.snd same).symm
    exact Policy.replace_passing secrets bracketless policy _ value (passing before value text) inner below s isText

theorem passing_blocked (d : Document) (name : String) (policy : Policy)
    (passing : ∀ path s, (path, s) ∈ d.texts name → ¬ policy.Lasting secrets s)
    (blocked : d.unresolved secrets name policy ≠ []) : policy = .secret := by
  apply Classical.byContradiction
  intro shapes
  refine blocked ((unresolved_nil_iff_texts secrets d name policy).mpr fun path s text unresolved => ?_)
  exact shapes (Policy.unresolved_passing secrets policy s unresolved (passing path s text)).1

theorem filled_front (d : Document) (touched later : List (String × Policy))
    (distinct : ((touched ++ later).map Prod.fst).Nodup) (name : String) (policy : Policy) :
    ((name, policy) ∈ touched →
      (d.filledAll secrets touched).leaves name = (d.filled secrets name policy).leaves name) ∧
    ((name, policy) ∈ later → (d.filledAll secrets touched).leaves name = d.leaves name) := by
  rw [List.map_append] at distinct
  obtain ⟨touchedDistinct, -, apart⟩ := List.nodup_append.mp distinct
  constructor
  · intro member
    exact leaves_same _ _ name (filled_all_find secrets d touched name policy touchedDistinct member)
  · intro member
    refine leaves_same _ _ name (filled_all_find_other secrets d touched name fun front => ?_)
    exact apart name front name (List.mem_map_of_mem member) rfl

end Document

namespace Template

def replaceTimes (t : Template) : Nat → Template
  | 0 => t
  | n + 1 => (t.replaceTimes n).replace.1

def Stuck (t : Template) : Prop :=
  ∃ name policy, (name, policy) ∈ t.kind.subtrees ∧
    ∃ path s, (path, s) ∈ t.document.texts name ∧ policy.Lasting t.secrets s

def Clear (t : Template) : Prop :=
  ∀ subtree ∈ t.kind.subtrees, t.document.unresolved t.secrets subtree.1 subtree.2 = []

theorem replace_kind (t : Template) : t.replace.1.kind = t.kind := by
  simp only [replace]
  split <;> rfl

theorem replace_secrets (t : Template) : t.replace.1.secrets = t.secrets := by
  simp only [replace]
  split <;> rfl

theorem replaced_iff (t : Template) : t.replace.1.replaced = true ↔ t.replaced = true ∨ t.replace.2.2 = .ok () := by
  simp only [replace]
  split <;> simp

theorem replace_front (t : Template) :
    ∃ touched later, t.kind.subtrees = touched ++ later ∧
      t.replace.1.document = t.document.filledAll t.secrets touched ∧
      (later = [] ∨ ∃ last ∈ touched, t.document.unresolved t.secrets last.1 last.2 ≠ []) := by
  rcases first_blocked t.secrets t.document t.kind.subtrees with clear | ⟨passed, name, policy, later, order, clear, blocked⟩
  · refine ⟨t.kind.subtrees, [], (List.append_nil _).symm, ?_, .inl rfl⟩
    rw [(replace_clear t clear).2]
  · refine ⟨passed ++ [(name, policy)], later, by rw [order, List.append_cons], ?_, .inr ⟨(name, policy), by simp, blocked⟩⟩
    rw [(replace_blocked t passed later name policy order clear blocked).2]

theorem secret_subtree_alone (kind : Kind) :
    kind.subtrees.Pairwise fun a b => a.2 = .secret → b.2 ≠ .secret := by
  cases kind <;> decide

theorem clear_not_stuck (t : Template) (clear : t.Clear) : ¬ t.Stuck := by
  rintro ⟨name, policy, member, path, s, text, lasting⟩
  have resolved := (Document.unresolved_nil_iff_texts t.secrets t.document name policy).mp (clear _ member)
  exact resolved path s text (Policy.lasting_unresolved t.secrets policy s lasting)

theorem stuck_fails (t : Template) (stuck : t.Stuck) : t.replace.2.2 ≠ .ok () := by
  rw [Ne, replace_ok_iff]
  exact fun clear => clear_not_stuck t clear stuck

theorem stuck_stays (t : Template) (bracketless : Placeholder.Bracketless t.secrets) (stuck : t.Stuck) :
    t.replace.1.Stuck := by
  obtain ⟨name, policy, member, lasting⟩ := stuck
  obtain ⟨touched, later, order, document, -⟩ := replace_front t
  have distinct := subtrees_distinct t.kind
  rw [order] at member distinct
  obtain ⟨filled, kept⟩ := Document.filled_front t.secrets t.document touched later distinct name policy
  refine ⟨name, policy, by rwa [replace_kind, order], ?_⟩
  rw [document, replace_secrets, Document.texts]
  rcases List.mem_append.mp member with front | back
  · rw [filled front]
    exact Document.filled_lasting t.secrets bracketless t.document name policy lasting
  · rw [kept back]
    exact lasting

-- Only the secret policy can have stopped the replacement, and no later sub-tree has it.
theorem passing_clears (t : Template) (bracketless : Placeholder.Bracketless t.secrets) (passing : ¬ t.Stuck) :
    t.replace.1.Clear := by
  obtain ⟨touched, later, order, document, stop⟩ := replace_front t
  have distinct := subtrees_distinct t.kind
  have alone := secret_subtree_alone t.kind
  have passes : ∀ name policy, (name, policy) ∈ touched ++ later → ∀ path s, (path, s) ∈ t.document.texts name →
      ¬ policy.Lasting t.secrets s := by
    intro name policy member path s text lasting
    exact passing ⟨name, policy, order ▸ member, path, s, text, lasting⟩
  rw [order] at distinct alone
  rintro ⟨name, policy⟩ member
  rw [replace_kind, order] at member
  obtain ⟨filled, kept⟩ := Document.filled_front t.secrets t.document touched later distinct name policy
  rw [document, replace_secrets, Document.unresolved, Document.texts]
  rcases List.mem_append.mp member with front | back
  · rw [filled front]
    exact Document.filled_passing t.secrets bracketless t.document name policy (passes name policy member)
  · rw [kept back]
    rcases stop with rfl | ⟨last, lastFront, blocked⟩
    · exact absurd back List.not_mem_nil
    · have lastSecret := Document.passing_blocked t.secrets t.document last.1 last.2
        (passes last.1 last.2 (List.mem_append_left _ lastFront)) blocked
      have shapes : policy ≠ .secret := (List.pairwise_append.mp alone).2.2 last lastFront _ back lastSecret
      apply Classical.byContradiction
      intro unresolved
      exact shapes (Document.passing_blocked t.secrets t.document name policy (passes name policy member) unresolved)

theorem replace_times_kind (t : Template) (n : Nat) : (t.replaceTimes n).kind = t.kind := by
  induction n with
  | zero => rfl
  | succ n ih => rw [replaceTimes, replace_kind, ih]

theorem replace_times_secrets (t : Template) (n : Nat) : (t.replaceTimes n).secrets = t.secrets := by
  induction n with
  | zero => rfl
  | succ n ih => rw [replaceTimes, replace_secrets, ih]

theorem stuck_run (t : Template) (bracketless : Placeholder.Bracketless t.secrets) (stuck : t.Stuck) (n : Nat) :
    (t.replaceTimes n).Stuck := by
  induction n with
  | zero => exact stuck
  | succ n ih => exact stuck_stays _ (by rwa [replace_times_secrets]) ih

theorem passing_run (t : Template) (bracketless : Placeholder.Bracketless t.secrets) (passing : ¬ t.Stuck) (n : Nat) :
    (t.replaceTimes (n + 1)).Clear := by
  induction n with
  | zero => exact passing_clears t bracketless passing
  | succ n ih => exact passing_clears _ (by rwa [replace_times_secrets]) (clear_not_stuck _ ih)

theorem run_ok_iff (t : Template) (bracketless : Placeholder.Bracketless t.secrets) (n : Nat) :
    (t.replaceTimes n).replace.2.2 = .ok () ↔ ¬ t.Stuck ∧ (n = 0 → t.Clear) := by
  by_cases stuck : t.Stuck
  · refine iff_of_false (stuck_fails _ (stuck_run t bracketless stuck n)) ?_
    exact fun both => both.1 stuck
  · cases n with
    | zero =>
      rw [replaceTimes, replace_ok_iff]
      exact ⟨fun clear => ⟨stuck, fun _ => clear⟩, fun both => both.2 rfl⟩
    | succ n =>
      refine iff_of_true ((replace_ok_iff _).mpr (passing_run t bracketless stuck n)) ⟨stuck, ?_⟩
      exact fun same => absurd same (Nat.succ_ne_zero n)

theorem run_replaced_iff (t : Template) (fresh : t.replaced = false) (n : Nat) :
    (t.replaceTimes n).replaced = true ↔ ∃ m, m < n ∧ (t.replaceTimes m).replace.2.2 = .ok () := by
  induction n with
  | zero => simp [replaceTimes, fresh]
  | succ n ih =>
    rw [replaceTimes, replaced_iff, ih]
    constructor
    · rintro (⟨m, less, ok⟩ | ok)
      · exact ⟨m, by omega, ok⟩
      · exact ⟨n, by omega, ok⟩
    · rintro ⟨m, less, ok⟩
      rcases Nat.lt_succ_iff_lt_or_eq.mp less with less | rfl
      · exact .inl ⟨m, less, ok⟩
      · exact .inr ok

theorem run_accepted_iff (t : Template) (fresh : t.replaced = false) (bracketless : Placeholder.Bracketless t.secrets)
    (n : Nat) : (t.replaceTimes n).replaced = true ↔ 0 < n ∧ ¬ t.Stuck ∧ (n = 1 → t.Clear) := by
  simp only [run_replaced_iff t fresh, run_ok_iff t bracketless]
  constructor
  · rintro ⟨m, less, passing, first⟩
    refine ⟨by omega, passing, fun one => first ?_⟩
    omega
  · rintro ⟨failing, passing, first⟩
    refine ⟨n - 1, by omega, passing, fun zero => first ?_⟩
    omega

theorem exported_refused_iff (t : Template) : t.exported = .error (.notReplaced t.kind) ↔ t.replaced = false := by
  unfold exported
  cases t.replaced with
  | false => simp
  | true =>
    cases Exported.decode t.kind t.document.toJson <;> simp

theorem to_yaml_refused_iff (t : Template) : t.toYaml = .error (.notReplaced t.kind) ↔ t.replaced = false := by
  rw [← exported_refused_iff, toYaml]
  cases t.exported <;> simp [Except.map]

end Template

end ManifestSecrets
