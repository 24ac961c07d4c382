import ManifestSecrets.Proofs.Policy
import ManifestSecrets.Proofs.Tree.OfJson
import ManifestSecrets.Proofs.Walk

/-!
Replacing again what was replaced before. A text whose items were all resolved leaves nothing to do. One
with an unresolved item keeps it, with one exception: the secret policy turns a text with an unknown name
into bytes, and no later walk looks at bytes.
-/

set_option autoImplicit false

namespace ManifestSecrets

namespace Policy

open Placeholder

variable (secrets : SecretMap)

-- The field has an unresolved item that is still there after a replacement.
def Lasting (policy : Policy) (value : String) : Prop :=
  (policy ≠ .secret ∧ Missing secrets value) ∨ policy.Unsupported secrets value

def Settled (policy : Policy) : Tree → Prop
  | .text s => policy ≠ .secret ∧ tokens s = []
  | .bytes b => ∃ s, b = Text.utf8 s ∧ tokens s = []
  | _ => True

def shaped (policy : Policy) (text : String) : Tree :=
  match policy with
  | .secret => .bytes (Text.utf8 text)
  | _ => .text text

theorem lasting_unresolved (policy : Policy) (value : String) (lasting : policy.Lasting secrets value) :
    policy.Unresolved secrets value :=
  lasting.imp And.right id

-- A text that is neither resolved nor lasting is one of unknown names under the secret policy.
theorem unresolved_passing (policy : Policy) (value : String) (unresolved : policy.Unresolved secrets value)
    (passing : ¬ policy.Lasting secrets value) : policy = .secret ∧ Missing secrets value := by
  rcases unresolved with missing | unsupported
  · exact ⟨Classical.byContradiction fun shapes => passing (.inl ⟨shapes, missing⟩), missing⟩
  · exact absurd (.inr unsupported) passing

theorem tokenless_resolved (policy : Policy) (value : String) (tokenless : tokens value = []) :
    ¬ policy.Unresolved secrets value := by
  rintro (⟨n, token, -⟩ | ⟨-, -, n, token, -⟩)
  · simp [tokenless] at token
  · simp [tokenless] at token

theorem missing_partial (value : String) (missing : Missing secrets value) :
    ∀ secret, ¬ Whole secrets (cut value.toList) secret := by
  obtain ⟨other, token, absent⟩ := missing
  rintro secret ⟨-, inner, n, sole, named, found⟩
  obtain rfl : other = n := by
    rw [tokens, sole] at token
    simpa [names, (names_iff inner n).mp named] using token
  simp [absent] at found

theorem unsupported_whole (policy : Policy) (value : String) (unsupported : policy.Unsupported secrets value) :
    ∃ secret, Whole secrets (cut value.toList) secret ∧ secret.shapeName? ≠ none := by
  obtain ⟨-, alone, n, token, secret, found, noText⟩ := unsupported
  obtain ⟨inner, sole⟩ := (is_sole_iff value).mp alone
  obtain rfl : n = Placeholder.name inner := by simpa [tokens, sole, names] using token
  obtain ⟨shape, named⟩ := Option.ne_none_iff_exists'.mp noText
  exact ⟨secret, ⟨shape_not_text named, inner, _, sole, (names_iff inner _).mpr rfl, found⟩, noText⟩

theorem whole_unsupported (policy : Policy) (value : String) (secret : Json)
    (whole : Whole secrets (cut value.toList) secret) (shapes : policy ≠ .generic) (noText : secret.shapeName? ≠ none) :
    policy.Unsupported secrets value := by
  obtain ⟨-, inner, n, sole, named, found⟩ := whole
  have token : n ∈ tokens value := by simp [tokens, sole, names, (names_iff inner n).mp named]
  exact ⟨shapes, (is_sole_iff value).mpr ⟨inner, sole⟩, n, token, secret, found, noText⟩

theorem text_of_json (secret : Json) (other : ∀ s, secret ≠ .text s) :
    text? (.ofJson secret) = if secret.shapeName? = none then some secret.write else none := by
  cases secret with
  | text s => exact absurd rfl (other s)
  | _ => rfl

theorem replace_partial (policy : Policy) (key value : String)
    (others : ∀ secret, ¬ Whole secrets (cut value.toList) secret) :
    (policy.replace key value secrets).value = policy.shaped (refill secrets value) := by
  cases policy <;> simp [replace, resolve_partial key value secrets others, asText, text?, shaped, refill]

theorem replace_whole (policy : Policy) (key value : String) (secret : Json)
    (whole : Whole secrets (cut value.toList) secret) :
    (policy.replace key value secrets).value =
      if policy = .generic then .ofJson secret
      else if secret.shapeName? = none then policy.shaped secret.write else .text value := by
  have text := text_of_json secret whole.1
  by_cases noText : secret.shapeName? = none
  · rw [if_pos noText] at text
    cases policy <;> simp [replace, resolve_whole key value secrets secret whole, asText, text, shaped, noText]
  · rw [if_neg noText] at text
    cases policy <;> simp [replace, resolve_whole key value secrets secret whole, asText, text, noText]

theorem shaped_settled (policy : Policy) (text : String) (tokenless : tokens text = []) :
    (policy.shaped text).EachLeaf policy.Settled := by
  cases policy with
  | secret => exact (Tree.each_leaf_single _ _ rfl).mpr ⟨text, rfl, tokenless⟩
  | generic => exact (Tree.each_leaf_single _ _ rfl).mpr ⟨by simp, tokenless⟩
  | string => exact (Tree.each_leaf_single _ _ rfl).mpr ⟨by simp, tokenless⟩

theorem inert_settled (leaf : Tree) (inert : leaf.Inert) : Settled .generic leaf := by
  cases leaf with
  | text s => exact ⟨by simp, tokens_bracketless s inert⟩
  | bytes b => exact absurd inert id
  | _ => trivial

theorem replace_settled (bracketless : Bracketless secrets) (policy : Policy) (key value : String)
    (resolved : ¬ policy.Unresolved secrets value) :
    (policy.replace key value secrets).value.EachLeaf policy.Settled := by
  rcases whole_or_partial secrets (cut value.toList) with ⟨secret, is⟩ | others
  · have known : '<' ∉ secret.write.toList := by
      obtain ⟨-, inner, n, -, -, found⟩ := is
      exact (bracketless n secret found).1
    rw [replace_whole secrets policy key value secret is]
    by_cases shapes : policy = .generic
    · rw [if_pos shapes, shapes]
      exact fun found member => inert_settled found.2 (Tree.of_json_inert secret known found member)
    · have hasText : secret.shapeName? = none := Classical.byContradiction fun noText =>
        resolved (.inr (whole_unsupported secrets policy value secret is shapes noText))
      rw [if_neg shapes, if_pos hasText]
      exact shaped_settled policy _ (tokens_bracketless _ known)
  · rw [replace_partial secrets policy key value others]
    apply shaped_settled
    rw [tokens_refilled secrets bracketless, List.filter_eq_nil_iff]
    intro n token unknown
    refine resolved (.inl ⟨n, token, ?_⟩)
    simpa [KeyMap.contains] using unknown

theorem replace_lasting (bracketless : Bracketless secrets) (policy : Policy) (key value : String)
    (lasting : policy.Lasting secrets value) :
    ∃ s, (policy.replace key value secrets).value = .text s ∧ policy.Lasting secrets s := by
  rcases lasting with ⟨shapes, missing⟩ | unsupported
  · have others := missing_partial secrets value missing
    obtain ⟨n, token, absent⟩ := missing
    refine ⟨refill secrets value, ?_, .inl ⟨shapes, n, ?_, absent⟩⟩
    · rw [replace_partial secrets policy key value others]
      cases policy with
      | secret => exact absurd rfl shapes
      | _ => rfl
    · rw [tokens_refilled secrets bracketless, List.mem_filter]
      exact ⟨token, by simp [KeyMap.contains, absent]⟩
  · obtain ⟨secret, whole, noText⟩ := unsupported_whole secrets policy value unsupported
    refine ⟨value, ?_, .inr unsupported⟩
    rw [replace_whole secrets policy key value secret whole, if_neg unsupported.1, if_neg noText]

theorem replace_passing (bracketless : Bracketless secrets) (policy : Policy) (key value : String)
    (passing : ¬ policy.Lasting secrets value) :
    ∀ found ∈ (policy.replace key value secrets).value.leaves, ∀ s, found.2 = .text s →
      ¬ policy.Unresolved secrets s := by
  intro found member s same
  by_cases unresolved : policy.Unresolved secrets value
  · obtain ⟨rfl, missing⟩ := unresolved_passing secrets policy value unresolved passing
    rw [replace_partial secrets _ key value (missing_partial secrets value missing)] at member
    obtain rfl := List.mem_singleton.mp member
    simp at same
  · have settled := replace_settled secrets bracketless policy key value unresolved found member
    rw [same] at settled
    exact tokenless_resolved secrets policy s settled.2

theorem replace_tokenless (policy : Policy) (key value : String) (shapes : policy ≠ .secret)
    (tokenless : tokens value = []) : (policy.replace key value secrets).value = .text value := by
  have resolved := resolve_tokenless key value secrets tokenless
  cases policy with
  | secret => exact absurd rfl shapes
  | generic => rw [replace, resolved]
  | string => simp [replace, resolved, asText, text?]

end Policy

namespace Tree

variable (policy : Policy) (secrets : SecretMap)

mutual
theorem walk_fixed (key : String) (t : Tree) (settled : t.EachLeaf policy.Settled) :
    (walk policy secrets key t).value = t := by
  cases t with
  | mapping entries =>
    have inside := (each_leaf_mapping _ _).mp settled
    exact congrArg Tree.mapping (walk_entries_fixed entries inside)
  | sequence items =>
    have inside := (each_leaf_sequence _ _).mp settled
    exact congrArg Tree.sequence (walk_items_fixed key 0 items inside)
  | text s =>
    have alone := (each_leaf_single _ _ rfl).mp settled
    exact Policy.replace_tokenless secrets policy key s alone.1 alone.2
  | _ => rfl

theorem walk_items_fixed (key : String) (i : Nat) (items : List Tree)
    (settled : ∀ item ∈ items, EachLeaf policy.Settled item) :
    (walkItems policy secrets key i items).value = items := by
  cases items with
  | nil => rfl
  | cons item rest =>
    obtain ⟨first, later⟩ := List.forall_mem_cons.mp settled
    rw [walkItems, Walked.both, walk_fixed _ item first, walk_items_fixed key (i + 1) rest later]

theorem walk_entries_fixed (entries : List (String × Tree))
    (settled : ∀ entry ∈ entries, EachLeaf policy.Settled entry.2) :
    (walkEntries policy secrets entries).value = entries := by
  cases entries with
  | nil => rfl
  | cons head rest =>
    obtain ⟨name, value⟩ := head
    obtain ⟨first, later⟩ := List.forall_mem_cons.mp settled
    rw [walkEntries, Walked.both, walk_fixed name value first, walk_entries_fixed rest later]
end

end Tree

end ManifestSecrets
