import ManifestSecrets.Proofs.Policy
import ManifestSecrets.Proofs.Walk

set_option autoImplicit false

namespace ManifestSecrets

-- Each name has the same secret in both maps, or none in either.
def AgreeOn (names : List String) (a b : SecretMap) : Prop :=
  ∀ n ∈ names, KeyMap.find? n a = KeyMap.find? n b

variable {a b : SecretMap}

namespace Placeholder

theorem agree_literal (chars : List Char) (rest : List Piece)
    (agree : AgreeOn (names (.literal chars :: rest)) a b) : AgreeOn (names rest) a b :=
  agree

theorem agree_token (inner : List Char) (rest : List Piece) (agree : AgreeOn (names (.token inner :: rest)) a b) :
    KeyMap.find? (name inner) a = KeyMap.find? (name inner) b ∧ AgreeOn (names rest) a b :=
  List.forall_mem_cons.mp agree

theorem replaced_agree (pieces : List Piece) (agree : AgreeOn (names pieces) a b) :
    pieces.map (Piece.replaced a) = pieces.map (Piece.replaced b) := by
  induction pieces with
  | nil => rfl
  | cons head rest ih =>
    cases head with
    | literal chars =>
      have later := ih (agree_literal chars rest agree)
      simp only [List.map_cons, Piece.replaced, later]
    | token inner =>
      obtain ⟨here, others⟩ := agree_token inner rest agree
      have later := ih others
      simp only [List.map_cons, Piece.replaced, here, later]

theorem missing_agree (key value : String) (pieces : List Piece) (agree : AgreeOn (names pieces) a b) :
    missing key value a pieces = missing key value b pieces := by
  have same : (names pieces).filter (fun n => !KeyMap.contains n a) =
      (names pieces).filter (fun n => !KeyMap.contains n b) := by
    apply List.filter_congr
    intro n token
    rw [KeyMap.contains, KeyMap.contains, agree n token]
  rw [missing, missing, same]

theorem whole_agree (pieces : List Piece) (agree : AgreeOn (names pieces) a b) :
    whole? a pieces = whole? b pieces := by
  unfold whole?
  split
  next inner =>
    have here := (agree_token inner [] agree).1
    rw [here]
  next => rfl

theorem resolve_agree (key value : String) (agree : AgreeOn (tokens value) a b) :
    resolve key value a = resolve key value b := by
  have whole := whole_agree (cut value.toList) agree
  have texts := replaced_agree (cut value.toList) agree
  have errors := missing_agree key value (cut value.toList) agree
  simp only [resolve, whole, texts, errors]

end Placeholder

theorem Policy.replace_agree (policy : Policy) (key value : String) (agree : AgreeOn (Placeholder.tokens value) a b) :
    policy.replace key value a = policy.replace key value b := by
  simp only [Policy.replace, Placeholder.resolve_agree key value agree]

namespace Tree

def AgreeOnLeaf (a b : SecretMap) : Tree → Prop
  | .text s => AgreeOn (Placeholder.tokens s) a b
  | _ => True

variable (policy : Policy)

mutual
theorem walk_agree (key : String) (t : Tree) (agree : t.EachLeaf (AgreeOnLeaf a b)) :
    walk policy a key t = walk policy b key t := by
  cases t with
  | mapping entries =>
    have inside := (each_leaf_mapping _ entries).mp agree
    rw [walk, walk, walk_entries_agree entries inside]
  | sequence items =>
    have inside := (each_leaf_sequence _ items).mp agree
    rw [walk, walk, walk_items_agree key 0 items inside]
  | text s =>
    have alone := (each_leaf_single _ (.text s) rfl).mp agree
    simp only [walk, Policy.replace_agree policy key s alone]
  | _ => rfl

theorem walk_items_agree (key : String) (i : Nat) (items : List Tree)
    (agree : ∀ item ∈ items, EachLeaf (AgreeOnLeaf a b) item) :
    walkItems policy a key i items = walkItems policy b key i items := by
  cases items with
  | nil => rfl
  | cons item rest =>
    obtain ⟨first, later⟩ := List.forall_mem_cons.mp agree
    rw [walkItems, walkItems, walk_agree _ item first, walk_items_agree key (i + 1) rest later]

theorem walk_entries_agree (entries : List (String × Tree))
    (agree : ∀ entry ∈ entries, EachLeaf (AgreeOnLeaf a b) entry.2) :
    walkEntries policy a entries = walkEntries policy b entries := by
  cases entries with
  | nil => rfl
  | cons head rest =>
    obtain ⟨name, value⟩ := head
    obtain ⟨first, later⟩ := List.forall_mem_cons.mp agree
    rw [walkEntries, walkEntries, walk_agree name value first, walk_entries_agree rest later]
end

end Tree

end ManifestSecrets
