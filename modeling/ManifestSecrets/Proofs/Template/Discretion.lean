import ManifestSecrets.Proofs.Manifest.Render
import ManifestSecrets.Proofs.Walk.Sink

/-!
What a replacement tells of the secrets: their names and their types. The texts that it reports are those of
the document, from before anything was put in, and of a secret it names no more than its type. So two maps
that differ only in their values are told apart by the documents, but not by errors and logs.
-/

set_option autoImplicit false

namespace ManifestSecrets

inductive JsonType where
  | null
  | bool
  | number
  | string
  | array
  | object
deriving DecidableEq, Repr

def Json.typeOf : Json → JsonType
  | .null => .null
  | .bool _ => .bool
  | .number _ => .number
  | .text _ => .string
  | .array _ => .array
  | .object _ => .object

-- The same names, each with secrets of one type.
def Alike (a b : SecretMap) : Prop :=
  ∀ n, (KeyMap.find? n a).map Json.typeOf = (KeyMap.find? n b).map Json.typeOf

theorem Json.shape_name_type (value other : Json) (same : value.typeOf = other.typeOf) :
    value.shapeName? = other.shapeName? := by
  cases value <;> cases other <;> first | rfl | cases same

variable {a b : SecretMap}

namespace Policy

theorem token_errors_alike (alike : Alike a b) (policy : Policy) (key value n : String) :
    policy.tokenErrors a key value n = policy.tokenErrors b key value n := by
  have same := alike n
  unfold tokenErrors
  cases inA : KeyMap.find? n a with
  | none =>
    rw [inA, Option.map_none, eq_comm, Option.map_eq_none_iff] at same
    rw [same]
  | some held =>
    rw [inA, Option.map_some, eq_comm, Option.map_eq_some_iff] at same
    obtain ⟨other, inB, sameType⟩ := same
    simp only [inB, Json.shape_name_type other held sameType]

theorem unresolved_alike (alike : Alike a b) (policy : Policy) (key value : String) :
    policy.unresolved a key value = policy.unresolved b key value := by
  rw [unresolved, unresolved, funext (token_errors_alike alike policy key value)]

end Policy

namespace Tree

theorem walk_entries_errors_alike (alike : Alike a b) (policy : Policy) (entries : List (String × Tree)) :
    (walkEntries policy a entries).errors = (walkEntries policy b entries).errors := by
  rw [walk_entries_errors policy a "", walk_entries_errors policy b ""]
  simp only [textErrors, Policy.replace_errors, Policy.unresolved_alike alike]

theorem walk_entries_visited_same (a b : SecretMap) (policy : Policy) (entries : List (String × Tree)) :
    (walkEntries policy a entries).visited = (walkEntries policy b entries).visited := by
  rw [walk_entries_visited, walk_entries_visited]

end Tree

namespace Template

variable (kind : Kind)

theorem walk_subtree_alike (alike : Alike a b) (d e : Document) (name : String) (policy : Policy)
    (same : d.root.find? name = e.root.find? name) :
    (walkSubtree kind a d name policy).errors = (walkSubtree kind b e name policy).errors ∧
      (walkSubtree kind a d name policy).logs = (walkSubtree kind b e name policy).logs := by
  unfold walkSubtree
  rw [same]
  split
  next entries here =>
    have errors := Tree.walk_entries_errors_alike alike policy entries
    have visited := Tree.walk_entries_visited_same a b policy entries
    simp only [errors, visited]
    exact ⟨trivial, trivial⟩
  next => exact ⟨rfl, rfl⟩
  next => exact ⟨rfl, rfl⟩

-- What is put into one sub-tree is not in the way of the next, so those still to come stay the same in both runs.
theorem walk_subtrees_alike (alike : Alike a b) (d e : Document) (subtrees : List (String × Policy))
    (distinct : (subtrees.map Prod.fst).Nodup)
    (same : ∀ subtree ∈ subtrees, d.root.find? subtree.1 = e.root.find? subtree.1) :
    (walkSubtrees kind a d subtrees).logs = (walkSubtrees kind b e subtrees).logs ∧
      (walkSubtrees kind a d subtrees).failed = (walkSubtrees kind b e subtrees).failed := by
  induction subtrees generalizing d e with
  | nil => exact ⟨rfl, rfl⟩
  | cons head rest ih =>
    obtain ⟨name, policy⟩ := head
    obtain ⟨fresh, restDistinct⟩ := List.nodup_cons.mp distinct
    obtain ⟨here, others⟩ := List.forall_mem_cons.mp same
    obtain ⟨errors, logs⟩ := walk_subtree_alike kind alike d e name policy here
    have later := ih (d.filled a name policy) (e.filled b name policy) restDistinct fun subtree member => by
      have other : subtree.1 ≠ name := by
        intro clash
        exact fresh (List.mem_map.mpr ⟨subtree, member, clash⟩)
      rw [Document.filled_find_other a d name subtree.1 policy other,
        Document.filled_find_other b e name subtree.1 policy other]
      exact others subtree member
    simp only [walkSubtrees, errors, logs, (walk_subtree_spec kind a d name policy).1,
      (walk_subtree_spec kind b e name policy).1]
    split
    · exact ⟨by rw [later.1], later.2⟩
    · exact ⟨rfl, rfl⟩

theorem replace_alike (alike : Alike a b) (d : Document) :
    (replace { kind, document := d, secrets := a }).2 = (replace { kind, document := d, secrets := b }).2 ∧
      (replace { kind, document := d, secrets := a }).1.errors =
        (replace { kind, document := d, secrets := b }).1.errors := by
  obtain ⟨logs, failed⟩ := walk_subtrees_alike kind alike d d kind.subtrees (subtrees_distinct kind) fun _ _ => rfl
  simp only [replace, logs, failed]
  split <;> exact ⟨rfl, rfl⟩

theorem replacement_discreet (document : Document) (a b : SecretMap) (alike : Alike a b) :
    (∃ e, create document a = .error e ∧ create document b = .error e) ∨
      ∃ t u, create document a = .ok t ∧ create document b = .ok u ∧ t.createdLog = u.createdLog ∧
        t.replace.2 = u.replace.2 ∧ t.replace.1.errors = u.replace.1.errors := by
  rcases create_cases document with ⟨kind, -, created⟩ | ⟨e, refused⟩
  · exact .inr ⟨_, _, created a, created b, rfl, replace_alike kind alike document⟩
  · exact .inl ⟨e, refused a, refused b⟩

def unfillable : Document :=
  ⟨[("apiVersion", .text "v1"),
    ("data", .mapping [("list", .sequence [.text "<keys>"]), ("token", .text "<gone> <pw>")]),
    ("kind", .text "Secret"), ("metadata", .mapping [("name", .text "<pw>")])]⟩

def oldSecrets : SecretMap := [("keys", .array []), ("pw", .text "s3cr3t")]

def newSecrets : SecretMap := [("keys", .array [.null]), ("pw", .text "<keys>")]

theorem replacement_discreet_unfillable :
    Alike oldSecrets newSecrets ∧ ∃ t u, create unfillable oldSecrets = .ok t ∧ create unfillable newSecrets = .ok u ∧
      t.replace.2 = u.replace.2 ∧ u.replace.1.errors =
        [.unsupportedValue "list[0]" "keys" "sequence", .missingPlaceholder "token" "<gone> <pw>" "gone"] := by
  have alike : Alike oldSecrets newSecrets := by
    intro n
    simp only [oldSecrets, newSecrets, KeyMap.find?]
    split
    · rfl
    · split <;> rfl
  rcases replacement_discreet unfillable _ _ alike with ⟨e, refused, -⟩ | ⟨t, u, created, other, -, same, -⟩
  · simp [create_declared .secret unfillable _ rfl] at refused
  · obtain rfl := Except.ok.inj other
    exact ⟨alike, t, _, created, other, same, by decide +kernel⟩

end Template

end ManifestSecrets
