import ManifestSecrets.Proofs.Json.Order
import ManifestSecrets.Proofs.Template.Settled

set_option autoImplicit false

namespace ManifestSecrets

theorem Policy.replace_ordered (policy : Policy) (key value : String) (secrets : SecretMap)
    (ordered : Json.FieldsOrdered secrets) : (policy.replace key value secrets).value.Ordered := by
  have shaped : ∀ text, (policy.shaped text).Ordered := by
    intro text
    cases policy <;> trivial
  rcases Placeholder.whole_or_partial secrets (Placeholder.cut value.toList) with ⟨secret, whole⟩ | others
  · obtain ⟨-, inner, n, -, -, found⟩ := id whole
    have inside := (Json.fields_ordered_iff secrets).mp ordered (n, secret) (KeyMap.find_mem found)
    rw [replace_whole secrets policy key value secret whole]
    split
    · exact Tree.of_json_ordered secret inside
    · split
      · exact shaped _
      · trivial
  · rw [replace_partial secrets policy key value others]
    exact shaped _

namespace Tree

variable (policy : Policy) (secrets : SecretMap)

theorem walk_entries_rise (entries : List (String × Tree)) (rises : KeyMap.Ordered entries) :
    KeyMap.Ordered (walkEntries policy secrets entries).value := by
  rwa [KeyMap.ordered_iff_keys, walk_entries_keys, ← KeyMap.ordered_iff_keys]

mutual
theorem walk_ordered (inOrder : Json.FieldsOrdered secrets) (key : String) (t : Tree) (ordered : t.Ordered) :
    (walk policy secrets key t).value.Ordered := by
  cases t with
  | mapping entries =>
    exact ⟨walk_entries_rise policy secrets entries ordered.1, walk_entries_ordered inOrder entries ordered.2⟩
  | sequence items => exact walk_items_ordered inOrder key 0 items ordered
  | text s => exact policy.replace_ordered key s secrets inOrder
  | _ => trivial

theorem walk_items_ordered (inOrder : Json.FieldsOrdered secrets) (key : String) (i : Nat) (items : List Tree)
    (ordered : ItemsOrdered items) : ItemsOrdered (walkItems policy secrets key i items).value := by
  cases items with
  | nil => trivial
  | cons item rest =>
    exact ⟨walk_ordered inOrder _ item ordered.1, walk_items_ordered inOrder key (i + 1) rest ordered.2⟩

theorem walk_entries_ordered (inOrder : Json.FieldsOrdered secrets) (entries : List (String × Tree))
    (ordered : EntriesOrdered entries) : EntriesOrdered (walkEntries policy secrets entries).value := by
  cases entries with
  | nil => trivial
  | cons head rest =>
    exact ⟨walk_ordered inOrder head.1 head.2 ordered.1, walk_entries_ordered inOrder rest ordered.2⟩
end

end Tree

namespace Document

variable (secrets : SecretMap)

theorem filled_ordered (inOrder : Json.FieldsOrdered secrets) (d : Document) (name : String) (policy : Policy)
    (ordered : d.Ordered) : (d.filled secrets name policy).Ordered := by
  rcases d.eligible_or_skipped name with ⟨entries, here⟩ | skipped
  · have inside := d.field_ordered ordered name _ here
    have walked := Tree.walk_ordered policy secrets inOrder name _ inside
    rw [filled_mapping secrets d name policy entries here]
    refine ⟨KeyMap.insert_ordered name _ d.root ordered.1, (Tree.entries_ordered_iff _).mpr fun entry member => ?_⟩
    rcases KeyMap.mem_insert member with rfl | before
    · exact walked
    · exact (Tree.entries_ordered_iff _).mp ordered.2 entry before
  · rwa [filled_skipped secrets d name policy skipped]

theorem filled_all_ordered (inOrder : Json.FieldsOrdered secrets) (d : Document) (subtrees : List (String × Policy))
    (ordered : d.Ordered) : (d.filledAll secrets subtrees).Ordered := by
  induction subtrees generalizing d with
  | nil => exact ordered
  | cons head rest ih => exact ih _ (filled_ordered secrets inOrder d head.1 head.2 ordered)

end Document

end ManifestSecrets
