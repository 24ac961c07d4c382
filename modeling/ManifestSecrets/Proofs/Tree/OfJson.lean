import ManifestSecrets.Json.Writer
import ManifestSecrets.Placeholder.Resolve
import ManifestSecrets.Proofs.Placeholder.Refill
import ManifestSecrets.Proofs.Tree.Leaves

set_option autoImplicit false

namespace ManifestSecrets

namespace Json

theorem quote_opens (s : String) (opens : '<' ∈ s.toList) : '<' ∈ (quote s).toList := by
  have escaped : '<' ∈ (String.join (s.toList.map escapeChar)).toList := by
    rw [String.toList_join, List.mem_flatMap]
    exact ⟨escapeChar '<', List.mem_map_of_mem opens, by decide⟩
  rw [quote, String.toList_append, String.toList_append]
  exact List.mem_append_left _ (List.mem_append_right _ escaped)

theorem items_bracketless (items : List Json) (bracketless : '<' ∉ (write (.array items)).toList) :
    '<' ∉ (writeItems items).toList := by
  cases items with
  | nil => simp [writeItems]
  | cons item rest => simpa [write, writeItems] using bracketless

theorem fields_bracketless (fields : List (String × Json)) (bracketless : '<' ∉ (write (.object fields)).toList) :
    '<' ∉ (writeFields fields).toList := by
  cases fields with
  | nil => simp [writeFields]
  | cons head rest => simpa [write, writeFields] using bracketless

end Json

namespace Tree

def Inert : Tree → Prop
  | .text s => '<' ∉ s.toList
  | .bytes _ => False
  | _ => True

mutual
theorem of_json_inert (value : Json) (bracketless : '<' ∉ value.write.toList) : (ofJson value).EachLeaf Inert := by
  cases value with
  | object fields =>
    rw [ofJson, each_leaf_mapping]
    exact entries_of_json_inert fields (Json.fields_bracketless fields bracketless)
  | array items =>
    rw [ofJson, each_leaf_sequence]
    exact items_of_json_inert items (Json.items_bracketless items bracketless)
  | text s =>
    rw [ofJson, each_leaf_single _ _ rfl]
    exact fun opens => bracketless (Json.quote_opens s opens)
  | number n => exact (each_leaf_single _ _ rfl).mpr trivial
  | bool b => exact (each_leaf_single _ _ rfl).mpr trivial
  | null => exact (each_leaf_single _ _ rfl).mpr trivial

theorem items_of_json_inert (items : List Json) (bracketless : '<' ∉ (Json.writeItems items).toList) :
    ∀ item ∈ itemsOfJson items, EachLeaf Inert item := by
  cases items with
  | nil => simp [itemsOfJson]
  | cons item rest =>
    simp only [Json.writeItems, String.toList_append, List.mem_append, not_or] at bracketless
    rw [itemsOfJson, List.forall_mem_cons]
    exact ⟨of_json_inert item bracketless.1.2, items_of_json_inert rest bracketless.2⟩

theorem entries_of_json_inert (fields : List (String × Json))
    (bracketless : '<' ∉ (Json.writeFields fields).toList) :
    ∀ entry ∈ entriesOfJson fields, EachLeaf Inert entry.2 := by
  cases fields with
  | nil => simp [entriesOfJson]
  | cons head rest =>
    obtain ⟨key, value⟩ := head
    simp only [Json.writeFields, String.toList_append, List.mem_append, not_or] at bracketless
    rw [entriesOfJson, List.forall_mem_cons]
    exact ⟨of_json_inert value bracketless.1.2, entries_of_json_inert rest bracketless.2⟩
end

end Tree

namespace Placeholder

theorem inserted_bracketless (secret : Json) (bracketless : '<' ∉ secret.write.toList) :
    '<' ∉ (insertedText secret).toList := by
  cases secret with
  | text s => exact fun opens => bracketless (Json.quote_opens s opens)
  | _ => exact bracketless

theorem tokens_refilled (secrets : SecretMap) (bracketless : Bracketless secrets) (value : String) :
    tokens (refill secrets value) = (tokens value).filter fun n => !KeyMap.contains n secrets :=
  tokens_resolved secrets (fun n secret found => inserted_bracketless secret (bracketless n secret found).1) value

end Placeholder

end ManifestSecrets
