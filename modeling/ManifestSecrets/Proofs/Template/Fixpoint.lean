import ManifestSecrets.Proofs.Template.Kept
import ManifestSecrets.Proofs.Template.Ordered

set_option autoImplicit false

namespace ManifestSecrets

namespace Tree

mutual
theorem to_json_settled (policy : Policy) (shapes : policy ≠ .secret) (t : Tree) (settled : t.EachLeaf policy.Settled) :
    t.toJson.EachLeaf policy.Settled := by
  cases t with
  | mapping entries =>
    rw [toJson, Json.each_leaf_object]
    exact entries_to_json_settled policy shapes entries ((each_leaf_mapping _ _).mp settled)
  | sequence items =>
    rw [toJson, Json.each_leaf_array]
    exact items_to_json_settled policy shapes items ((each_leaf_sequence _ _).mp settled)
  | bytes b =>
    have tokenless := Placeholder.tokens_bracketless _ (Text.Base64.encode_bracketless b)
    exact (each_leaf_single _ _ rfl).mpr ⟨shapes, tokenless⟩
  | _ => exact settled

theorem items_to_json_settled (policy : Policy) (shapes : policy ≠ .secret) (items : List Tree)
    (settled : ∀ item ∈ items, EachLeaf policy.Settled item) :
    ∀ item ∈ itemsToJson items, item.EachLeaf policy.Settled := by
  cases items with
  | nil => simp [itemsToJson]
  | cons item rest =>
    obtain ⟨first, later⟩ := List.forall_mem_cons.mp settled
    exact List.forall_mem_cons.mpr
      ⟨to_json_settled policy shapes item first, items_to_json_settled policy shapes rest later⟩

theorem entries_to_json_settled (policy : Policy) (shapes : policy ≠ .secret) (entries : List (String × Tree))
    (settled : ∀ entry ∈ entries, EachLeaf policy.Settled entry.2) :
    ∀ entry ∈ entriesToJson entries, entry.2.EachLeaf policy.Settled := by
  cases entries with
  | nil => simp [entriesToJson]
  | cons head rest =>
    obtain ⟨key, value⟩ := head
    obtain ⟨first, later⟩ := List.forall_mem_cons.mp settled
    exact List.forall_mem_cons.mpr
      ⟨to_json_settled policy shapes value first, entries_to_json_settled policy shapes rest later⟩
end

theorem to_json_object (t : Tree) (fields : KeyMap Json) (same : t.toJson = .object fields) :
    ∃ entries, t = .mapping entries := by
  cases t with
  | mapping entries => exact ⟨entries, rfl⟩
  | _ => simp [toJson] at same

end Tree

namespace Shape

theorem Codec.text_read (source : Option Json) (s : String)
    (reads : (Codec.required Decoder.text Json.text).Reads source s) : source = some (.text s) := by
  cases source with
  | none => simp [Codec.Reads, Codec.required] at reads
  | some v => exact congrArg some (Exact.text v s reads).symm

def Codec.OfObject {α : Type} (c : Codec α) : Prop := ∀ v a, c.decode v = .ok a → ∃ inner, v = .object inner

theorem Codec.metadata_of_object : (Codec.defaulted Metadata.decode Metadata.written {}).OfObject := by
  intro v a ok
  cases v with
  | object inner => exact ⟨inner, rfl⟩
  | _ => simp [Codec.defaulted, Metadata.decode] at ok

theorem Codec.spec_of_object : (Codec.required DeploymentSpec.decode DeploymentSpec.written).OfObject := by
  intro v a ok
  cases v with
  | object inner => exact ⟨inner, rfl⟩
  | _ => simp [Codec.required, DeploymentSpec.decode] at ok

theorem Codec.entries_of_object {α : Type} (d : Decoder α) (write : α → Json) : (Codec.entries d write).OfObject := by
  intro v a ok
  cases v with
  | object inner => exact ⟨inner, rfl⟩
  | _ => simp [Codec.entries, Decoder.map] at ok

theorem Described.slots_written {σ : Type} {d : Decoder σ} {write : σ → Json} {slots : List (Slot σ)} {others : Bool}
    {rest : σ → KeyMap Json} (described : Described d write slots others rest) (found : KeyMap Json)
    (ordered : KeyMap.Ordered found) (r : σ) (ok : d (.object found) = .ok r) :
    ∃ out, (write r).sorted = .object out ∧ KeyMap.Ordered out ∧ ∀ slot ∈ slots,
      slot.codec.Reads (KeyMap.find? slot.name found) (slot.get r) ∧
      KeyMap.find? slot.name out = (slot.written r).map Json.sorted ∧
      ∀ p : Tree → Prop, (∀ v ∈ KeyMap.find? slot.name found, v.EachLeaf p) →
        ∀ w ∈ KeyMap.find? slot.name out, w.EachLeaf p := by
  obtain ⟨reads, kept⟩ := (described.object found r).mp ok
  obtain ⟨out, written, outOrdered, slotFound, -⟩ := described.find_written r found ordered kept
  refine ⟨out, written, outOrdered, fun slot member =>
    ⟨reads slot member, slotFound slot member, fun p each w here => ?_⟩⟩
  rw [slotFound slot member] at here
  obtain ⟨v, isWritten, rfl⟩ := Option.map_eq_some_iff.mp here
  exact Json.each_leaf_sorted p v ((described.lawful slot member).leaves p _ _ (reads slot member) each v isWritten)

-- The written form of a record of a kind: the kind stays, and the sub-trees are objects with no new leaf.
def KeepsSubtrees (names : List String) (found out : KeyMap Json) : Prop :=
  (∀ kind, KeyMap.find? "kind" found = some (.text kind) → KeyMap.find? "kind" out = some (.text kind)) ∧
    ∀ name ∈ names, (∀ v ∈ KeyMap.find? name found, ∃ inner, v = .object inner) ∧
      ∀ p : Tree → Prop, (∀ v ∈ KeyMap.find? name found, v.EachLeaf p) → ∀ w ∈ KeyMap.find? name out, w.EachLeaf p

theorem Described.keeps_subtrees {σ : Type} {d : Decoder σ} {write : σ → Json} {slots : List (Slot σ)} {others : Bool}
    {rest : σ → KeyMap Json} (described : Described d write slots others rest) (getKind : σ → String)
    (kindSlot : ⟨_, "kind", .required Decoder.text .text, .whole, getKind⟩ ∈ slots) (names : List String)
    (objects : ∀ name ∈ names, ∃ slot ∈ slots, slot.name = name ∧ slot.codec.OfObject) (found : KeyMap Json)
    (ordered : KeyMap.Ordered found) (r : σ) (ok : d (.object found) = .ok r) :
    ∃ out, (write r).sorted = .object out ∧ KeyMap.Ordered out ∧ KeepsSubtrees names found out := by
  obtain ⟨out, written, outOrdered, slotWritten⟩ := described.slots_written found ordered r ok
  refine ⟨out, written, outOrdered, fun kind declared => ?_, fun name member => ?_⟩
  · obtain ⟨read, here, -⟩ := slotWritten _ kindSlot
    have same := (Codec.text_read _ _ read).symm.trans declared
    exact here.trans same
  · obtain ⟨slot, inSlots, rfl, object⟩ := objects name member
    obtain ⟨read, -, leaves⟩ := slotWritten slot inSlots
    refine ⟨fun v here => ?_, leaves⟩
    rw [here] at read
    exact object v _ read

end Shape

namespace Exported

open Shape

theorem keeps_subtrees (kind : Kind) (found : KeyMap Json) (ordered : KeyMap.Ordered found) (e : Exported)
    (ok : decode kind (.object found) = .ok e) :
    ∃ out, e.written.sorted = .object out ∧ KeyMap.Ordered out ∧
      KeepsSubtrees (kind.subtrees.map Prod.fst) found out := by
  cases kind with
  | deployment =>
    obtain ⟨r, decoded, rfl⟩ := map_ok ok
    refine Deployment.described.keeps_subtrees Deployment.kind (by simp [Deployment.slots]) _ ?_ found ordered r decoded
    simp only [Kind.subtrees, List.map_cons, List.map_nil, List.forall_mem_cons]
    exact ⟨⟨_, .tail _ (.tail _ (.head _)), rfl, Codec.metadata_of_object⟩,
      ⟨_, .tail _ (.tail _ (.tail _ (.head _))), rfl, Codec.spec_of_object⟩, List.forall_mem_nil _⟩
  | secret =>
    obtain ⟨r, decoded, rfl⟩ := map_ok ok
    refine Secret.described.keeps_subtrees Secret.kind (by simp [Secret.slots]) _ ?_ found ordered r decoded
    simp only [Kind.subtrees, List.map_cons, List.map_nil, List.forall_mem_cons]
    exact ⟨⟨_, .tail _ (.tail _ (.head _)), rfl, Codec.metadata_of_object⟩,
      ⟨_, .tail _ (.tail _ (.tail _ (.head _))), rfl, Codec.entries_of_object _ _⟩,
      ⟨_, .tail _ (.tail _ (.tail _ (.tail _ (.head _)))), rfl, Codec.entries_of_object _ _⟩, List.forall_mem_nil _⟩
  | configMap =>
    obtain ⟨r, decoded, rfl⟩ := map_ok ok
    refine ConfigMap.described.keeps_subtrees ConfigMap.kind (by simp [ConfigMap.slots]) _ ?_ found ordered r decoded
    simp only [Kind.subtrees, List.map_cons, List.map_nil, List.forall_mem_cons]
    exact ⟨⟨_, .tail _ (.tail _ (.head _)), rfl, Codec.metadata_of_object⟩,
      ⟨_, .tail _ (.tail _ (.tail _ (.head _))), rfl, Codec.entries_of_object _ _⟩, List.forall_mem_nil _⟩

end Exported

theorem Kind.subtrees_shape (kind : Kind) (other : kind ≠ .secret) :
    ∀ subtree ∈ kind.subtrees, subtree.2 ≠ .secret := by
  cases kind with
  | secret => exact absurd rfl other
  | _ => simp [subtrees]

namespace Template

theorem settled_field (t : Template) (settled : t.Settled) (name : String) (policy : Policy)
    (member : (name, policy) ∈ t.kind.subtrees) (shapes : policy ≠ .secret) (inner : KeyMap Json)
    (here : (t.document.root.find? name).map Tree.toJson = some (.object inner)) :
    (Json.object inner).EachLeaf policy.Settled := by
  obtain ⟨u, there, same⟩ := Option.map_eq_some_iff.mp here
  obtain ⟨entries, rfl⟩ := Tree.to_json_object u inner same
  have leaves := settled (name, policy) member
  rw [Document.leaves_mapping t.document name entries there] at leaves
  rw [← same]
  exact Tree.to_json_settled policy shapes _ leaves

theorem written_settled (t : Template) (other : t.kind ≠ .secret) (declared : t.document.kind? = some t.kind.name)
    (ordered : t.document.Ordered) (settled : t.Settled) (e : Exported)
    (decoded : Exported.decode t.kind t.document.toJson = .ok e) :
    ∃ d : Document, Document.ofJson e.written.sorted = .ok d ∧ d.kind? = some t.kind.name ∧ KeyMap.Ordered d.root ∧
      Exported.decode t.kind d.toJson = .ok e ∧ ∀ secrets, Settled { kind := t.kind, document := d, secrets } := by
  have jsonOrdered : t.document.toJson.Ordered := Tree.to_json_ordered _ ordered
  have again := (Exported.faithful t.kind).again _ e jsonOrdered decoded
  have object := t.document.to_json_root
  rw [object] at decoded jsonOrdered
  obtain ⟨out, written, outOrdered, kindKept, subtrees⟩ :=
    Exported.keeps_subtrees t.kind _ jsonOrdered.1 e decoded
  refine ⟨⟨Tree.entriesOfJson out⟩, by rw [written]; rfl, ?_, Tree.entries_of_json_rise out outOrdered, ?_, ?_⟩
  · have kind := (Document.kind_iff t.document _).mp declared
    have kindWritten := kindKept t.kind.name (by rw [KeyMap.find_map_values, kind]; rfl)
    rw [Document.kind_iff, Tree.entries_of_json, KeyMap.find_map_values, kindWritten]
    rfl
  · rwa [written, ← Tree.entriesToJson_entriesOfJson out] at again
  · intro secrets subtree member leaf inside
    obtain ⟨name, policy⟩ := subtree
    obtain ⟨objects, leaves⟩ := subtrees name (List.mem_map_of_mem member)
    have shapes := t.kind.subtrees_shape other (name, policy) member
    rcases Document.eligible_or_skipped ⟨Tree.entriesOfJson out⟩ name with ⟨entries, here⟩ | skipped
    · rw [Document.leaves_mapping _ name entries here] at inside
      rw [Tree.entries_of_json, KeyMap.find_map_values] at here
      obtain ⟨w, isWritten, same⟩ := Option.map_eq_some_iff.mp here
      rw [← same] at inside
      refine leaves policy.Settled (fun v found => ?_) w isWritten leaf inside
      obtain ⟨inner, rfl⟩ := objects v found
      rw [KeyMap.find_map_values] at found
      exact t.settled_field settled name policy member shapes inner found
    · rw [Document.leaves_skipped _ name skipped] at inside
      exact absurd inside List.not_mem_nil

theorem rendering_fixpoint (kind : Kind) (document : Document) (secrets : SecretMap) (other : kind ≠ .secret)
    (declared : document.kind? = some kind.name) (decoded : document.Decoded)
    (bracketless : Placeholder.Bracketless secrets) (inOrder : Json.FieldsOrdered secrets) :
    ∃ t, create document secrets = .ok t ∧ (t.replace.2.2 = .ok () → ∀ e, t.replace.1.exported = .ok e →
      ∀ others, ∃ d again, Document.ofJson e.written.sorted = .ok d ∧ create d others = .ok again ∧
        again.replace.2.2 = .ok () ∧ again.replace.1.exported = .ok e) := by
  refine ⟨_, create_declared kind document secrets declared, fun ok e exported others => ?_⟩
  have clear := (replace_ok_iff _).mp ok
  have settled := clear_settles { kind, document, secrets } bracketless decoded clear
  have shaped := ((exported_ok_iff _ e).mp exported).2
  rw [(replace_clear _ clear).2] at settled shaped
  have declaredAfter : (document.filledAll secrets kind.subtrees).kind? = some kind.name := by
    rw [Document.kind_iff] at declared ⊢
    rwa [Document.filled_all_find_other secrets document _ "kind" (by cases kind <;> decide)]
  obtain ⟨d, read, kindRead, rises, same, tokenless⟩ := written_settled _ other declaredAfter
    (Document.filled_all_ordered secrets inOrder document _ decoded.ordered) settled e shaped
  obtain ⟨okAgain, after⟩ := settled_fixed { kind, document := d, secrets := others } rises (tokenless others)
  refine ⟨d, _, read, create_declared kind d others kindRead, okAgain, ?_⟩
  rw [after]
  exact (exported_ok_iff _ e).mpr ⟨rfl, same⟩

def positionalDeployment : Document :=
  ⟨[("apiVersion", .text "apps/v1"), ("kind", .text "Deployment"),
    ("metadata", .mapping [("labels", .mapping []), ("name", .text "<app>-<app>"), ("namespace", .null)]),
    ("spec", .mapping [("replicas", .text "<replicas>"), ("selector", .sequence [.mapping [("app", .text "<app>")]]),
      ("strategy", .text "<strategy>"), ("template", .mapping [("metadata", .null), ("spec", .text "a < b")])]),
    ("status", .null)]⟩

def positionalSecrets : SecretMap :=
  [("app", .text "web"), ("replicas", .ofUnsigned 3), ("strategy", .object [("type", .text "Recreate")])]

theorem rendering_fixpoint_positional :
    positionalDeployment.kind? = some Kind.deployment.name ∧ positionalDeployment.Decoded ∧
      Placeholder.Bracketless positionalSecrets ∧ Json.FieldsOrdered positionalSecrets ∧
      ∃ t e, create positionalDeployment positionalSecrets = .ok t ∧ t.replace.2.2 = .ok () ∧
        t.replace.1.exported = .ok e ∧
        e.toYaml = "apiVersion: apps/v1\nkind: Deployment\nmetadata:\n  name: web-web\nspec:\n  replicas: 3\n" ++
          "  selector:\n    matchLabels:\n      app: web\n  template:\n    spec: a < b\n  strategy:\n    type: Recreate\n" ∧
        ∃ d again, Document.ofJson e.written.sorted = .ok d ∧ create d [("app", .null)] = .ok again ∧
          again.replace.1.exported = .ok e := by
  have declared : positionalDeployment.kind? = some Kind.deployment.name := by decide
  have decoded : positionalDeployment.Decoded := by
    constructor
    · simp only [positionalDeployment, Tree.Ordered, Tree.EntriesOrdered, Tree.ItemsOrdered, KeyMap.Ordered]
      decide
    · simp [positionalDeployment, Tree.EachLeaf, Tree.leaves, Tree.entryLeaves, Tree.itemLeaves, Tree.within,
        Tree.NoBytes]
  have bracketless : Placeholder.Bracketless positionalSecrets := by
    intro n secret found
    rcases List.mem_cons.mp (KeyMap.find_mem found) with same | member
    · obtain ⟨-, rfl⟩ := Prod.mk.inj same
      decide
    · rcases List.mem_cons.mp member with same | member
      · obtain ⟨-, rfl⟩ := Prod.mk.inj same
        decide
      · obtain ⟨-, rfl⟩ := Prod.mk.inj (List.mem_singleton.mp member)
        decide
  have inOrder : Json.FieldsOrdered positionalSecrets := by
    simp [positionalSecrets, Json.ofUnsigned, Json.FieldsOrdered, Json.Ordered, KeyMap.Ordered]
  obtain ⟨t, created, fixpoint⟩ := rendering_fixpoint .deployment positionalDeployment positionalSecrets (by decide)
    declared decoded bracketless inOrder
  obtain rfl := Except.ok.inj ((create_declared .deployment _ positionalSecrets declared).symm.trans created)
  have ok : (replace ⟨.deployment, positionalDeployment, positionalSecrets, [], false⟩).2.2 = .ok () :=
    (replace_ok_iff _).mpr (by decide +kernel)
  have yaml : (replace ⟨.deployment, positionalDeployment, positionalSecrets, [], false⟩).1.toYaml.toOption =
      some ("apiVersion: apps/v1\nkind: Deployment\nmetadata:\n  name: web-web\nspec:\n  replicas: 3\n" ++
        "  selector:\n    matchLabels:\n      app: web\n  template:\n    spec: a < b\n  strategy:\n    type: Recreate\n") := by
    decide +kernel
  cases exported : (replace ⟨.deployment, positionalDeployment, positionalSecrets, [], false⟩).1.exported with
  | error cause => simp [toYaml, exported, Except.map, Except.toOption] at yaml
  | ok e =>
    simp only [toYaml, exported, Except.map, Except.toOption, Option.some.injEq] at yaml
    obtain ⟨d, again, read, createdAgain, -, same⟩ := fixpoint ok e exported [("app", .null)]
    exact ⟨declared, decoded, bracketless, inOrder, _, e, created, ok, exported, yaml, d, again, read, createdAgain, same⟩

end Template

end ManifestSecrets
