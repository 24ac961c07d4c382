import ManifestSecrets.Proofs.Shape.Probe
import ManifestSecrets.Proofs.Shape.Records
import ManifestSecrets.Shape.ConfigMap
import ManifestSecrets.Shape.Deployment
import ManifestSecrets.Shape.Secret

set_option autoImplicit false

namespace ManifestSecrets.Shape

open Decoder

theorem fault_two_items {γ : Type} (first second : Member) (f : Option first.value → Option second.value → γ)
    (items : List Json) :
    fault? (positions (do
      let a ← next? first.decoder
      let b ← next? second.decoder
      return f a b) items) = Member.itemFault items.length [first, second] items := by
  cases items with
  | nil => rfl
  | cons v rest =>
    simp only [positions, StateT.run_bind, next_some_cons, Member.itemFault]
    cases first.decoder v with
    | error e => rfl
    | ok a =>
      cases rest with
      | nil => rfl
      | cons w others =>
        change fault? ((((next? second.decoder).run (w :: others) >>= _) >>= _)) = _
        rw [next_some_cons]
        cases decoded : second.decoder w with
        | error e =>
          simp only [Member.itemFault, decoded]
          rfl
        | ok b =>
          simp only [Member.itemFault, decoded]
          cases others <;> rfl

namespace Metadata

def members : List Member :=
  [⟨"annotations", .map .text⟩, ⟨"labels", .map .text⟩, ⟨"name", .optional .text⟩, ⟨"namespace", .optional .text⟩]

theorem fault_object (fields : KeyMap Json) :
    fault? (decode (.object fields)) = Member.recordFault [] fields members :=
  fault_field _ _ _ _ _ fun _ _ => fault_field _ _ _ _ _ fun _ _ => fault_field _ _ _ _ _ fun _ _ =>
    fault_field _ _ _ _ _ fun _ _ => rfl

def probe : Probe decode :=
  .record decode "struct ObjectMeta" members [] fault_object fun v other => by
    cases v <;> first | rfl | exact absurd rfl other

end Metadata

namespace LabelSelector

def expressions : Member := ⟨"matchExpressions", .list⟩

def labels : Member := ⟨"matchLabels", .map .text⟩

theorem fault_object (fields : KeyMap Json) :
    fault? (decode (.object fields)) = Member.recordFault [] fields [expressions, labels] :=
  fault_field _ _ _ _ _ fun _ _ => fault_field _ _ _ _ _ fun _ _ => rfl

theorem fault_array (items : List Json) :
    fault? (decode (.array items)) = Member.itemFault items.length [labels, expressions] items :=
  fault_two_items labels expressions (fun l e => (⟨l.getD [], e.getD []⟩ : LabelSelector)) items

def probe : Probe decode :=
  .positionalRecord decode "struct LabelSelector" [expressions, labels] [labels, expressions] fault_object fault_array
    fun v noObject noArray => by
      cases v <;> first | rfl | exact absurd rfl noObject | exact absurd rfl noArray

end LabelSelector

namespace PodTemplate

def metadataMember : Member := ⟨"metadata", .optional Metadata.probe⟩

def specMember : Member := ⟨"spec", .optional .value⟩

theorem fault_object (fields : KeyMap Json) :
    fault? (decode (.object fields)) = Member.recordFault [] fields [metadataMember, specMember] :=
  fault_field _ _ _ _ _ fun _ _ => fault_field _ _ _ _ _ fun _ _ => rfl

theorem fault_array (items : List Json) :
    fault? (decode (.array items)) = Member.itemFault items.length [metadataMember, specMember] items :=
  fault_two_items metadataMember specMember (fun m s => (⟨m.join, s.join⟩ : PodTemplate)) items

def probe : Probe decode :=
  .positionalRecord decode "struct PodTemplateSpec" [metadataMember, specMember] [metadataMember, specMember]
    fault_object fault_array fun v noObject noArray => by
      cases v <;> first | rfl | exact absurd rfl noObject | exact absurd rfl noArray

end PodTemplate

namespace DeploymentSpec

def members : List Member :=
  [⟨"replicas", .optional (.integer "i32" (-2147483648) 2147483647)⟩, ⟨"selector", LabelSelector.probe⟩,
    ⟨"template", PodTemplate.probe⟩]

theorem fault_object (fields : KeyMap Json) :
    fault? (decode (.object fields)) = Member.recordFault ["selector", "template"] fields members :=
  fault_field _ _ _ _ _ fun _ _ => fault_field _ _ _ _ _ fun selector hasSelector =>
    fault_field _ _ _ _ _ fun template hasTemplate =>
      fault_required fields "selector" selector hasSelector _ _ fun _ =>
        fault_required fields "template" template hasTemplate _ _ fun _ => rfl

def probe : Probe decode :=
  .record decode "struct DeploymentSpec" members ["selector", "template"] fault_object fun v other => by
    cases v <;> first | rfl | exact absurd rfl other

end DeploymentSpec

namespace Deployment

def members : List Member :=
  [⟨"apiVersion", .text⟩, ⟨"kind", .text⟩, ⟨"metadata", Metadata.probe⟩, ⟨"spec", DeploymentSpec.probe⟩,
    ⟨"status", .optional .value⟩]

def required : List String := ["apiVersion", "kind", "spec"]

theorem fault_object (fields : KeyMap Json) :
    fault? (decode (.object fields)) = Member.recordFault required fields members :=
  fault_field _ _ _ _ _ fun apiVersion hasVersion => fault_field _ _ _ _ _ fun kind hasKind =>
    fault_field _ _ _ _ _ fun _ _ => fault_field _ _ _ _ _ fun spec hasSpec => fault_field _ _ _ _ _ fun _ _ =>
      fault_required fields "apiVersion" apiVersion hasVersion _ _ fun _ =>
        fault_required fields "kind" kind hasKind _ _ fun _ =>
          fault_required fields "spec" spec hasSpec _ _ fun _ => rfl

end Deployment

namespace Secret

def members : List Member :=
  [⟨"apiVersion", .text⟩, ⟨"data", .map .bytes⟩, ⟨"immutable", .optional .bool⟩, ⟨"kind", .text⟩,
    ⟨"metadata", Metadata.probe⟩, ⟨"stringData", .map .text⟩, ⟨"type", .optional .text⟩]

def required : List String := ["apiVersion", "kind"]

theorem fault_object (fields : KeyMap Json) :
    fault? (decode (.object fields)) = Member.recordFault required fields members :=
  fault_field _ _ _ _ _ fun apiVersion hasVersion => fault_field _ _ _ _ _ fun _ _ =>
    fault_field _ _ _ _ _ fun _ _ => fault_field _ _ _ _ _ fun kind hasKind => fault_field _ _ _ _ _ fun _ _ =>
      fault_field _ _ _ _ _ fun _ _ => fault_field _ _ _ _ _ fun _ _ =>
        fault_required fields "apiVersion" apiVersion hasVersion _ _ fun _ =>
          fault_required fields "kind" kind hasKind _ _ fun _ => rfl

end Secret

namespace ConfigMap

def members : List Member :=
  [⟨"apiVersion", .text⟩, ⟨"binaryData", .map .bytes⟩, ⟨"data", .map .text⟩, ⟨"immutable", .optional .bool⟩,
    ⟨"kind", .text⟩, ⟨"metadata", Metadata.probe⟩]

def required : List String := ["apiVersion", "kind"]

theorem fault_object (fields : KeyMap Json) :
    fault? (decode (.object fields)) = Member.recordFault required fields members :=
  fault_field _ _ _ _ _ fun apiVersion hasVersion => fault_field _ _ _ _ _ fun _ _ =>
    fault_field _ _ _ _ _ fun _ _ => fault_field _ _ _ _ _ fun _ _ => fault_field _ _ _ _ _ fun kind hasKind =>
      fault_field _ _ _ _ _ fun _ _ => fault_required fields "apiVersion" apiVersion hasVersion _ _ fun _ =>
        fault_required fields "kind" kind hasKind _ _ fun _ => rfl

end ConfigMap

end ManifestSecrets.Shape
