import ManifestSecrets.Shape.Metadata

set_option autoImplicit false

namespace ManifestSecrets.Shape

open Decoder

structure LabelSelector where
  matchLabels : KeyMap String
  matchExpressions : List Json

structure PodTemplate where
  metadata : Option Metadata
  spec : Option Json

structure DeploymentSpec where
  replicas : Option Integer64
  selector : LabelSelector
  template : PodTemplate
  others : KeyMap Json

structure Deployment where
  apiVersion : String
  kind : String
  metadata : Metadata
  spec : DeploymentSpec
  status : Option Json

namespace LabelSelector

def ofPositions : Positional LabelSelector := do
  let matchLabels ← next? (map text)
  let matchExpressions ← next? list
  return ⟨matchLabels.getD [], matchExpressions.getD []⟩

def decode : Decoder LabelSelector
  | .object fields => do
      let matchExpressions ← field? fields "matchExpressions" list
      let matchLabels ← field? fields "matchLabels" (map text)
      return ⟨matchLabels.getD [], matchExpressions.getD []⟩
  | .array items => positions ofPositions items
  | other => .error (.wrongType other "struct LabelSelector")

def written (s : LabelSelector) : Json :=
  .object (mapField "matchLabels" .text s.matchLabels
    ++ field "matchExpressions" (if s.matchExpressions.isEmpty then none else some (.array s.matchExpressions)))

end LabelSelector

namespace PodTemplate

def ofPositions : Positional PodTemplate := do
  let metadata ← next? (optional Metadata.decode)
  let spec ← next? (optional value)
  return ⟨metadata.join, spec.join⟩

def decode : Decoder PodTemplate
  | .object fields => do
      let metadata ← field? fields "metadata" (optional Metadata.decode)
      let spec ← field? fields "spec" (optional value)
      return ⟨metadata.join, spec.join⟩
  | .array items => positions ofPositions items
  | other => .error (.wrongType other "struct PodTemplateSpec")

def written (t : PodTemplate) : Json :=
  .object (field "metadata" (t.metadata.map Metadata.written) ++ field "spec" t.spec)

end PodTemplate

namespace DeploymentSpec

def known : List String := ["replicas", "selector", "template"]

def replicaCount : Decoder Integer64 := integer "i32" (-2147483648) 2147483647

def decode : Decoder DeploymentSpec
  | .object fields => do
      let replicas ← field? fields "replicas" (optional replicaCount)
      let selector ← field? fields "selector" LabelSelector.decode
      let template ← field? fields "template" PodTemplate.decode
      return {
        replicas := replicas.join, selector := ← required "selector" selector
        template := ← required "template" template, others := Decoder.others known fields }
  | other => .error (.wrongType other "struct DeploymentSpec")

def written (s : DeploymentSpec) : Json :=
  .object (field "replicas" (s.replicas.map fun n => .number (.integer n))
    ++ [("selector", s.selector.written), ("template", s.template.written)] ++ s.others)

end DeploymentSpec

namespace Deployment

def expected : String := "struct Deployment with 5 elements"

def ofPositions : Positional Deployment := do
  let apiVersion ← next 0 expected text
  let kind ← next 1 expected text
  let metadata ← next? Metadata.decode
  let spec ← next 3 expected DeploymentSpec.decode
  let status ← next? (optional value)
  return { apiVersion, kind, metadata := metadata.getD {}, spec, status := status.join }

def decode : Decoder Deployment
  | .object fields => do
      let apiVersion ← field? fields "apiVersion" text
      let kind ← field? fields "kind" text
      let metadata ← field? fields "metadata" Metadata.decode
      let spec ← field? fields "spec" DeploymentSpec.decode
      let status ← field? fields "status" (optional value)
      return {
        apiVersion := ← required "apiVersion" apiVersion, kind := ← required "kind" kind
        metadata := metadata.getD {}, spec := ← required "spec" spec, status := status.join }
  | .array items => positions ofPositions items
  | other => .error (.wrongType other "struct Deployment")

def written (d : Deployment) : Json :=
  .object ([("apiVersion", .text d.apiVersion), ("kind", .text d.kind), ("metadata", d.metadata.written),
    ("spec", d.spec.written)] ++ field "status" d.status)

end Deployment

end ManifestSecrets.Shape
