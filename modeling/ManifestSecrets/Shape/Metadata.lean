import ManifestSecrets.Shape.Decoder

set_option autoImplicit false

namespace ManifestSecrets.Shape

structure Metadata where
  name : Option String := none
  namespaceName : Option String := none
  labels : KeyMap String := []
  annotations : KeyMap String := []
  others : KeyMap Json := []
deriving Inhabited

namespace Metadata

open Decoder

def known : List String := ["name", "namespace", "labels", "annotations"]

def decode : Decoder Metadata
  | .object fields => do
      let annotations ← field? fields "annotations" (map text)
      let labels ← field? fields "labels" (map text)
      let name ← field? fields "name" (optional text)
      let namespaceName ← field? fields "namespace" (optional text)
      return {
        name := name.join, namespaceName := namespaceName.join, labels := labels.getD []
        annotations := annotations.getD [], others := Decoder.others known fields }
  | other => .error (.wrongType other "struct ObjectMeta")

def written (m : Metadata) : Json :=
  .object (field "name" (m.name.map .text) ++ field "namespace" (m.namespaceName.map .text)
    ++ mapField "labels" .text m.labels ++ mapField "annotations" .text m.annotations ++ m.others)

end Metadata

end ManifestSecrets.Shape
