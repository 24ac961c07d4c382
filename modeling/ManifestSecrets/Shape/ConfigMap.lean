import ManifestSecrets.Shape.Metadata

set_option autoImplicit false

namespace ManifestSecrets.Shape

structure ConfigMap where
  apiVersion : String
  kind : String
  metadata : Metadata
  data : KeyMap String
  binaryData : KeyMap (List UInt8)
  immutable : Option Bool

namespace ConfigMap

open Decoder

def expected : String := "struct ConfigMap with 6 elements"

def ofPositions : Positional ConfigMap := do
  let apiVersion ← next 0 expected text
  let kind ← next 1 expected text
  let metadata ← next? Metadata.decode
  let data ← next? (map text)
  let binaryData ← next? (map bytes)
  let immutable ← next? (optional bool)
  return {
    apiVersion, kind, metadata := metadata.getD {}, data := data.getD []
    binaryData := binaryData.getD [], immutable := immutable.join }

def decode : Decoder ConfigMap
  | .object fields => do
      let apiVersion ← field? fields "apiVersion" text
      let binaryData ← field? fields "binaryData" (map bytes)
      let data ← field? fields "data" (map text)
      let immutable ← field? fields "immutable" (optional bool)
      let kind ← field? fields "kind" text
      let metadata ← field? fields "metadata" Metadata.decode
      return {
        apiVersion := ← required "apiVersion" apiVersion, kind := ← required "kind" kind
        metadata := metadata.getD {}, data := data.getD [], binaryData := binaryData.getD []
        immutable := immutable.join }
  | .array items => positions ofPositions items
  | other => .error (.wrongType other "struct ConfigMap")

def written (c : ConfigMap) : Json :=
  .object ([("apiVersion", .text c.apiVersion), ("kind", .text c.kind), ("metadata", c.metadata.written)]
    ++ mapField "data" .text c.data ++ mapField "binaryData" bytesJson c.binaryData
    ++ field "immutable" (c.immutable.map .bool))

end ConfigMap

end ManifestSecrets.Shape
