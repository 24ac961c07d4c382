import ManifestSecrets.Shape.Metadata

set_option autoImplicit false

namespace ManifestSecrets.Shape

structure Secret where
  apiVersion : String
  kind : String
  metadata : Metadata
  data : KeyMap (List UInt8)
  stringData : KeyMap String
  type : Option String
  immutable : Option Bool

namespace Secret

open Decoder

def expected : String := "struct Secret with 7 elements"

def ofPositions : Positional Secret := do
  let apiVersion ← next 0 expected text
  let kind ← next 1 expected text
  let metadata ← next? Metadata.decode
  let data ← next? (map bytes)
  let stringData ← next? (map text)
  let type ← next? (optional text)
  let immutable ← next? (optional bool)
  return {
    apiVersion, kind, metadata := metadata.getD {}, data := data.getD []
    stringData := stringData.getD [], type := type.join, immutable := immutable.join }

def decode : Decoder Secret
  | .object fields => do
      let apiVersion ← field? fields "apiVersion" text
      let data ← field? fields "data" (map bytes)
      let immutable ← field? fields "immutable" (optional bool)
      let kind ← field? fields "kind" text
      let metadata ← field? fields "metadata" Metadata.decode
      let stringData ← field? fields "stringData" (map text)
      let type ← field? fields "type" (optional text)
      return {
        apiVersion := ← required "apiVersion" apiVersion, kind := ← required "kind" kind
        metadata := metadata.getD {}, data := data.getD [], stringData := stringData.getD []
        type := type.join, immutable := immutable.join }
  | .array items => positions ofPositions items
  | other => .error (.wrongType other "struct Secret")

def written (s : Secret) : Json :=
  .object ([("apiVersion", .text s.apiVersion), ("kind", .text s.kind), ("metadata", s.metadata.written)]
    ++ mapField "data" bytesJson s.data ++ mapField "stringData" .text s.stringData
    ++ field "type" (s.type.map .text) ++ field "immutable" (s.immutable.map .bool))

end Secret

end ManifestSecrets.Shape
