import ManifestSecrets.Placeholder.Resolve

set_option autoImplicit false

namespace ManifestSecrets

open Placeholder (Resolution resolve)

inductive Policy where
  | generic
  | secret
  | string
deriving DecidableEq, Repr

namespace Policy

def name : Policy → String
  | .generic => "generic"
  | .secret => "secret"
  | .string => "string"

def ofName? : String → Option Policy
  | "generic" => some .generic
  | "secret" => some .secret
  | "string" => some .string
  | _ => none

def text? : Tree → Option String
  | .text s => some s
  | .number n => some n.display
  | .bool b => some (if b then "true" else "false")
  | _ => none

def fieldName (value : String) : String :=
  String.ofList (Text.trimBy Placeholder.isBracket value.toList)

def asText (shape : String → Tree) (key value : String) (r : Resolution) : Resolution :=
  match text? r.value with
  | some text => ⟨shape text, r.errors⟩
  | none => ⟨.text value, r.errors ++ [.unsupportedValue key (fieldName value) r.value.typeName]⟩

def replace (policy : Policy) (key value : String) (secrets : SecretMap) : Resolution :=
  let r := resolve key value secrets
  match policy with
  | .generic => r
  | .secret => asText (fun text => .bytes (Text.utf8 text)) key value r
  | .string => asText .text key value r

end Policy

end ManifestSecrets
