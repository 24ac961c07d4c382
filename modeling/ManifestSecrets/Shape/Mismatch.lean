import ManifestSecrets.Json.Basic
import ManifestSecrets.Text.Base64
import ManifestSecrets.Text.Quoted

set_option autoImplicit false

namespace ManifestSecrets.Shape

inductive Mismatch where
  | wrongType (found : Json) (expected : String)
  | outOfRange (found : Integer64) (expected : String)
  | missingField (name : String)
  | tooFew (length : Nat) (expected : String)
  | tooMany (length : Nat)
  | unknownVariant (name : String) (known : List String)
  | notOneVariant
  | base64 (fault : Text.Base64.Fault)
  | other (text : String)

namespace Mismatch

def found : Json → String
  | .null => "null"
  | .bool b => if b then "boolean `true`" else "boolean `false`"
  | .number (.integer n) => "integer `" ++ toString n.value ++ "`"
  | .number (.float x) => "floating point `" ++ Layout.json.write x ++ "`"
  | .text s => "string " ++ Text.quoted s
  | .array _ => "sequence"
  | .object _ => "map"

def oneOf (names : List String) : String :=
  " or ".intercalate (names.map fun n => "`" ++ n ++ "`")

def message : Mismatch → String
  | .wrongType value expected => "invalid type: " ++ found value ++ ", expected " ++ expected
  | .outOfRange n expected => "invalid value: integer `" ++ toString n.value ++ "`, expected " ++ expected
  | .missingField name => "missing field `" ++ name ++ "`"
  | .tooFew length expected => "invalid length " ++ toString length ++ ", expected " ++ expected
  | .tooMany length => "invalid length " ++ toString length ++ ", expected fewer elements in array"
  | .unknownVariant name known => "unknown variant `" ++ name ++ "`, expected " ++ oneOf known
  | .notOneVariant => "invalid value: map, expected map with a single key"
  | .base64 fault => fault.message
  | .other text => text

end Mismatch

end ManifestSecrets.Shape
