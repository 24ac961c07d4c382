import ManifestSecrets.Decimal.Number
import ManifestSecrets.KeyMap

set_option autoImplicit false

namespace ManifestSecrets

inductive Json where
  | null
  | bool (value : Bool)
  | number (value : Number)
  | text (value : String)
  | array (items : List Json)
  | object (fields : List (String × Json))
deriving Inhabited

abbrev SecretMap := KeyMap Json

namespace Json

def ofUnsigned (n : UInt64) : Json := .number (.integer (.ofUnsigned n))

def field? (name : String) : Json → Option Json
  | .object fields => KeyMap.find? name fields
  | _ => none

def text? : Json → Option String
  | .text s => some s
  | _ => none

def ofFields (fields : List (String × Json)) : Json := .object (KeyMap.ofList fields)

mutual
def same : Json → Json → Bool
  | .null, .null => true
  | .bool a, .bool b => a == b
  | .number a, .number b => decide (a = b)
  | .text a, .text b => a == b
  | .array a, .array b => sameItems a b
  | .object a, .object b => sameFields a b
  | _, _ => false

def sameItems : List Json → List Json → Bool
  | [], [] => true
  | a :: as, b :: bs => same a b && sameItems as bs
  | _, _ => false

def sameFields : List (String × Json) → List (String × Json) → Bool
  | [], [] => true
  | (k, a) :: as, (l, b) :: bs => k == l && same a b && sameFields as bs
  | _, _ => false
end

end Json

end ManifestSecrets
