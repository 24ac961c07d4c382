import ManifestSecrets.Text.Bytes

set_option autoImplicit false

namespace ManifestSecrets.Url

def isControl (c : Char) : Bool := c.toNat < 0x20 || c.toNat == 0x7F

def inFragmentSet (c : Char) : Bool := " \"<>\x60".toList.contains c

def inQuerySet (special : Bool) (c : Char) : Bool := " \"#<>".toList.contains c || (special && c == '\'')

def inPathSet (c : Char) : Bool := inFragmentSet c || "#?\x7b\x7d".toList.contains c

def inCredentialSet (c : Char) : Bool := inPathSet c || "/:;=@[\\]^|".toList.contains c

def nothing (_ : Char) : Bool := false

def percentByte (b : UInt8) : String := "%" ++ Text.upperHex 2 b.toNat

def encodeChar (set : Char → Bool) (c : Char) : String :=
  if isControl c || 0x80 ≤ c.toNat || set c then
    String.join ((Text.utf8 (String.singleton c)).map percentByte)
  else String.singleton c

def encode (set : Char → Bool) (cs : List Char) : String := String.join (cs.map (encodeChar set))

def decodeBytes : List UInt8 → List UInt8
  | 0x25 :: a :: b :: rest =>
      match Text.hexNumber? [Char.ofNat a.toNat, Char.ofNat b.toNat] with
      | some n => UInt8.ofNat n :: decodeBytes rest
      | none => 0x25 :: decodeBytes (a :: b :: rest)
  | byte :: rest => byte :: decodeBytes rest
  | [] => []

end ManifestSecrets.Url
