import ManifestSecrets.Json.Basic
import ManifestSecrets.Text.Hex

set_option autoImplicit false

namespace ManifestSecrets.Json

def escapeChar (c : Char) : String :=
  match c with
  | '"' => "\\\""
  | '\\' => "\\\\"
  | '\x08' => "\\b"
  | '\x0c' => "\\f"
  | '\n' => "\\n"
  | '\r' => "\\r"
  | '\t' => "\\t"
  | c => if c.toNat < 32 then "\\u" ++ Text.lowerHex 4 c.toNat else String.singleton c

def quote (s : String) : String := "\"" ++ String.join (s.toList.map escapeChar) ++ "\""

mutual
def write : Json → String
  | .null => "null"
  | .bool b => if b then "true" else "false"
  | .number n => n.display
  | .text s => quote s
  | .array [] => "[]"
  | .array (item :: rest) => "[" ++ write item ++ writeItems rest ++ "]"
  | .object [] => "\x7b\x7d"
  | .object ((key, value) :: rest) =>
      "\x7b" ++ quote key ++ ":" ++ write value ++ writeFields rest ++ "\x7d"

def writeItems : List Json → String
  | [] => ""
  | item :: rest => "," ++ write item ++ writeItems rest

def writeFields : List (String × Json) → String
  | [] => ""
  | (key, value) :: rest => "," ++ quote key ++ ":" ++ write value ++ writeFields rest
end

end ManifestSecrets.Json
