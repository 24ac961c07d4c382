import ManifestSecrets.Json.Basic
import ManifestSecrets.Json.Numeral
import ManifestSecrets.Text.Hex

/-!
Reading JSON text. The text must hold one value and blanks; of two fields with one name the later one
wins; at most 127 arrays and objects may stand inside each other.
-/

set_option autoImplicit false

namespace ManifestSecrets.Json

def greatestDepth : Nat := 127

namespace Reader

def isSpace (c : Char) : Bool := c == ' ' || c == '\n' || c == '\t' || c == '\r'

def skip (cs : List Char) : List Char := cs.dropWhile isSpace

def word? (word : String) (cs : List Char) : Option (List Char) :=
  if word.toList.isPrefixOf cs then some (cs.drop word.length) else none

def hex4? : List Char → Option (Nat × List Char)
  | a :: b :: c :: d :: rest => do return (← Text.hexNumber? [a, b, c, d], rest)
  | _ => none

def codePoint? (cs : List Char) : Option (Char × List Char) := do
  let (high, rest) ← hex4? cs
  if 0xD800 ≤ high ∧ high < 0xDC00 then
    match rest with
    | '\\' :: 'u' :: rest =>
        let (low, rest) ← hex4? rest
        if 0xDC00 ≤ low ∧ low < 0xE000 then
          return (← Text.charAt? (0x10000 + (high - 0xD800) * 0x400 + (low - 0xDC00)), rest)
        else none
    | _ => none
  else return (← Text.charAt? high, rest)

def escape? : List Char → Option (Char × List Char)
  | '"' :: rest => some ('"', rest)
  | '\\' :: rest => some ('\\', rest)
  | '/' :: rest => some ('/', rest)
  | 'b' :: rest => some ('\x08', rest)
  | 'f' :: rest => some ('\x0c', rest)
  | 'n' :: rest => some ('\n', rest)
  | 'r' :: rest => some ('\r', rest)
  | 't' :: rest => some ('\t', rest)
  | 'u' :: rest => codePoint? rest
  | _ => none

def string? : Nat → List Char → List Char → Option (String × List Char)
  | 0, _, _ => none
  | _, _, [] => none
  | fuel + 1, seen, c :: rest =>
      if c = '"' then some (String.ofList seen.reverse, rest)
      else if c = '\\' then do
        let (e, rest) ← escape? rest
        string? fuel (e :: seen) rest
      else if c.toNat < 32 then none
      else string? fuel (c :: seen) rest

def digits (cs : List Char) : List Nat × List Char :=
  ((cs.takeWhile Char.isDigit).map fun c => c.toNat - 48, cs.dropWhile Char.isDigit)

def whole? (cs : List Char) : Option (List Nat × List Char) :=
  match digits cs with
  | ([], _) => none
  | (0 :: _ :: _, _) => none
  | found => some found

def fraction? : List Char → Option (List Nat × List Char)
  | '.' :: rest =>
      match digits rest with
      | ([], _) => none
      | found => some found
  | cs => some ([], cs)

def exponent? (cs : List Char) : Option (Option Int × List Char) :=
  match cs with
  | e :: rest =>
      if e = 'e' ∨ e = 'E' then
        let (negative, rest) := match rest with
          | '-' :: rest => (true, rest)
          | '+' :: rest => (false, rest)
          | rest => (false, rest)
        match digits rest with
        | ([], _) => none
        | (ds, rest) =>
            let value : Int := (ds.foldl (fun n d => n * 10 + d) 0 : Nat)
            some (some (if negative then -value else value), rest)
      else some (none, cs)
  | [] => some (none, [])

def number? (cs : List Char) : Option (Number × List Char) := do
  let (negative, cs) := match cs with
    | '-' :: rest => (true, rest)
    | cs => (false, cs)
  let (whole, cs) ← whole? cs
  let (fraction, cs) ← fraction? cs
  let (exponent, cs) ← exponent? cs
  let n : Numeral := ⟨negative, whole, fraction, exponent⟩
  return (← n.number?, cs)

mutual
def value? : Nat → Nat → List Char → Option (Json × List Char)
  | 0, _, _ => none
  | fuel + 1, depth, cs =>
      match skip cs with
      | 'n' :: rest => do return (.null, ← word? "ull" rest)
      | 't' :: rest => do return (.bool true, ← word? "rue" rest)
      | 'f' :: rest => do return (.bool false, ← word? "alse" rest)
      | '"' :: rest => do
          let (s, rest) ← string? (rest.length + 1) [] rest
          return (.text s, rest)
      | '[' :: rest =>
          match depth, skip rest with
          | 0, _ => none
          | _ + 1, ']' :: rest => some (.array [], rest)
          | depth + 1, rest => do
              let (items, rest) ← items? fuel depth rest
              return (.array items, rest)
      | '\x7b' :: rest =>
          match depth, skip rest with
          | 0, _ => none
          | _ + 1, '\x7d' :: rest => some (.object [], rest)
          | depth + 1, rest => do
              let (fields, rest) ← fields? fuel depth rest
              return (.object (KeyMap.ofList fields), rest)
      | cs => do
          let (n, rest) ← number? cs
          return (.number n, rest)

def items? : Nat → Nat → List Char → Option (List Json × List Char)
  | 0, _, _ => none
  | fuel + 1, depth, cs => do
      let (item, rest) ← value? fuel depth cs
      match skip rest with
      | ',' :: rest => do
          let (items, rest) ← items? fuel depth rest
          return (item :: items, rest)
      | ']' :: rest => return ([item], rest)
      | _ => none

def fields? : Nat → Nat → List Char → Option (List (String × Json) × List Char)
  | 0, _, _ => none
  | fuel + 1, depth, cs =>
      match skip cs with
      | '"' :: rest => do
          let (key, rest) ← string? (rest.length + 1) [] rest
          match skip rest with
          | ':' :: rest => do
              let (value, rest) ← value? fuel depth rest
              match skip rest with
              | ',' :: rest => do
                  let (fields, rest) ← fields? fuel depth rest
                  return ((key, value) :: fields, rest)
              | '\x7d' :: rest => return ([(key, value)], rest)
              | _ => none
          | _ => none
      | _ => none
end

end Reader

-- Reads a text that holds one value. Each step of the reader takes at least one character, so twice the
-- length is steps enough.
def read? (s : String) : Option Json :=
  let cs := s.toList
  match Reader.value? (2 * cs.length + 2) greatestDepth cs with
  | some (value, rest) => if (Reader.skip rest).isEmpty then some value else none
  | none => none

end ManifestSecrets.Json
