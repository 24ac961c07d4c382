import ManifestSecrets.Text.Bytes
import ManifestSecrets.Yaml.Cursor

set_option autoImplicit false

namespace ManifestSecrets.Yaml

inductive Token where
  | version (major minor : Nat)
  | tagDirective (handle pfx : String)
  | documentStart
  | documentEnd
  | blockSequenceStart
  | blockMappingStart
  | blockEnd
  | flowSequenceStart
  | flowSequenceEnd
  | flowMappingStart
  | flowMappingEnd
  | blockEntry
  | flowEntry
  | key
  | value
  | alias (name : String)
  | anchor (name : String)
  | tag (handle suffix : String)
  | scalar (plain : Bool) (text : String)
  | streamEnd
  | fault
deriving DecidableEq, Repr

namespace Mark

def name? (c : Cursor) : Option (String × Cursor) :=
  let (name, after) := c.skip.take isWordChar
  let ends := endsWord after.head? || after.at? fun d => "?:,]\x7d%@\x60".toList.contains d
  if name.isEmpty || !ends then none else some (String.ofList name, after)

def isTagChar (verbatim : Bool) (c : Char) : Bool :=
  isWordChar c || ";/?:@&=+$.%!~*'()".toList.contains c || (verbatim && ",[]".toList.contains c)

def byteCount (byte : Nat) : Nat :=
  if byte < 0x80 then 1
  else if byte < 0xC0 then 0
  else if byte < 0xE0 then 2
  else if byte < 0xF0 then 3
  else if byte < 0xF8 then 4
  else 0

def percentByte? : List Char → Option Nat
  | '%' :: a :: b :: _ => Text.hexNumber? [a, b]
  | _ => none

def continuation? : Nat → Cursor → List UInt8 → Option (List UInt8 × Cursor)
  | 0, c, bytes => some (bytes.reverse, c)
  | count + 1, c, bytes => do
      let byte ← percentByte? c.rest
      if byte / 64 = 2 then continuation? count (c.drop 3) (UInt8.ofNat byte :: bytes) else none

def percentChar? (c : Cursor) : Option (List Char × Cursor) := do
  let byte ← percentByte? c.rest
  match byteCount byte with
  | 0 => none
  | count + 1 =>
      let (bytes, after) ← continuation? count (c.drop 3) [UInt8.ofNat byte]
      return ((Text.ofUtf8? bytes).elim ['\ufffd'] String.toList, after)

def tagChars? (verbatim : Bool) : Nat → Cursor → List Char → Option (List Char × Cursor)
  | 0, c, text => some (text.reverse, c)
  | steps + 1, c, text =>
      match c.head? with
      | some '%' => do
          let (chars, after) ← percentChar? c
          tagChars? verbatim steps after (chars.reverse ++ text)
      | some d =>
          if isTagChar verbatim d then tagChars? verbatim steps c.skip (d :: text) else some (text.reverse, c)
      | none => some (text.reverse, c)

def handle (c : Cursor) : List Char × Cursor :=
  let (word, after) := c.skip.take isWordChar
  if after.stands '!' then ('!' :: word ++ ['!'], after.skip) else ('!' :: word, after)

def closesHandle : List Char → Bool
  | '!' :: rest => rest.getLast? == some '!'
  | _ => false

def tagParts? (bound : Nat) (c : Cursor) : Option (String × String × Cursor) :=
  if c.second? == some '<' then do
    let (uri, after) ← tagChars? true bound (c.drop 2) []
    if uri.isEmpty || !after.stands '>' then none else return ("", String.ofList uri, after.skip)
  else
    let (start, after) := handle c
    if closesHandle start then do
      let (suffix, after) ← tagChars? false bound after []
      if suffix.isEmpty then none else return (String.ofList start, String.ofList suffix, after)
    else do
      let (suffix, after) ← tagChars? false bound after []
      let suffix := start.drop 1 ++ suffix
      if suffix.isEmpty then return ("", "!", after) else return ("!", String.ofList suffix, after)

-- A tag must end where a word ends, or before a comma of a flow collection.
def tag? (bound : Nat) (flow : Bool) (c : Cursor) : Option (Token × Cursor) := do
  let (handle, suffix, after) ← tagParts? bound c
  if endsWord after.head? || (flow && after.stands ',') then return (.tag handle suffix, after) else none

def versionPart? (c : Cursor) : Option (Nat × Cursor) :=
  let (digits, after) := c.take Char.isDigit
  if digits.isEmpty || 9 < digits.length then none
  else some (digits.foldl (fun n d => n * 10 + (d.toNat - 48)) 0, after)

def version? (c : Cursor) : Option (Token × Cursor) := do
  let (major, after) ← versionPart? (c.skipWhile isBlank)
  if after.stands '.' then
    let (minor, after) ← versionPart? after.skip
    return (.version major minor, after)
  else none

def tagDirective? (bound : Nat) (c : Cursor) : Option (Token × Cursor) :=
  let c := c.skipWhile isBlank
  if !c.stands '!' then none
  else
    let (start, after) := handle c
    if (start == ['!'] || closesHandle start) && after.at? isBlank then do
      let (pfx, after) ← tagChars? true bound (after.skipWhile isBlank) []
      if pfx.isEmpty || !endsWord after.head? then none
      else return (.tagDirective (String.ofList start) (String.ofList pfx), after)
    else none

def directive? (bound : Nat) (c : Cursor) : Option (Token × Cursor) := do
  let (name, after) := c.skip.take isWordChar
  if !endsWord after.head? then none
  else
    let (token, after) ← match String.ofList name with
      | "YAML" => version? after
      | "TAG" => tagDirective? bound after
      | _ => none
    return (token, ← after.lineEnd?)

end Mark

end ManifestSecrets.Yaml
