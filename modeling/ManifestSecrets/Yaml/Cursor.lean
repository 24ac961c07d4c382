set_option autoImplicit false

namespace ManifestSecrets.Yaml

def isBreak (c : Char) : Bool :=
  c == '\r' || c == '\n' || c == '\x85' || c == '\u2028' || c == '\u2029'

def isBlank (c : Char) : Bool := c == ' ' || c == '\t'

def isBlankOrBreak (c : Char) : Bool := isBlank c || isBreak c

def endsWord : Option Char → Bool
  | none => true
  | some c => isBlankOrBreak c

def isPrintable (c : Char) : Bool :=
  let n := c.toNat
  n == 0xA || (0x20 ≤ n && n ≤ 0x7E) || (0xA0 ≤ n && n ≤ 0xD7FF)
    || (0xE000 ≤ n && n ≤ 0xFFFD && n != 0xFEFF) || 0x10000 ≤ n

def isAllowed (c : Char) : Bool :=
  isPrintable c || c == '\t' || c == '\r' || c == '\x85' || c == '\uFEFF'

def isWordChar (c : Char) : Bool := c.isAlphanum || c == '-' || c == '_'

structure Cursor where
  rest : List Char
  index : Nat := 0
  line : Nat := 0
  column : Nat := 0

namespace Cursor

def head? (c : Cursor) : Option Char := c.rest.head?

def second? (c : Cursor) : Option Char := c.rest[1]?

def at? (c : Cursor) (p : Char → Bool) : Bool := c.head?.any p

def stands (c : Cursor) (ch : Char) : Bool := c.head? == some ch

def atEnd (c : Cursor) : Bool := c.rest.isEmpty

def atLineEnd (c : Cursor) : Bool := c.atEnd || c.at? isBreak

def drop (c : Cursor) (count : Nat) : Cursor :=
  { c with rest := c.rest.drop count, index := c.index + count, column := c.column + count }

def skip (c : Cursor) : Cursor := c.drop 1

def skipBreak (c : Cursor) : Cursor :=
  match c.rest with
  | '\r' :: '\n' :: rest => ⟨rest, c.index + 2, c.line + 1, 0⟩
  | ch :: rest => if isBreak ch then ⟨rest, c.index + 1, c.line + 1, 0⟩ else c
  | [] => c

-- The break at the cursor as it is kept in a text: a line feed, except for the two separators.
def breakText (c : Cursor) : List Char :=
  match c.rest with
  | ch :: _ =>
      if ch == '\u2028' || ch == '\u2029' then [ch] else if isBreak ch then ['\n'] else []
  | [] => []

def take (c : Cursor) (p : Char → Bool) : List Char × Cursor :=
  let taken := c.rest.takeWhile p
  (taken, c.drop taken.length)

def skipWhile (c : Cursor) (p : Char → Bool) : Cursor := (c.take p).2

def startsLineWith (c : Cursor) (ch : Char) : Bool :=
  c.column == 0 &&
  match c.rest with
  | x :: y :: z :: rest => x == ch && y == ch && z == ch && endsWord rest.head?
  | _ => false

def atDocumentMark (c : Cursor) : Bool := c.startsLineWith '-' || c.startsLineWith '.'

def lineEnd? (c : Cursor) : Option Cursor :=
  let c := c.skipWhile isBlank
  let c := if c.stands '#' then c.skipWhile (!isBreak ·) else c
  if c.atLineEnd then some c.skipBreak else none

end Cursor

end ManifestSecrets.Yaml
