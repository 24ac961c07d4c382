import ManifestSecrets.Text.Hex
import ManifestSecrets.Yaml.Cursor

/-!
Reading one scalar of each style: unquoted, quoted, block. Lines of a scalar are folded: a single break
between words becomes a space, and of more breaks the first one is dropped. Every loop takes a bound on
its steps, for which the length of the text will do, since each step moves the cursor.
-/

set_option autoImplicit false

namespace ManifestSecrets.Yaml.Scalar

def fold (first : List Char) (others : List Char) : List Char :=
  if first.head? == some '\n' then (if others.isEmpty then [' '] else others) else first ++ others

-- A scalar that is being read: its text so far, in reverse, and what stands between the last word and
-- the cursor: blanks of the same line, or the first break and those after it.
structure Reading where
  cursor : Cursor
  text : List Char := []
  blanks : List Char := []
  first : List Char := []
  others : List Char := []
  broken : Bool := false

namespace Reading

def join (r : Reading) : Reading :=
  if r.broken then
    { r with text := (fold r.first r.others).reverse ++ r.text, first := [], others := [], broken := false }
  else { r with text := r.blanks ++ r.text, blanks := [] }

def push (r : Reading) (chars : List Char) (count : Nat) : Reading :=
  { r with text := chars.reverse ++ r.text, cursor := r.cursor.drop count }

-- Moves over a blank, which counts only if no break stands before it.
def blank (r : Reading) (c : Char) : Reading :=
  { r with blanks := if r.broken then r.blanks else c :: r.blanks, cursor := r.cursor.skip }

def breakLine (r : Reading) : Reading :=
  let here := r.cursor.breakText
  if r.broken then { r with others := r.others ++ here, cursor := r.cursor.skipBreak }
  else { r with blanks := [], first := here, broken := true, cursor := r.cursor.skipBreak }

def done (r : Reading) : String := String.ofList r.text.reverse

end Reading

def isFlowMark (c : Char) : Bool := c == ',' || c == '[' || c == ']' || c == '\x7b' || c == '\x7d'

def plainWord (flow : Bool) : Nat → Reading → Option Reading
  | 0, r => some r
  | steps + 1, r =>
      match r.cursor.rest with
      | [] => some r
      | c :: rest =>
          if isBlankOrBreak c then some r
          else if flow && c == ':' && rest.head?.any (fun d => isFlowMark d || d == '?') then none
          else if (c == ':' && endsWord rest.head?) || (flow && isFlowMark c) then some r
          else plainWord flow steps (r.join.push [c] 1)

def plainGap (indent : Int) : Nat → Reading → Option Reading
  | 0, r => some r
  | steps + 1, r =>
      match r.cursor.rest with
      | [] => some r
      | c :: _ =>
          if isBlank c then
            if r.broken && r.cursor.column < indent && c == '\t' then none
            else plainGap indent steps (r.blank c)
          else if isBreak c then plainGap indent steps r.breakLine
          else some r

def plainLines (bound : Nat) (flow : Bool) (indent : Int) : Nat → Reading → Option Reading
  | 0, r => some r
  | steps + 1, r =>
      if r.cursor.atDocumentMark || r.cursor.stands '#' then some r
      else do
        let r ← plainWord flow bound r
        if r.cursor.at? isBlankOrBreak then
          let r ← plainGap indent bound r
          if !flow && r.cursor.column < indent then some r else plainLines bound flow indent steps r
        else some r

def plain? (bound : Nat) (flow : Bool) (indent : Int) (c : Cursor) : Option (String × Cursor × Bool) := do
  let r ← plainLines bound flow indent bound { cursor := c }
  return (r.done, r.cursor, r.broken)

def escaped? (c : Char) : Option Char :=
  match c with
  | '0' => some '\x00'
  | 'a' => some '\x07'
  | 'b' => some '\x08'
  | 't' => some '\t'
  | '\t' => some '\t'
  | 'n' => some '\n'
  | 'v' => some '\x0b'
  | 'f' => some '\x0c'
  | 'r' => some '\r'
  | 'e' => some '\x1b'
  | ' ' => some ' '
  | '"' => some '"'
  | '/' => some '/'
  | '\\' => some '\\'
  | 'N' => some '\x85'
  | '_' => some '\u00a0'
  | 'L' => some '\u2028'
  | 'P' => some '\u2029'
  | _ => none

def codeLength (c : Char) : Nat :=
  match c with
  | 'x' => 2
  | 'u' => 4
  | 'U' => 8
  | _ => 0

def escape? (rest : List Char) : Option (Char × Nat) := do
  let c ← rest.head?
  match escaped? c with
  | some e => return (e, 1)
  | none =>
      let count := codeLength c
      let digits := (rest.drop 1).take count
      if count = 0 ∨ digits.length < count then none
      else return (← Text.charAt? (← Text.hexNumber? digits), 1 + count)

def quotedWord (single : Bool) : Nat → Reading → Option Reading
  | 0, r => some r
  | steps + 1, r =>
      match r.cursor.rest with
      | [] => some r
      | c :: rest =>
          if isBlankOrBreak c then some r
          else if single && c == '\'' then
            if rest.head? == some '\'' then quotedWord single steps (r.push ['\''] 2) else some r
          else if !single && c == '"' then some r
          else if !single && c == '\\' then
            if rest.head?.any isBreak then
              some { r with cursor := r.cursor.skip.skipBreak, broken := true }
            else do
              let (e, length) ← escape? rest
              quotedWord single steps (r.push [e] (1 + length))
          else quotedWord single steps (r.push [c] 1)

def quotedGap : Nat → Reading → Reading
  | 0, r => r
  | steps + 1, r =>
      match r.cursor.rest with
      | [] => r
      | c :: _ =>
          if isBlank c then quotedGap steps (r.blank c)
          else if isBreak c then quotedGap steps r.breakLine
          else r

def quotedLines (bound : Nat) (single : Bool) : Nat → Reading → Option Reading
  | 0, _ => none
  | steps + 1, r =>
      if r.cursor.atDocumentMark || r.cursor.atEnd then none
      else do
        let r ← quotedWord single bound r
        if r.cursor.stands (if single then '\'' else '"') then some { r with cursor := r.cursor.skip }
        else quotedLines bound single steps (quotedGap bound r).join

def quoted? (bound : Nat) (single : Bool) (c : Cursor) : Option (String × Cursor) := do
  let r ← quotedLines bound single bound { cursor := c.skip }
  return (r.done, r.cursor)

inductive Chomping where
  | strip
  | clip
  | keep
deriving DecidableEq

def header? (c : Cursor) : Option (Chomping × Nat × Cursor) :=
  let chomping (c : Cursor) : Chomping × Cursor :=
    if c.stands '+' then (.keep, c.skip) else if c.stands '-' then (.strip, c.skip) else (.clip, c)
  let increment? (c : Cursor) : Option (Nat × Cursor) :=
    match c.head? with
    | some d => if d == '0' then none else if d.isDigit then some (d.toNat - 48, c.skip) else some (0, c)
    | none => some (0, c)
  match chomping c with
  | (.clip, _) => do
      let (increment, c) ← increment? c
      if increment = 0 then return (.clip, 0, c)
      else
        let (kind, c) := chomping c
        return (kind, increment, c)
  | (kind, c) => do
      let (increment, c) ← increment? c
      return (kind, increment, c)

-- Empty lines before a line of a block. With no indentation known yet, `indent` is zero; the greatest
-- column reached is kept. A tab must not stand where the indentation is.
def emptyLines (indent : Nat) : Nat → Cursor → List Char → Nat → Option (Cursor × List Char × Nat)
  | 0, c, breaks, deepest => some (c, breaks, deepest)
  | steps + 1, c, breaks, deepest =>
      let inside (column : Nat) : Bool := indent == 0 || column < indent
      let spaces := c.rest.takeWhile (· == ' ')
      let count := if indent == 0 then spaces.length else min spaces.length (indent - c.column)
      let c := c.drop count
      let deepest := max deepest c.column
      if inside c.column && c.stands '\t' then none
      else if c.at? isBreak then emptyLines indent steps c.skipBreak (breaks ++ c.breakText) deepest
      else some (c, breaks, deepest)

def blockLines (bound : Nat) (literal : Bool) (indent : Nat) :
    Nat → Cursor → List Char → List Char → List Char → Bool → Option (Cursor × List Char × List Char × List Char)
  | 0, c, text, last, breaks, _ => some (c, text, last, breaks)
  | steps + 1, c, text, last, breaks, blankBefore =>
      if c.column == indent && !c.atEnd then
        let blankHere := c.at? isBlank
        let between :=
          if !literal && last.head? == some '\n' && !blankBefore && !blankHere then
            if breaks.isEmpty then [' '] else breaks
          else last ++ breaks
        let (line, c) := c.take (!isBreak ·)
        let text := line.reverse ++ (between.reverse ++ text)
        match emptyLines indent bound c.skipBreak [] 0 with
        | none => none
        | some (after, breaks, _) => blockLines bound literal indent steps after text c.breakText breaks blankHere
      else some (c, text, last, breaks)

-- A block scalar inside a block that is indented by `outer`, from its mark on, and the cursor after it.
-- Where no indentation is given, the first line that is not empty sets it.
def block? (bound : Nat) (literal : Bool) (outer : Int) (c : Cursor) : Option (String × Cursor) := do
  let (chomping, increment, c) ← header? c.skip
  let c ← c.lineEnd?
  let given : Nat := if increment = 0 then 0 else (max outer 0).toNat + increment
  let (c, breaks, deepest) ← emptyLines given bound c [] 0
  let indent := if given = 0 then max (max deepest (outer + 1).toNat) 1 else given
  let (c, text, last, breaks) ← blockLines bound literal indent bound c [] [] breaks false
  let ending := match chomping with
    | .strip => []
    | .clip => last
    | .keep => last ++ breaks
  return (String.ofList (text.reverse ++ ending), c)

end ManifestSecrets.Yaml.Scalar
