import ManifestSecrets.Yaml.Token.Mark
import ManifestSecrets.Yaml.Token.Scalar

/-!
From text to tokens. What makes a mapping of a line is found late, at the colon: the place where a
simple key may have started is kept for each flow level, and the tokens that open the mapping and
mark the key are put there afterwards. A simple key lies on one line and within 1024 characters.
-/

set_option autoImplicit false

namespace ManifestSecrets.Yaml

-- A place where a simple key may have started. A required one has to become a key.
structure SimpleKey where
  possible : Bool := false
  required : Bool := false
  number : Nat := 0
  index : Nat := 0
  line : Nat := 0
  column : Nat := 0

-- Tokens stand in reverse; of the simple keys the one of the innermost level comes first.
structure Scanner where
  cursor : Cursor
  bound : Nat
  tokens : List Token := []
  count : Nat := 0
  indent : Int := -1
  indents : List Int := []
  keys : List SimpleKey := [{}]
  keyAllowed : Bool := true
  flow : Nat := 0

namespace Scanner

def inFlow (s : Scanner) : Bool := 0 < s.flow

def emit (s : Scanner) (t : Token) : Scanner := { s with tokens := t :: s.tokens, count := s.count + 1 }

def insertAt (s : Scanner) (number : Nat) (t : Token) : Scanner :=
  let later := s.count - number
  { s with tokens := s.tokens.take later ++ t :: s.tokens.drop later, count := s.count + 1 }

def setKey (s : Scanner) (key : SimpleKey) : Scanner := { s with keys := key :: s.keys.drop 1 }

def removeKey? (s : Scanner) : Option Scanner :=
  match s.keys with
  | key :: rest =>
      if key.possible && key.required then none
      else some { s with keys := { key with possible := false } :: rest }
  | [] => some s

def saveKey? (s : Scanner) : Option Scanner :=
  if s.keyAllowed then do
    let s ← s.removeKey?
    let c := s.cursor
    return s.setKey
      { possible := true, required := !s.inFlow && s.indent == c.column, number := s.count
        index := c.index, line := c.line, column := c.column }
  else some s

def isStale (c : Cursor) (key : SimpleKey) : Bool :=
  key.possible && (key.line < c.line || key.index + 1024 < c.index)

def dropStale? (s : Scanner) : Option Scanner :=
  if s.keys.any fun key => isStale s.cursor key && key.required then none
  else some { s with
    keys := s.keys.map fun key => if isStale s.cursor key then { key with possible := false } else key }

def openBlock (s : Scanner) (column : Int) (t : Token) (number : Option Nat) : Scanner :=
  if !s.inFlow && s.indent < column then
    let s := { s with indents := s.indent :: s.indents, indent := column }
    match number with
    | some n => s.insertAt n t
    | none => s.emit t
  else s

def closeBlocks (s : Scanner) (column : Int) : Scanner :=
  if s.inFlow then s else go s.indents s
where
  go : List Int → Scanner → Scanner
    | [], s => s
    | outer :: rest, s =>
        if column < s.indent then go rest { s.emit .blockEnd with indent := outer, indents := rest } else s

-- Moves over blanks, comments and breaks to the next token. A tab is a blank only where no simple key
-- may start.
def toNext : Nat → Scanner → Scanner
  | 0, s => s
  | steps + 1, s =>
      let c := s.cursor
      let c := if c.column == 0 && c.stands '\uFEFF' then c.skip else c
      let c := c.skipWhile fun d => d == ' ' || ((s.inFlow || !s.keyAllowed) && d == '\t')
      let c := if c.stands '#' then c.skipWhile (!isBreak ·) else c
      if c.at? isBreak then
        toNext steps { s with cursor := c.skipBreak, keyAllowed := s.keyAllowed || !s.inFlow }
      else { s with cursor := c }

def moved (s : Scanner) (count : Nat) : Scanner := { s with cursor := s.cursor.drop count }

def leaveBlocks? (s : Scanner) : Option Scanner := do
  let s ← (s.closeBlocks (-1)).removeKey?
  return { s with keyAllowed := false }

def streamEnd? (s : Scanner) : Option Scanner := do
  let s ← s.leaveBlocks?
  return s.emit .streamEnd

def directive? (s : Scanner) : Option Scanner := do
  let s ← s.leaveBlocks?
  let (token, c) ← Mark.directive? s.bound s.cursor
  return { s.emit token with cursor := c }

def documentMark? (s : Scanner) (t : Token) : Option Scanner := do
  let s ← s.leaveBlocks?
  return (s.moved 3).emit t

def flowStart? (s : Scanner) (t : Token) : Option Scanner := do
  let s ← s.saveKey?
  return ({ s with keys := {} :: s.keys, flow := s.flow + 1, keyAllowed := true }.moved 1).emit t

def flowEnd? (s : Scanner) (t : Token) : Option Scanner := do
  let s ← s.removeKey?
  let s := if s.inFlow then { s with flow := s.flow - 1, keys := s.keys.drop 1 } else s
  return ({ s with keyAllowed := false }.moved 1).emit t

def flowEntry? (s : Scanner) : Option Scanner := do
  let s ← s.removeKey?
  return ({ s with keyAllowed := true }.moved 1).emit .flowEntry

def blockEntry? (s : Scanner) : Option Scanner :=
  if !s.inFlow && !s.keyAllowed then none
  else do
    let s ← (s.openBlock s.cursor.column .blockSequenceStart none).removeKey?
    return ({ s with keyAllowed := true }.moved 1).emit .blockEntry

def key? (s : Scanner) : Option Scanner :=
  if !s.inFlow && !s.keyAllowed then none
  else do
    let s ← (s.openBlock s.cursor.column .blockMappingStart none).removeKey?
    return ({ s with keyAllowed := !s.inFlow }.moved 1).emit .key

-- A colon: the simple key before it becomes a key, or an empty or explicit one stands before it.
def value? (s : Scanner) : Option Scanner :=
  let key := s.keys.headD {}
  if key.possible then
    let s := (s.insertAt key.number .key).openBlock key.column .blockMappingStart (some key.number)
    let s := s.setKey { key with possible := false }
    some (({ s with keyAllowed := false }.moved 1).emit .value)
  else if !s.inFlow && !s.keyAllowed then none
  else
    let s := s.openBlock s.cursor.column .blockMappingStart none
    some (({ s with keyAllowed := !s.inFlow }.moved 1).emit .value)

def named? (s : Scanner) (token : String → Token) : Option Scanner := do
  let s ← s.saveKey?
  let (name, c) ← Mark.name? s.cursor
  return { s.emit (token name) with cursor := c, keyAllowed := false }

def tag? (s : Scanner) : Option Scanner := do
  let s ← s.saveKey?
  let (token, c) ← Mark.tag? s.bound s.inFlow s.cursor
  return { s.emit token with cursor := c, keyAllowed := false }

def block? (s : Scanner) (literal : Bool) : Option Scanner := do
  let s ← s.removeKey?
  let (text, c) ← Scalar.block? s.bound literal s.indent s.cursor
  return { s.emit (.scalar false text) with cursor := c, keyAllowed := true }

def quoted? (s : Scanner) (single : Bool) : Option Scanner := do
  let s ← s.saveKey?
  let (text, c) ← Scalar.quoted? s.bound single s.cursor
  return { s.emit (.scalar false text) with cursor := c, keyAllowed := false }

def plain? (s : Scanner) : Option Scanner := do
  let s ← s.saveKey?
  let (text, c, broken) ← Scalar.plain? s.bound s.inFlow (s.indent + 1) s.cursor
  return { s.emit (.scalar true text) with cursor := c, keyAllowed := broken }

def isMark (c : Char) : Bool := "-?:,[]\x7b\x7d#&*!|>'\"%@\x60".toList.contains c

def startsPlain (flow : Bool) (c : Char) (next : Option Char) : Bool :=
  !(isBlankOrBreak c || isMark c) || (c == '-' && !next.any isBlank)
    || (!flow && (c == '?' || c == ':') && !endsWord next)

def token? (s : Scanner) : Option Scanner :=
  let c := s.cursor
  match c.rest with
  | [] => s.streamEnd?
  | d :: rest =>
      let next := rest.head?
      if c.column == 0 && d == '%' then s.directive?
      else if c.startsLineWith '-' then s.documentMark? .documentStart
      else if c.startsLineWith '.' then s.documentMark? .documentEnd
      else if d == '[' then s.flowStart? .flowSequenceStart
      else if d == '\x7b' then s.flowStart? .flowMappingStart
      else if d == ']' then s.flowEnd? .flowSequenceEnd
      else if d == '\x7d' then s.flowEnd? .flowMappingEnd
      else if d == ',' then s.flowEntry?
      else if d == '-' && endsWord next then s.blockEntry?
      else if d == '?' && (s.inFlow || endsWord next) then s.key?
      else if d == ':' && (s.inFlow || endsWord next) then s.value?
      else if d == '*' then s.named? .alias
      else if d == '&' then s.named? .anchor
      else if d == '!' then s.tag?
      else if d == '|' && !s.inFlow then s.block? true
      else if d == '>' && !s.inFlow then s.block? false
      else if d == '\'' then s.quoted? true
      else if d == '"' then s.quoted? false
      else if startsPlain s.inFlow d next then s.plain?
      else none

def step? (s : Scanner) : Option Scanner := do
  let s ← (toNext s.bound s).dropStale?
  (s.closeBlocks s.cursor.column).token?

def run : Nat → Scanner → List Token
  | 0, s => (.fault :: s.tokens).reverse
  | steps + 1, s =>
      match s.step? with
      | none => (.fault :: s.tokens).reverse
      | some s => if s.tokens.head? == some .streamEnd then s.tokens.reverse else run steps s

end Scanner

-- The tokens of a text, up to the end or to a fault. Every token but the last moves the cursor. A text
-- with a character that no stream may hold is faulty from the start.
def Token.ofText (s : String) : List Token :=
  let cs := s.toList
  if cs.all isAllowed then
    let bound := cs.length + 2
    Scanner.run bound { cursor := { rest := cs }, bound }
  else [.fault]

end ManifestSecrets.Yaml
