import ManifestSecrets.KeyMap
import ManifestSecrets.Text.Bytes
import ManifestSecrets.Text.Classes

set_option autoImplicit false

namespace ManifestSecrets

abbrev Environment := String → Option (List UInt8)

namespace Environment

-- The value of a variable; one that is no text counts as none.
def text? (environment : Environment) (name : String) : Option String := (environment name).bind Text.ofUtf8?

def offer (environment : Environment) (name value : String) : Environment := fun other =>
  if other = name then some (Text.utf8 ((environment.text? name).getD value)) else environment other

def ofTexts (texts : String → Option String) : Environment := fun name => (texts name).map Text.utf8

end Environment

namespace Environment

inductive ValueState where
  | bare (quoted : Bool)
  | escaped (quoted : Bool)
  | single
  | name (quoted : Bool) (letters : List Char)
  | braced (quoted : Bool) (letters : List Char)
  | ended
  | comment

def escape? (c : Char) : Option Char :=
  if c = 'n' then some '\n'
  else if c = '\\' || c = '\'' || c = '"' || c = '$' || c = ' ' then some c
  else none

def stepBare (quoted : Bool) (c : Char) : ValueState × List Char :=
  if c = '$' then (.name quoted [], [])
  else if c = '\\' then (.escaped quoted, [])
  else if c = '"' then (.bare (!quoted), [])
  else if quoted then (.bare true, [c])
  else if c = '\'' then (.single, [])
  else if c = ' ' || c = '\t' then (.ended, [])
  else (.bare false, [c])

-- Reads a character: the state after it, and what it adds to the value. A character that ends a name
-- stands for itself.
def stepValue? (valueOf : String → String) (state : ValueState) (c : Char) : Option (ValueState × List Char) :=
  match state with
  | .bare quoted => some (stepBare quoted c)
  | .escaped quoted => (escape? c).map fun d => (.bare quoted, [d])
  | .single => some (if c = '\'' then (.bare false, []) else (.single, [c]))
  | .name quoted letters =>
      if Text.isLetterOrNumber c then some (.name quoted (letters ++ [c]), [])
      else if c = '\x7b' && letters.isEmpty then some (.braced quoted [], [])
      else
        let found := (valueOf (String.ofList letters)).toList
        if c = '$' then some (.name quoted [], found) else some (.bare quoted, found ++ [c])
  | .braced quoted letters =>
      if c = '\x7d' then some (.bare quoted, (valueOf (String.ofList letters)).toList)
      else some (.braced quoted (letters ++ [c]), [])
  | .ended =>
      if c = ' ' || c = '\t' then some (.ended, [])
      else if c = '#' then some (.comment, [])
      else none
  | .comment => some (.comment, [])

def endValue? (valueOf : String → String) : ValueState → Option (List Char)
  | .bare quoted => if quoted then none else some []
  | .escaped quoted => if quoted then none else some []
  | .single => none
  | .name quoted letters => if quoted then none else some (valueOf (String.ofList letters)).toList
  | .braced _ _ => none
  | .ended => some []
  | .comment => some []

def readValue? (valueOf : String → String) (state : ValueState) : List Char → Option (List Char)
  | [] => endValue? valueOf state
  | c :: rest => do
      let (after, added) ← stepValue? valueOf state c
      return added ++ (← readValue? valueOf after rest)

def isNameStart (c : Char) : Bool := c.isAlpha || c == '_'

def isNameChar (c : Char) : Bool := c.isAlphanum || c == '_' || c == '.'

def skipBlanks (cs : List Char) : List Char := cs.dropWhile Text.isBlank

def readName? (cs : List Char) : Option (List Char × List Char) :=
  if cs.head?.any isNameStart then some (cs.takeWhile isNameChar, skipBlanks (cs.dropWhile isNameChar)) else none

def equals? : List Char → Option (List Char)
  | '=' :: rest => some (skipBlanks rest)
  | _ => none

def splitAssignment? (cs : List Char) : Option (List Char × List Char) := do
  let (name, rest) ← readName? cs
  match equals? rest with
  | some value => return (name, value)
  | none =>
      if name = "export".toList then
        let (name, rest) ← readName? rest
        return (name, ← equals? rest)
      else none

def readLine? (valueOf : String → String) (line : List Char) : Option (Option (String × String)) :=
  let text := Text.trimBy Text.isBlank line
  if text.isEmpty || text.head? == some '#' then some none
  else do
    let (name, value) ← splitAssignment? text
    if value.isEmpty || value.head? == some '#' then return some (String.ofList name, "")
    else return some (String.ofList name, String.ofList (← readValue? valueOf (.bare false) value))

end Environment

end ManifestSecrets
