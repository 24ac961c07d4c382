import ManifestSecrets.Yaml.Cursor
import ManifestSecrets.Yaml.Plain

/-!
How a text is written in YAML: as it stands, in single quotes, in double quotes with escapes, or as a
literal block. A text of several lines is a block if it can be one; any other text stands plain unless
that would change its meaning.
-/

set_option autoImplicit false

namespace ManifestSecrets.Yaml

inductive Style where
  | plain
  | single
  | double
  | literal
deriving DecidableEq, Repr

namespace Style

def adjacent (p q : Char → Bool) : List Char → Bool
  | a :: b :: rest => (p a && q b) || adjacent p q (b :: rest)
  | _ => false

def isSpace (c : Char) : Bool := c == ' '

def isIndicator (c : Char) : Bool := "#,[]\x7b\x7d&*!|>'\"%@\x60".toList.contains c

def startsAsMark (cs : List Char) : Bool :=
  "---".toList.isPrefixOf cs || "...".toList.isPrefixOf cs ||
  match cs with
  | c :: rest => isIndicator c || ((c == '?' || c == ':' || c == '-') && endsWord rest.head?)
  | [] => false

-- A mark inside the text that would be read as structure: a colon at the end of a word, or a number
-- sign at the start of one.
def holdsMark : List Char → Bool
  | ':' :: rest => endsWord rest.head? || holdsMark rest
  | c :: '#' :: rest => isBlankOrBreak c || holdsMark ('#' :: rest)
  | _ :: rest => holdsMark rest
  | [] => false

def atEnds (p : Char → Bool) (cs : List Char) : Bool := cs.head?.any p || cs.getLast?.any p

def needsEscapes (cs : List Char) : Bool := cs.any (!isPrintable ·) || adjacent isSpace isBreak cs

def allowsPlain (cs : List Char) : Bool :=
  !atEnds (fun c => isSpace c || isBreak c) cs && !cs.any isBreak && !needsEscapes cs
    && !startsAsMark cs && !holdsMark (cs.drop 1)

def allowsSingle (cs : List Char) : Bool := !adjacent isBreak isSpace cs && !needsEscapes cs

def allowsLiteral (cs : List Char) : Bool := !cs.getLast?.any isSpace && !needsEscapes cs

def quoted (cs : List Char) : Style := if allowsSingle cs then .single else .double

def choose (s : String) : Style :=
  let cs := s.toList
  if cs.contains '\n' then if allowsLiteral cs then .literal else .double
  else if Plain.needsQuotes s then quoted cs
  else if allowsPlain cs then .plain
  else quoted cs

def escape (c : Char) : String :=
  match c with
  | '\x00' => "\\0"
  | '\x07' => "\\a"
  | '\x08' => "\\b"
  | '\t' => "\\t"
  | '\n' => "\\n"
  | '\x0b' => "\\v"
  | '\x0c' => "\\f"
  | '\r' => "\\r"
  | '\x1b' => "\\e"
  | '"' => "\\\""
  | '\\' => "\\\\"
  | '\x85' => "\\N"
  | '\u2028' => "\\L"
  | '\u2029' => "\\P"
  | c =>
      let n := c.toNat
      if n ≤ 0xFF then "\\x" ++ Text.upperHex 2 n
      else if n ≤ 0xFFFF then "\\u" ++ Text.upperHex 4 n
      else "\\U" ++ Text.upperHex 8 n

def doubleChar (c : Char) : String :=
  if !isPrintable c || isBreak c || c == '"' || c == '\\' then escape c else String.singleton c

def spaces (n : Nat) : List Char := List.replicate n ' '

def indentLines (indent : Nat) (double : Char → List Char) : Bool → List Char → List Char
  | _, [] => []
  | atStart, c :: rest =>
      if isBreak c then c :: indentLines indent double true rest
      else (if atStart then spaces indent else []) ++ double c ++ indentLines indent double false rest

def doubleQuote (c : Char) : List Char := if c = '\'' then ['\'', '\''] else [c]

def singleText (indent : Nat) (cs : List Char) : String :=
  let close := if cs.getLast?.any isBreak then spaces indent else []
  "'" ++ String.ofList (indentLines indent doubleQuote false cs ++ close) ++ "'"

-- The marks after the bar: a number where the text starts with a space or a break, then how it ends.
def literalHints (cs : List Char) : String :=
  let leading := if cs.head?.any (fun c => isSpace c || isBreak c) then "2" else ""
  let ending := match cs.reverse with
    | [] => "-"
    | [c] => if isBreak c then "+" else "-"
    | c :: d :: _ => if !isBreak c then "-" else if isBreak d then "+" else ""
  leading ++ ending

def literalText (indent : Nat) (cs : List Char) : String :=
  "|" ++ literalHints cs ++ "\n" ++ String.ofList (indentLines indent (fun c => [c]) true cs)

def line (indent : Nat) (s : String) : String :=
  match choose s with
  | .plain => s ++ "\n"
  | .single => singleText indent s.toList ++ "\n"
  | .double => "\"" ++ String.join (s.toList.map doubleChar) ++ "\"\n"
  | .literal =>
      let text := literalText indent s.toList
      if s.toList.getLast?.any isBreak then text else text ++ "\n"

end Style

end ManifestSecrets.Yaml
