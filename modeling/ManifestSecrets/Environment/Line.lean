import ManifestSecrets.Text.Classes

set_option autoImplicit false

namespace ManifestSecrets.Environment

inductive LineState where
  | bare
  | afterBlank
  | escaped
  | single
  | singleEscaped
  | double
  | doubleEscaped
deriving DecidableEq, Repr

namespace LineState

def opened (c : Char) : LineState :=
  if c = '\\' then .escaped else if c = '"' then .double else if c = '\'' then .single else .bare

def isGap (c : Char) : Bool := Text.isBlank c && c != '\n' && c != '\r'

def next : LineState → Char → LineState
  | .bare, c => if isGap c then .afterBlank else opened c
  | .afterBlank, c => opened c
  | .escaped, _ => .bare
  | .single, c => if c = '\\' then .singleEscaped else if c = '\'' then .bare else .single
  | .singleEscaped, _ => .single
  | .double, c => if c = '\\' then .doubleEscaped else if c = '"' then .bare else .double
  | .doubleEscaped, _ => .double

end LineState

def scanLine (state : LineState) : List Char → List Char × LineState
  | [] => ([], state)
  | c :: rest =>
      if state = .afterBlank && c = '#' then ([], .bare)
      else
        let (kept, final) := scanLine (state.next c) rest
        (c :: kept, final)

def isComment (line : List Char) : Bool := (line.dropWhile Text.isBlank).head? == some '#'

-- Joins lines, each with the break that ends it, wherever a quote is open. What is open at the end of
-- the file is no line.
def joinLines (held : List Char) (state : LineState) : List (List Char) → List (List Char)
  | [] => []
  | line :: rest =>
      if isComment (held ++ line) then joinLines [] .bare rest
      else
        let (kept, final) := scanLine state line
        if final = .bare then (held ++ kept) :: joinLines [] .bare rest
        else joinLines (held ++ kept) final rest

def physicalLines : List Char → List (List Char)
  | [] => []
  | c :: rest =>
      if c = '\n' then [c] :: physicalLines rest
      else match physicalLines rest with
        | [] => [[c]]
        | line :: others => (c :: line) :: others

def lines (content : List Char) : List (List Char) := joinLines [] .bare (physicalLines content)

end ManifestSecrets.Environment
