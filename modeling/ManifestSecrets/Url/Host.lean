import ManifestSecrets.Url.Basic
import ManifestSecrets.Url.Percent

set_option autoImplicit false

namespace ManifestSecrets.Url

def v4Digits (part : List Char) : Nat × List Char :=
  match part with
  | '0' :: 'x' :: rest => (16, rest)
  | '0' :: 'X' :: rest => (16, rest)
  | '0' :: d :: rest => (8, d :: rest)
  | part => (10, part)

def v4Number? (part : List Char) : Option Nat :=
  if part.isEmpty then none
  else
    let (base, digits) := v4Digits part
    digits.foldl (fun acc c => do
      let n ← acc
      let d ← Text.hexValue? c
      if d < base then some (n * base + d) else none) (some 0)

def v4Parts (name : List Char) : List (List Char) :=
  let parts := name.splitOn '.'
  if 1 < parts.length && parts.getLast? == some [] then parts.dropLast else parts

-- A name whose last part is a number is an address of four bytes, or none at all.
def endsInNumber (name : List Char) : Bool :=
  match (v4Parts name).getLast? with
  | some last => !last.isEmpty && (last.all Char.isDigit || (v4Number? last).isSome)
  | none => false

def v4Address? (name : List Char) : Option Nat := do
  let numbers ← (v4Parts name).mapM v4Number?
  let last ← numbers.getLast?
  let before := numbers.dropLast
  if 3 < before.length || before.any (255 < ·) || Nat.pow 256 (4 - before.length) ≤ last then none
  else
    return before.zipIdx.foldl (fun sum (n, i) => sum + n * Nat.pow 256 (3 - i)) last

def v6Byte? (cs : List Char) : Option Nat :=
  if cs.isEmpty || !cs.all Char.isDigit || 3 < cs.length || (cs.head? == some '0' && 1 < cs.length) then none
  else
    let n := cs.foldl (fun n c => n * 10 + (c.toNat - 48)) 0
    if n < 256 then some n else none

def v6Tail? (cs : List Char) : Option (List Nat) := do
  match ← (cs.splitOn '.').mapM v6Byte? with
  | [a, b, c, d] => return [a * 256 + b, c * 256 + d]
  | _ => none

def v6Pieces? : List (List Char) → Option (List Nat)
  | [] => some []
  | [last] =>
      if last.contains '.' then v6Tail? last
      else do return [← v6Piece? last]
  | piece :: rest => do return (← v6Piece? piece) :: (← v6Pieces? rest)
where
  v6Piece? (piece : List Char) : Option Nat :=
    if piece.isEmpty || 4 < piece.length then none else Text.hexNumber? piece

def splitPair : List Char → Option (List Char × List Char)
  | ':' :: ':' :: rest => some ([], rest)
  | c :: rest => (splitPair rest).map fun (before, after) => (c :: before, after)
  | [] => none

def piecesOf? (cs : List Char) : Option (List Nat) := if cs.isEmpty then some [] else v6Pieces? (cs.splitOn ':')

def v6Address? (cs : List Char) : Option (List Nat) :=
  match splitPair cs with
  | none => do
      let pieces ← piecesOf? cs
      if pieces.length = 8 then some pieces else none
  | some (before, after) => do
      if before.contains '.' then none
      else
        let front ← piecesOf? before
        let back ← piecesOf? after
        if front.length + back.length < 8 then
          return front ++ List.replicate (8 - front.length - back.length) 0 ++ back
        else none

def isForbidden (c : Char) : Bool := "\x00\t\n\r #/:<>?@[\\]^|".toList.contains c

def isForbiddenInName (c : Char) : Bool := isForbidden c || isControl c || c == '%'

def bracketed? (cs : List Char) : Option (Except Fault Host) :=
  match cs with
  | '[' :: rest =>
      if rest.getLast? == some ']' then
        match v6Address? rest.dropLast with
        | some pieces => some (.ok (.v6 pieces))
        | none => some (.error .ipv6)
      else some (.error .ipv6)
  | _ => none

-- The name in ASCII under which a name is looked up, if it is one that can be.
abbrev Naming := List Char → Option (List Char)

def lookedUp? (naming : Naming) (cs : List Char) : Option (List Char) := do
  let name ← naming (Text.lossy (decodeBytes (Text.utf8 (String.ofList cs)))).toList
  if name.any isForbiddenInName then none else return name

def Host.parse (naming : Naming) (cs : List Char) : Except Fault Host :=
  match bracketed? cs with
  | some found => found
  | none =>
      match lookedUp? naming cs with
      | none => .error .hostName
      | some [] => .error .emptyHost
      | some found =>
          if endsInNumber found then
            match v4Address? found with
            | some address => .ok (.v4 address)
            | none => .error .ipv4
          else .ok (.name (String.ofList found))

def Host.parseOpaque (cs : List Char) : Except Fault Host :=
  match bracketed? cs with
  | some found => found
  | none => if cs.any isForbidden then .error .hostCharacter else .ok (.name (encode nothing cs))

end ManifestSecrets.Url
