import ManifestSecrets.Decimal.Reading
import ManifestSecrets.Text.Hex
import ManifestSecrets.Yaml.Value

set_option autoImplicit false

namespace ManifestSecrets.Yaml.Plain

def isNull (s : String) : Bool := s == "null" || s == "Null" || s == "NULL" || s == "~"

def bool? (s : String) : Option Bool :=
  if s == "true" || s == "True" || s == "TRUE" then some true
  else if s == "false" || s == "False" || s == "FALSE" then some false
  else none

def isPaddedDigits (cs : List Char) : Bool :=
  let ds := match cs with
    | '-' :: rest => rest
    | '+' :: rest => rest
    | cs => cs
  match ds with
  | '0' :: d :: rest => (d :: rest).all Char.isDigit
  | _ => false

def inBase? (base : Nat) (cs : List Char) : Option Nat :=
  if cs.isEmpty then none
  else cs.foldl (fun acc c => do
    let n ← acc
    let d ← Text.hexValue? c
    if d < base then some (n * base + d) else none) (some 0)

def marked? : List Char → Option (Nat × List Char)
  | '0' :: 'x' :: rest => some (16, rest)
  | '0' :: 'o' :: rest => some (8, rest)
  | '0' :: 'b' :: rest => some (2, rest)
  | _ => none

def integer? (cs : List Char) : Option Int :=
  if isPaddedDigits cs then none
  else
    let (negative, cs) := match cs with
      | '-' :: rest => (true, rest)
      | '+' :: rest => (false, rest)
      | cs => (false, cs)
    let n := match marked? cs with
      | some (base, ds) => inBase? base ds
      | none => inBase? 10 cs
    n.map fun n => if negative then -(n : Int) else n

def isInfinityWord (s : String) : Bool := s == ".inf" || s == ".Inf" || s == ".INF"

-- A floating-point number. Decimal text beyond the greatest number is none.
def float? (s : String) : Option Binary64 :=
  if s == ".nan" || s == ".NaN" || s == ".NAN" then some .nan
  else
    let decimal (cs : List Char) : Option Binary64 :=
      match DecimalText.ofChars? cs with
      | some t => if t.value.isFinite then some t.value else none
      | none => none
    match s.toList with
    | '+' :: '+' :: _ => none
    | '+' :: '-' :: _ => none
    | '+' :: rest => if isInfinityWord (String.ofList rest) then some (.infinite false) else decimal rest
    | '-' :: rest =>
        if isInfinityWord (String.ofList rest) then some (.infinite true) else decimal ('-' :: rest)
    | cs => if isInfinityWord s then some (.infinite false) else decimal cs

inductive Meaning where
  | null
  | bool (value : Bool)
  | number (value : Number)
  | tooLarge
  | text

-- Integers of up to 128 bits are integers; longer ones are read as floating point.
def integerMeaning (n : Int) : Option Meaning :=
  match Integer64.ofInt? n with
  | some n => some (.number (.integer n))
  | none => if -Int.ofNat (Nat.pow 2 127) ≤ n ∧ n < Int.ofNat (Nat.pow 2 128) then some .tooLarge else none

def meaning (s : String) : Meaning :=
  if s.isEmpty || isNull s then .null
  else match bool? s with
    | some b => .bool b
    | none =>
        let cs := s.toList
        match (integer? cs).bind integerMeaning with
        | some m => m
        | none =>
            if isPaddedDigits cs then .text
            else match float? s with
              | some x => .number (.float x)
              | none => .text

def needsQuotes (s : String) : Bool :=
  match meaning s with
  | .text => isPaddedDigits s.toList
  | _ => true

end ManifestSecrets.Yaml.Plain
