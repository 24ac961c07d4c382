import ManifestSecrets.Decimal.Number

set_option autoImplicit false

namespace ManifestSecrets

structure DecimalText where
  negative : Bool
  whole : List Char
  fraction : List Char
  exponent : Int

namespace DecimalText

def digitsValue (cs : List Char) : Nat := cs.foldl (fun n c => n * 10 + (c.toNat - 48)) 0

def exponent? (cs : List Char) : Option Int :=
  let (negative, ds) := match cs with
    | '-' :: rest => (true, rest)
    | '+' :: rest => (false, rest)
    | cs => (false, cs)
  if ds.isEmpty || !ds.all Char.isDigit then none
  else some (if negative then -(digitsValue ds : Int) else digitsValue ds)

def ofChars? (cs : List Char) : Option DecimalText :=
  let (negative, cs) := match cs with
    | '-' :: rest => (true, rest)
    | '+' :: rest => (false, rest)
    | cs => (false, cs)
  let whole := cs.takeWhile Char.isDigit
  let (fraction, rest) := match cs.dropWhile Char.isDigit with
    | '.' :: rest => (rest.takeWhile Char.isDigit, rest.dropWhile Char.isDigit)
    | rest => ([], rest)
  if whole.isEmpty && fraction.isEmpty then none
  else match rest with
    | [] => some ⟨negative, whole, fraction, 0⟩
    | mark :: rest =>
        if mark = 'e' ∨ mark = 'E' then
          (exponent? rest).map fun e => ⟨negative, whole, fraction, e⟩
        else none

-- The nearest number. Beyond 400 places from the point, in either direction, every text reads as an
-- infinity or as zero, whatever its digits.
def value (t : DecimalText) : Binary64 :=
  let ds := (t.whole ++ t.fraction).dropWhile (· == '0')
  let unit : Int := t.exponent - t.fraction.length
  let leading : Int := unit + ds.length
  if ds.isEmpty then .finite t.negative .zero
  else if 400 < leading then .infinite t.negative
  else if leading < -400 then .finite t.negative .zero
  else if 0 ≤ unit then .ofRatio t.negative (digitsValue ds * Nat.pow 10 unit.toNat) 1
  else .ofRatio t.negative (digitsValue ds) (Nat.pow 10 (-unit).toNat)

end DecimalText

end ManifestSecrets
