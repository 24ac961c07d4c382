import ManifestSecrets.Decimal.Number

/-!
The value of a number in JSON text. Digits are gathered into a significand of 64 bits for as long as
they fit; the significand is rounded once, and the product or quotient with the rounded power of ten a
second time. A product beyond the greatest number is an error.
-/

set_option autoImplicit false

namespace ManifestSecrets.Json

structure Numeral where
  negative : Bool
  whole : List Nat
  fraction : List Nat
  exponent : Option Int

namespace Numeral

def significandLimit : Nat := Nat.pow 2 64

-- Takes digits into a significand for as long as it stays below the limit.
def gather : Nat → List Nat → Nat × List Nat
  | n, [] => (n, [])
  | n, d :: rest => if n * 10 + d < significandLimit then gather (n * 10 + d) rest else (n, d :: rest)

def power? (n : Nat) : Option Magnitude := Magnitude.ofNat? (Nat.pow 10 n)

-- Divides by `10 ^ places`, in steps of 308 places. Zero stays zero, however many places.
def shrink : Nat → Magnitude → Nat → Option Magnitude
  | 0, _, _ => some .zero
  | steps + 1, m, places =>
      if places ≤ 308 then do m.over? (← power? places)
      else if m.isZero then some m
      else do shrink steps (← m.over? (← power? 308)) (places - 308)

-- `significand · 10 ^ exponent`; none beyond the greatest number. Four steps of division take any
-- significand of 64 bits to zero.
def scale? (significand : Nat) (exponent : Int) : Option Magnitude := do
  let m ← Magnitude.ofNat? significand
  if exponent < 0 then shrink 4 m (-exponent).toNat
  else if exponent ≤ 308 then m.times? (← power? exponent.toNat)
  else if m.isZero then some m
  else none

-- An integer that fits 64 bits stays one; minus zero does not.
def integer? (n : Numeral) : Option Integer64 :=
  if n.fraction.isEmpty && n.exponent.isNone then
    match gather 0 n.whole with
    | (value, []) =>
        if n.negative then (if 0 < value then Integer64.ofInt? (-(value : Int)) else none)
        else Integer64.ofInt? value
    | _ => none
  else none

def float? (n : Numeral) : Option Binary64 := do
  let (whole, beyond) := gather 0 n.whole
  let (significand, dropped) := gather whole n.fraction
  let taken : Int := n.fraction.length - dropped.length
  let m ← scale? significand (beyond.length - taken + n.exponent.getD 0)
  some (.finite n.negative m)

def number? (n : Numeral) : Option Number :=
  match n.integer? with
  | some value => some (.integer value)
  | none => n.float?.map .float

end Numeral

end ManifestSecrets.Json
