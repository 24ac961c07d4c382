/-!
Binary floating point of 64 bits, held exactly. A magnitude is a significand and a power of two; every
operation is exact arithmetic on natural numbers followed by one rounding, to the nearest magnitude
and on a tie to the even significand.
-/

set_option autoImplicit false

namespace ManifestSecrets

-- The number `significand · 2 ^ exponent`. The significand has 53 bits, or fewer at the least exponent.
structure Magnitude where
  significand : Nat
  exponent : Int
deriving DecidableEq, Repr, Inhabited

inductive Binary64 where
  | finite (negative : Bool) (magnitude : Magnitude)
  | infinite (negative : Bool)
  | nan
deriving DecidableEq, Repr, Inhabited

def roundHalfEven (num den : Nat) : Nat :=
  let low := num / den
  let twice := 2 * (num % den)
  if twice < den then low
  else if den < twice then low + 1
  else low + low % 2

def scaleRatio (num den : Nat) (exponent : Int) : Nat × Nat :=
  if 0 ≤ exponent then (num * Nat.pow 2 exponent.toNat, den) else (num, den * Nat.pow 2 (-exponent).toNat)

namespace Magnitude

def leastExponent : Int := -1074

def greatestExponent : Int := 971

def zero : Magnitude := ⟨0, leastExponent⟩

def isZero (m : Magnitude) : Bool := m.significand == 0

-- The exponent at which a positive ratio has a significand of 53 bits, or the least exponent.
def exponentOf (num den : Nat) : Int :=
  let guess : Int := num.log2 - den.log2 - 52
  let (n, d) := scaleRatio num den (-guess)
  max leastExponent (if d * Nat.pow 2 52 ≤ n then guess else guess - 1)

def ofRatio? (num den : Nat) : Option Magnitude :=
  if num = 0 then some zero
  else
    let exponent := exponentOf num den
    let (n, d) := scaleRatio num den (-exponent)
    let rounded := roundHalfEven n d
    let m : Magnitude := if rounded = Nat.pow 2 53 then ⟨Nat.pow 2 52, exponent + 1⟩ else ⟨rounded, exponent⟩
    if greatestExponent < m.exponent then none else some m

def ofNat? (n : Nat) : Option Magnitude := ofRatio? n 1

def times? (a b : Magnitude) : Option Magnitude :=
  let (n, d) := scaleRatio (a.significand * b.significand) 1 (a.exponent + b.exponent)
  ofRatio? n d

def over? (a b : Magnitude) : Option Magnitude :=
  let (n, d) := scaleRatio a.significand b.significand (a.exponent - b.exponent)
  ofRatio? n d

end Magnitude

namespace Binary64

def isFinite : Binary64 → Bool
  | .finite .. => true
  | _ => false

-- Equality of values: the two zeros are one, and so are all the values that are no number.
def sameValue : Binary64 → Binary64 → Bool
  | .finite n a, .finite m b => a == b && (n == m || a.isZero)
  | .infinite n, .infinite m => n == m
  | .nan, .nan => true
  | _, _ => false

def ofRatio (negative : Bool) (num den : Nat) : Binary64 :=
  match Magnitude.ofRatio? num den with
  | some m => .finite negative m
  | none => .infinite negative

end Binary64

end ManifestSecrets
