import ManifestSecrets.Decimal.Binary64

/-!
The shortest decimal that reads back as a given magnitude. All reals that round to a magnitude form an
interval around it, whose ends belong to it when the significand is even. For 1, 2, … 17 digits the
two neighbours of the magnitude on that decimal grid are tried: the first grid with a hit wins, and of
two hits the nearer.
-/

set_option autoImplicit false

namespace ManifestSecrets

-- The number `0.d₁d₂… · 10 ^ point`, whose first and last digits are not zero.
structure Digits where
  digits : List Nat
  point : Int
deriving DecidableEq, Repr

namespace Digits

def ofNat (n : Nat) : List Nat := (Nat.toDigits 10 n).map fun c => c.toNat - 48

def ofScaled (n : Nat) (unit : Int) : Digits :=
  let all := ofNat n
  ⟨(all.reverse.dropWhile (· == 0)).reverse, unit + all.length⟩

end Digits

namespace Magnitude

structure Interval where
  low : Nat
  middle : Nat
  high : Nat
  den : Nat
  closed : Bool

-- Below a power of two the neighbours are half as far away.
def interval (m : Magnitude) : Interval :=
  let below := if m.significand = Nat.pow 2 52 ∧ leastExponent < m.exponent then 1 else 2
  let (scale, den) := scaleRatio 1 1 (m.exponent - 2)
  ⟨(4 * m.significand - below) * scale, 4 * m.significand * scale, (4 * m.significand + 2) * scale, den,
    m.significand % 2 == 0⟩

def Interval.holds (i : Interval) (num den : Nat) : Bool :=
  let (a, b, c) := (i.low * den, num * i.den, i.high * den)
  if i.closed then a ≤ b && b ≤ c else a < b && b < c

def leadingExponent (num den : Nat) : Int :=
  let guess : Int := ((num.log2 : Int) - den.log2) * 30103 / 100000
  let reaches (e : Int) : Bool :=
    if 0 ≤ e then den * Nat.pow 10 e.toNat ≤ num else den ≤ num * Nat.pow 10 (-e).toNat
  if reaches (guess + 1) then guess + 1 else if reaches guess then guess else guess - 1

-- The grid point of `count` digits that rounds to the magnitude, the nearer of two.
def onGrid? (i : Interval) (leading : Int) (count : Nat) : Option Digits :=
  let unit : Int := leading + 1 - count
  let (up, down) := if 0 ≤ unit then (Nat.pow 10 unit.toNat, 1) else (1, Nat.pow 10 (-unit).toNat)
  let low := i.middle * down / (i.den * up)
  let rest := i.middle * down % (i.den * up)
  let lowHits := i.holds (low * up) down
  let highHits := i.holds ((low + 1) * up) down
  let nearLow := 2 * rest < i.den * up || (2 * rest == i.den * up && low % 2 == 0)
  if lowHits && (nearLow || !highHits) then some (.ofScaled low unit)
  else if highHits then some (.ofScaled (low + 1) unit)
  else none

def shortest (m : Magnitude) : Digits :=
  if m.isZero then ⟨[0], 1⟩
  else
    let i := m.interval
    let leading := leadingExponent i.middle i.den
    ((List.range 17).findSome? fun k => onGrid? i leading (k + 1)).getD
      (.ofScaled (i.middle / i.den) 0)

end Magnitude

end ManifestSecrets
