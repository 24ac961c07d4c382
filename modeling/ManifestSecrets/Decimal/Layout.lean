import ManifestSecrets.Decimal.Shortest

set_option autoImplicit false

namespace ManifestSecrets

-- Numbers whose leading digit has an exponent from `least` to `greatest` are written positionally, with
-- at least one decimal; all others with an exponent.
structure Layout where
  least : Int
  greatest : Int
  plus : Bool
  infinity : String
  notANumber : String

namespace Layout

-- JSON text signs every exponent.
def json : Layout := ⟨-5, 15, true, "inf", "NaN"⟩

-- YAML text signs negative exponents only, and has words for what is no finite number.
def yaml : Layout := ⟨-5, 15, false, ".inf", ".nan"⟩

def digitText (ds : List Nat) : String := String.ofList (ds.map fun d => Char.ofNat (48 + d))

def zeros (n : Nat) : String := String.ofList (List.replicate n '0')

def positional (d : Digits) : String :=
  if d.point ≤ 0 then "0." ++ zeros (-d.point).toNat ++ digitText d.digits
  else
    let whole := d.point.toNat
    if d.digits.length ≤ whole then
      digitText d.digits ++ zeros (whole - d.digits.length) ++ ".0"
    else digitText (d.digits.take whole) ++ "." ++ digitText (d.digits.drop whole)

def scientific (layout : Layout) (d : Digits) : String :=
  let exponent := d.point - 1
  let sign := if exponent < 0 then "-" else if layout.plus then "+" else ""
  let fraction := match d.digits.drop 1 with
    | [] => ""
    | rest => "." ++ digitText rest
  digitText (d.digits.take 1) ++ fraction ++ "e" ++ sign ++ toString exponent.natAbs

def magnitude (layout : Layout) (m : Magnitude) : String :=
  let d := m.shortest
  if m.isZero || (layout.least ≤ d.point - 1 && d.point - 1 ≤ layout.greatest) then positional d
  else scientific layout d

def write (layout : Layout) : Binary64 → String
  | .finite negative m => (if negative then "-" else "") ++ layout.magnitude m
  | .infinite negative => (if negative then "-" else "") ++ layout.infinity
  | .nan => layout.notANumber

end Layout

end ManifestSecrets
