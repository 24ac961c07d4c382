import ManifestSecrets.Decimal.Layout

set_option autoImplicit false

namespace ManifestSecrets

structure Integer64 where
  value : Int
  least : -0x8000000000000000 ≤ value
  greatest : value ≤ 0xFFFFFFFFFFFFFFFF
deriving DecidableEq, Repr

namespace Integer64

instance : Inhabited Integer64 := ⟨⟨0, by decide, by decide⟩⟩

def ofInt? (n : Int) : Option Integer64 :=
  if inside : -0x8000000000000000 ≤ n ∧ n ≤ 0xFFFFFFFFFFFFFFFF then some ⟨n, inside.1, inside.2⟩ else none

def ofSigned (i : Int64) : Integer64 where
  value := i.toInt
  least := i.le_toInt
  greatest := by have := i.toInt_lt; omega

def ofUnsigned (u : UInt64) : Integer64 where
  value := u.toNat
  least := by omega
  greatest := by have := u.toNat_lt; omega

def signed? (n : Integer64) : Option Int64 := if n.value < 0x8000000000000000 then some (.ofInt n.value) else none

def unsigned? (n : Integer64) : Option UInt64 := if 0 ≤ n.value then some (.ofNat n.value.toNat) else none

def nearest (n : Integer64) : Binary64 := .ofRatio (n.value < 0) n.value.natAbs 1

end Integer64

inductive Number where
  | integer (value : Integer64)
  | float (value : Binary64)
deriving DecidableEq, Repr, Inhabited

namespace Number

def isFinite : Number → Bool
  | .integer _ => true
  | .float x => x.isFinite

def write (layout : Layout) : Number → String
  | .integer n => toString n.value
  | .float x => layout.write x

def display : Number → String := write .json

def sameValue : Number → Number → Bool
  | .integer a, .integer b => a == b
  | .float a, .float b => a.sameValue b
  | _, _ => false

def signed? : Number → Option Int64
  | .integer n => n.signed?
  | .float _ => none

def unsigned? : Number → Option UInt64
  | .integer n => n.unsigned?
  | .float _ => none

def nearest : Number → Binary64
  | .integer n => n.nearest
  | .float x => x

def ofFloat? (x : Binary64) : Option Number := if x.isFinite then some (.float x) else none

-- A number taken over as an integer with a sign, else as one without, else as the nearest float if that is finite.
def carried? (n : Number) : Option Number :=
  match n.signed? with
  | some i => some (.integer (.ofSigned i))
  | none =>
      match n.unsigned? with
      | some u => some (.integer (.ofUnsigned u))
      | none => ofFloat? n.nearest

end Number

end ManifestSecrets
