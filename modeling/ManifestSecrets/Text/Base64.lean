set_option autoImplicit false

namespace ManifestSecrets.Text.Base64

def symbol (n : Nat) : Nat :=
  if n < 26 then 65 + n
  else if n < 52 then 71 + n
  else if n < 62 then n - 4
  else if n = 62 then 43
  else 47

def value? (code : Nat) : Option Nat :=
  if 65 ≤ code ∧ code ≤ 90 then some (code - 65)
  else if 97 ≤ code ∧ code ≤ 122 then some (code - 71)
  else if 48 ≤ code ∧ code ≤ 57 then some (code + 4)
  else if code = 43 then some 62
  else if code = 47 then some 63
  else none

def pad : Nat := 61

def encodeCodes : List UInt8 → List Nat
  | [] => []
  | [a] => [symbol (a.toNat / 4), symbol (a.toNat % 4 * 16), pad, pad]
  | [a, b] =>
      [symbol (a.toNat / 4), symbol (a.toNat % 4 * 16 + b.toNat / 16), symbol (b.toNat % 16 * 4), pad]
  | a :: b :: c :: rest =>
      symbol (a.toNat / 4) :: symbol (a.toNat % 4 * 16 + b.toNat / 16) ::
        symbol (b.toNat % 16 * 4 + c.toNat / 64) :: symbol (c.toNat % 64) :: encodeCodes rest

def encode (bytes : List UInt8) : String := String.ofList ((encodeCodes bytes).map Char.ofNat)

inductive Fault where
  | symbol (byte offset : Nat)
  | length (symbols : Nat)
  | lastSymbol (byte offset : Nat)
  | padding
deriving DecidableEq, Repr

def Fault.message : Fault → String
  | .symbol byte offset => s!"Invalid symbol {byte}, offset {offset}."
  | .length symbols => s!"Invalid input length: {symbols}"
  | .lastSymbol byte offset => s!"Invalid last symbol {byte}, offset {offset}."
  | .padding => "Invalid padding"

-- The values of the symbols before the padding of the last group, and how many pads follow. The group
-- starts at `start`.
def lastGroup (start : Nat) (codes : List Nat) : Except Fault (List (Nat × Nat) × Nat) :=
  go 0 [] 0 codes
where
  go (index : Nat) (seen : List (Nat × Nat)) (pads : Nat) : List Nat → Except Fault (List (Nat × Nat) × Nat)
    | [] => .ok (seen.reverse, pads)
    | code :: rest =>
        if code = pad then
          if index < 2 then .error (.symbol code (start + index)) else go (index + 1) seen (pads + 1) rest
        else if 0 < pads then .error (.symbol pad (start + index - pads))
        else match value? code with
          | none => .error (.symbol code (start + index))
          | some v => go (index + 1) ((code, v) :: seen) pads rest

def decodeLast (start : Nat) (codes : List Nat) : Except Fault (List UInt8) := do
  let (symbols, pads) ← lastGroup start codes
  match symbols with
  | [] => .ok []
  | [_] => .error (.length (start + 1))
  | _ =>
      if (symbols.length + pads) % 4 ≠ 0 then .error .padding
      else match symbols with
        | [(_, a), (code, b)] =>
            if b % 16 ≠ 0 then .error (.lastSymbol code (start + 1))
            else .ok [UInt8.ofNat (a * 4 + b / 16)]
        | [(_, a), (_, b), (code, c)] =>
            if c % 4 ≠ 0 then .error (.lastSymbol code (start + 2))
            else .ok [UInt8.ofNat (a * 4 + b / 16), UInt8.ofNat (b % 16 * 16 + c / 4)]
        | [(_, a), (_, b), (_, c), (_, d)] =>
            .ok [UInt8.ofNat (a * 4 + b / 16), UInt8.ofNat (b % 16 * 16 + c / 4), UInt8.ofNat (c % 4 * 64 + d)]
        | _ => .ok []

def wholeGroup (start : Nat) (a b c d : Nat) : Except Fault (List UInt8) :=
  match value? a, value? b, value? c, value? d with
  | none, _, _, _ => .error (.symbol a start)
  | _, none, _, _ => .error (.symbol b (start + 1))
  | _, _, none, _ => .error (.symbol c (start + 2))
  | _, _, _, none => .error (.symbol d (start + 3))
  | some a, some b, some c, some d =>
      .ok [UInt8.ofNat (a * 4 + b / 16), UInt8.ofNat (b % 16 * 16 + c / 4), UInt8.ofNat (c % 4 * 64 + d)]

def decodeFrom (start : Nat) : List Nat → Except Fault (List UInt8)
  | a :: b :: c :: d :: e :: rest => do
      let here ← wholeGroup start a b c d
      let more ← decodeFrom (start + 4) (e :: rest)
      return here ++ more
  | codes => decodeLast start codes

def decodeCodes (codes : List Nat) : Except Fault (List UInt8) :=
  match codes.getLast? with
  | some last =>
      if codes.length % 4 = 1 ∧ last ≠ pad ∧ value? last = none then
        .error (.symbol last (codes.length - 1))
      else decodeFrom 0 codes
  | none => .ok []

end ManifestSecrets.Text.Base64
