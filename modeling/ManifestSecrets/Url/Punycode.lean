/-!
Punycode, a spelling of any text by letters, digits and dashes. The ASCII characters come first; then
every other character, in the order of the code points, is given by the number of steps to it, a step
being one place in the text or one code point more.
-/

set_option autoImplicit false

namespace ManifestSecrets.Url.Punycode

def digit (d : Nat) : Char := Char.ofNat (if d < 26 then 97 + d else 22 + d)

def digit? (c : Char) : Option Nat :=
  if c.isLower then some (c.toNat - 97)
  else if c.isUpper then some (c.toNat - 65)
  else if c.isDigit then some (c.toNat - 22)
  else none

-- A digit below the threshold of its position ends a number.
def threshold (position bias : Nat) : Nat := max 1 (min 26 (position - bias))

theorem threshold_bounds (position bias : Nat) : 1 ≤ threshold position bias ∧ threshold position bias ≤ 26 := by
  unfold threshold
  omega

def base : Nat := 36

def biasOf (size bias : Nat) : Nat :=
  if 455 < size then biasOf (size / 35) (bias + base) else bias + base * size / (size + 38)
termination_by size
decreasing_by omega

def nextBias (number count : Nat) (first : Bool) : Nat :=
  let scaled := if first then number / 700 else number / 2
  biasOf (scaled + scaled / count) 0

def numeral (bias position number : Nat) : List Char :=
  let t := threshold position bias
  if number < t then [digit number]
  else digit (t + (number - t) % (base - t)) :: numeral bias (position + base) ((number - t) / (base - t))
termination_by number
decreasing_by
  have bounds := threshold_bounds position bias
  have small := Nat.div_le_self (number - threshold position bias) (base - threshold position bias)
  simp only [base] at *
  omega

structure Encoder where
  output : List Char
  steps : Nat := 0
  bias : Nat := 72
  count : Nat

def pass (first : Nat) (code : Nat) (e : Encoder) (c : Char) : Encoder :=
  if c.toNat < code then { e with steps := e.steps + 1 }
  else if c.toNat = code then
    { output := e.output ++ numeral e.bias base e.steps, steps := 0
      bias := nextBias e.steps (e.count + 1) (e.count == first), count := e.count + 1 }
  else e

def encodeCodes (text : List Char) (first : Nat) (passed : Nat) (e : Encoder) : List Nat → Encoder
  | [] => e
  | code :: rest =>
      let ahead := { e with steps := e.steps + (code - passed) * (e.count + 1) }
      let done := text.foldl (pass first code) ahead
      encodeCodes text first (code + 1) { done with steps := done.steps + 1 } rest

def isAscii (c : Char) : Bool := c.toNat < 0x80

def encode (text : List Char) : List Char :=
  let plain := text.filter isAscii
  let codes := ((text.filter fun c => !isAscii c).map Char.toNat).mergeSort.eraseDups
  let start := if plain.isEmpty then [] else plain ++ ['-']
  (encodeCodes text plain.length 0x80 { output := start, count := plain.length } codes).output

structure Decoder where
  output : List Char
  code : Nat := 0x80
  place : Nat := 0
  bias : Nat := 72
  number : Nat := 0
  worth : Nat := 1
  position : Nat := base

def insert? (d : Decoder) (number : Nat) : Option Decoder :=
  let count := d.output.length + 1
  let steps := d.place + number
  let code := d.code + steps / count
  let place := steps % count
  if Nat.isValidChar code then
    some {
      output := d.output.take place ++ Char.ofNat code :: d.output.drop place
      code, place := place + 1, bias := nextBias number count (d.place == 0) }
  else none

def decodeFrom? (d : Decoder) : List Char → Option (List Char)
  | [] => if d.position = base then some d.output else none
  | c :: rest => do
      let value ← digit? c
      let number := d.number + value * d.worth
      let t := threshold d.position d.bias
      if value < t then decodeFrom? (← insert? d number) rest
      else
        decodeFrom? { d with number, worth := d.worth * (base - t), position := d.position + base } rest

def splitLastDash (cs : List Char) : List Char × List Char :=
  let after := (cs.reverse.takeWhile (· != '-')).reverse
  (cs.take (cs.length - after.length - 1), after)

def decode? (cs : List Char) : Option (List Char) :=
  let (plain, rest) := splitLastDash cs
  decodeFrom? { output := plain } rest

end ManifestSecrets.Url.Punycode
