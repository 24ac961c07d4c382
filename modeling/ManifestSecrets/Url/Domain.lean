import ManifestSecrets.Url.Punycode

/-!
A naming of hosts. Letters outside ASCII are put into one form, in lower case, and a label that holds any is spelled by
punycode behind a mark. It is a part of the processing that names go through: of the letters with two cases the mapping
knows the Latin, Greek and Cyrillic ones, and it puts no letter and its marks together.
-/

set_option autoImplicit false

namespace ManifestSecrets.Url.Domain

def within (ranges : List (Nat × Nat)) (c : Char) : Bool :=
  ranges.any fun (low, high) => low ≤ c.toNat && c.toNat ≤ high

def isIgnored (c : Char) : Bool :=
  within [(0xAD, 0xAD), (0x34F, 0x34F), (0x180B, 0x180F), (0x200B, 0x200B), (0x2060, 0x2060),
    (0x2064, 0x2064), (0xFE00, 0xFE0F), (0xFEFF, 0xFEFF)] c

-- Characters that no name may have: controls, joiners and marks of direction, separators, private and
-- special ones.
def isRefused (c : Char) : Bool :=
  within [(0x80, 0x9F), (0x200C, 0x200F), (0x2028, 0x202E), (0x2061, 0x2063), (0x2066, 0x206F),
    (0xE000, 0xF8FF), (0xFFF0, 0xFFFF), (0xE0000, 0x10FFFF)] c

def isPoint (c : Char) : Bool := c == '。' || c == '．' || c == '｡'

def capitals : List ((Nat × Nat) × Nat) :=
  [((0x41, 0x5A), 32), ((0xC0, 0xD6), 32), ((0xD8, 0xDE), 32), ((0x391, 0x3A1), 32), ((0x3A3, 0x3AB), 32),
    ((0x400, 0x40F), 80), ((0x410, 0x42F), 32)]

def evenCapitals : List (Nat × Nat) :=
  [(0x100, 0x12F), (0x14A, 0x177), (0x1DE, 0x1EF), (0x1F8, 0x21F), (0x222, 0x233), (0x460, 0x481),
    (0x48A, 0x4BF), (0x4D0, 0x52F), (0x1E00, 0x1E95), (0x1EA0, 0x1EFF)]

def oddCapitals : List (Nat × Nat) := [(0x139, 0x13E), (0x141, 0x148), (0x179, 0x17E), (0x1CD, 0x1DC)]

def lower (c : Char) : Char :=
  match capitals.find? fun (range, _) => within [range] c with
  | some (_, step) => Char.ofNat (c.toNat + step)
  | none =>
      if (within evenCapitals c && c.toNat % 2 = 0) || (within oddCapitals c && c.toNat % 2 = 1) then
        Char.ofNat (c.toNat + 1)
      else c

def narrow (c : Char) : Char := if within [(0xFF01, 0xFF5E)] c then Char.ofNat (c.toNat - 0xFEE0) else c

def single : List (Char × Char) :=
  [('\u00A0', ' '), ('\u3000', ' '), ('ª', 'a'), ('º', 'o'), ('¹', '1'), ('²', '2'), ('³', '3'), ('µ', 'μ'),
    ('Ÿ', 'ÿ'), ('ſ', 's'), ('Ά', 'ά'), ('Έ', 'έ'), ('Ή', 'ή'), ('Ί', 'ί'), ('Ό', 'ό'), ('Ύ', 'ύ'), ('Ώ', 'ώ')]

def mapped (c : Char) : List Char :=
  if isIgnored c then []
  else if isPoint c then ['.']
  else match single.find? fun (d, _) => d == c with
    | some (_, form) => [form]
    | none => [lower (narrow c)]

def isStable (c : Char) : Bool := mapped c == [c] && !isRefused c

def mark : List Char := "xn--".toList

-- A label in ASCII. One that is marked as spelled has to be the spelling of a label outside ASCII.
def label? (cs : List Char) : Option (List Char) :=
  if cs.any isRefused then none
  else if mark.isPrefixOf cs then
    match Punycode.decode? (cs.drop mark.length) with
    | some text => if text.all Punycode.isAscii || !text.all isStable then none else some cs
    | none => none
  else if cs.all Punycode.isAscii then some cs
  else some (mark ++ Punycode.encode cs)

def toAscii? (cs : List Char) : Option (List Char) := do
  let labels ← ((cs.flatMap mapped).splitOn '.').mapM label?
  return ['.'].intercalate labels

end ManifestSecrets.Url.Domain
