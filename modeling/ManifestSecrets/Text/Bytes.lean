import ManifestSecrets.Text.Base64
import ManifestSecrets.Text.Hex

set_option autoImplicit false

namespace ManifestSecrets.Text

def utf8 (s : String) : List UInt8 := s.toUTF8.data.toList

def ofUtf8? (bytes : List UInt8) : Option String := String.fromUTF8? ⟨bytes.toArray⟩

-- A character of which some bytes have been read: its bits, how many bytes follow the next one, and the bounds of that.
structure Partial where
  bits : Nat
  owed : Nat
  low : Nat
  high : Nat
  beyond : 0x80 ≤ low

def unreadable : Char := '\uFFFD'

def firstByte (b : UInt8) : List Char × Option Partial :=
  let n := b.toNat
  if n < 0x80 then ([Char.ofNat n], none)
  else if n < 0xC2 then ([unreadable], none)
  else if n < 0xE0 then ([], some ⟨n - 0xC0, 0, 0x80, 0xBF, by decide⟩)
  else if n < 0xF0 then
    ([], some ⟨n - 0xE0, 1, if n = 0xE0 then 0xA0 else 0x80, if n = 0xED then 0x9F else 0xBF, by split <;> decide⟩)
  else if n < 0xF5 then
    ([], some ⟨n - 0xF0, 2, if n = 0xF0 then 0x90 else 0x80, if n = 0xF4 then 0x8F else 0xBF, by split <;> decide⟩)
  else ([unreadable], none)

-- A byte that does not belong to the character before it ends that one and is a first byte itself.
def nextByte (p : Partial) (b : UInt8) : List Char × Option Partial :=
  if p.low ≤ b.toNat && b.toNat ≤ p.high then
    let bits := p.bits * 64 + (b.toNat - 0x80)
    match p.owed with
    | 0 => ([Char.ofNat bits], none)
    | owed + 1 => ([], some ⟨bits, owed, 0x80, 0xBF, by decide⟩)
  else (unreadable :: (firstByte b).1, (firstByte b).2)

def readLossy : Option Partial → List UInt8 → List Char
  | none, [] => []
  | some _, [] => [unreadable]
  | none, b :: rest => (firstByte b).1 ++ readLossy (firstByte b).2 rest
  | some p, b :: rest => (nextByte p b).1 ++ readLossy (nextByte p b).2 rest

-- The text of bytes, with a mark for each longest run of them that starts a character and does not end it.
def lossy (bytes : List UInt8) : String := String.ofList (readLossy none bytes)

def bytesHex (bytes : List UInt8) : String := String.join (bytes.map fun b => lowerHex 2 b.toNat)

def decodeBase64 (s : String) : Except Base64.Fault (List UInt8) :=
  Base64.decodeCodes ((utf8 s).map UInt8.toNat)

end ManifestSecrets.Text
