import ManifestSecrets.Text.Bytes

set_option autoImplicit false

namespace ManifestSecrets.Text

theorem utf8_of_list (cs : List Char) : utf8 (String.ofList cs) = cs.flatMap String.utf8EncodeChar := by
  simp [utf8, List.utf8Encode]

theorem utf8_chars (s : String) : utf8 s = s.toList.flatMap String.utf8EncodeChar := by
  rw [← utf8_of_list, String.ofList_toList]

theorem of_utf8_some (bytes : List UInt8) (s : String) (read : ofUtf8? bytes = some s) : utf8 s = bytes := by
  unfold ofUtf8? String.fromUTF8? at read
  split at read
  next valid =>
    obtain rfl := Option.some.inj read
    rfl
  next => simp at read

theorem of_utf8_utf8 (s : String) : ofUtf8? (utf8 s) = some s := by
  have valid : s.toUTF8.IsValidUTF8 := s.isValidUTF8
  simp only [ofUtf8?, utf8, String.fromUTF8?]
  exact dif_pos valid

theorem char_bound (c : Char) : c.toNat < 0x110000 := by
  have valid := c.valid
  simp only [UInt32.isValidChar, Nat.isValidChar] at valid
  change c.val.toNat < _
  omega

theorem encode_char_codes (c : Char) : (String.utf8EncodeChar c).map UInt8.toNat =
    if c.toNat < 0x80 then [c.toNat]
    else if c.toNat < 0x800 then [0xC0 + c.toNat / 64, 0x80 + c.toNat % 64]
    else if c.toNat < 0x10000 then [0xE0 + c.toNat / 4096, 0x80 + c.toNat / 64 % 64, 0x80 + c.toNat % 64]
    else [0xF0 + c.toNat / 262144, 0x80 + c.toNat / 4096 % 64, 0x80 + c.toNat / 64 % 64, 0x80 + c.toNat % 64] := by
  have bound := char_bound c
  have code : c.val.toNat = c.toNat := rfl
  simp only [String.utf8EncodeChar, code, ← Nat.lt_succ_iff]
  split
  · simp only [List.map_cons, List.map_nil, UInt8.toNat_ofNat', List.cons.injEq, and_true]
    omega
  · split
    · simp only [List.map_cons, List.map_nil, UInt8.toNat_ofNat', List.cons.injEq, and_true]
      omega
    · split
      · simp only [List.map_cons, List.map_nil, UInt8.toNat_ofNat', List.cons.injEq, and_true]
        omega
      · simp only [List.map_cons, List.map_nil, UInt8.toNat_ofNat', List.cons.injEq, and_true]
        omega

theorem char_scalar (c : Char) : c.toNat < 0xD800 ∨ 0xDFFF < c.toNat := by
  have valid := c.valid
  simp only [UInt32.isValidChar, Nat.isValidChar] at valid
  change c.val.toNat < _ ∨ _ < c.val.toNat
  omega

section Lossy

variable (bits owed low high : Nat) (beyond : 0x80 ≤ low) (rest : List UInt8)

theorem next_byte_last (b : UInt8) (inside : low ≤ b.toNat ∧ b.toNat ≤ high) :
    nextByte ⟨bits, 0, low, high, beyond⟩ b = ([Char.ofNat (bits * 64 + (b.toNat - 0x80))], none) := by
  simp [nextByte, inside]

theorem next_byte_more (b : UInt8) (inside : low ≤ b.toNat ∧ b.toNat ≤ high) :
    nextByte ⟨bits, owed + 1, low, high, beyond⟩ b =
      ([], some ⟨bits * 64 + (b.toNat - 0x80), owed, 0x80, 0xBF, by decide⟩) := by
  simp [nextByte, inside]

theorem lossy_two (a b : UInt8) (n : Nat) (least : 0x80 ≤ n) (most : n < 0x800) (first : a.toNat = 0xC0 + n / 64)
    (second : b.toNat = 0x80 + n % 64) : readLossy none (a :: b :: rest) = Char.ofNat n :: readLossy none rest := by
  have start : firstByte a = ([], some ⟨a.toNat - 0xC0, 0, 0x80, 0xBF, by decide⟩) := by
    simp only [firstByte]
    rw [if_neg (by omega), if_neg (by omega), if_pos (by omega)]
  have last := next_byte_last (a.toNat - 0xC0) 0x80 0xBF (by decide) b (by omega)
  have code : (a.toNat - 0xC0) * 64 + (b.toNat - 0x80) = n := by omega
  simp only [readLossy, start, last, code, List.nil_append, List.cons_append]

theorem lossy_three (a b c : UInt8) (n : Nat) (least : 0x800 ≤ n) (most : n < 0x10000)
    (scalar : n < 0xD800 ∨ 0xDFFF < n) (first : a.toNat = 0xE0 + n / 4096) (second : b.toNat = 0x80 + n / 64 % 64)
    (third : c.toNat = 0x80 + n % 64) :
    readLossy none (a :: b :: c :: rest) = Char.ofNat n :: readLossy none rest := by
  have start : firstByte a = ([], some ⟨a.toNat - 0xE0, 1, if a.toNat = 0xE0 then 0xA0 else 0x80,
      if a.toNat = 0xED then 0x9F else 0xBF, by split <;> decide⟩) := by
    simp only [firstByte]
    rw [if_neg (by omega), if_neg (by omega), if_neg (by omega), if_pos (by omega)]
  have more := next_byte_more (a.toNat - 0xE0) 0 (if a.toNat = 0xE0 then 0xA0 else 0x80)
    (if a.toNat = 0xED then 0x9F else 0xBF) (by split <;> decide) b (by split <;> split <;> omega)
  have last := next_byte_last ((a.toNat - 0xE0) * 64 + (b.toNat - 0x80)) 0x80 0xBF (by decide) c (by omega)
  have code : ((a.toNat - 0xE0) * 64 + (b.toNat - 0x80)) * 64 + (c.toNat - 0x80) = n := by omega
  simp only [readLossy, start, more, last, code, List.nil_append, List.cons_append]

theorem lossy_four (a b c d : UInt8) (n : Nat) (least : 0x10000 ≤ n) (most : n < 0x110000)
    (first : a.toNat = 0xF0 + n / 262144) (second : b.toNat = 0x80 + n / 4096 % 64)
    (third : c.toNat = 0x80 + n / 64 % 64) (fourth : d.toNat = 0x80 + n % 64) :
    readLossy none (a :: b :: c :: d :: rest) = Char.ofNat n :: readLossy none rest := by
  have start : firstByte a = ([], some ⟨a.toNat - 0xF0, 2, if a.toNat = 0xF0 then 0x90 else 0x80,
      if a.toNat = 0xF4 then 0x8F else 0xBF, by split <;> decide⟩) := by
    simp only [firstByte]
    rw [if_neg (by omega), if_neg (by omega), if_neg (by omega), if_neg (by omega), if_pos (by omega)]
  have more := next_byte_more (a.toNat - 0xF0) 1 (if a.toNat = 0xF0 then 0x90 else 0x80)
    (if a.toNat = 0xF4 then 0x8F else 0xBF) (by split <;> decide) b (by split <;> split <;> omega)
  have middle := next_byte_more ((a.toNat - 0xF0) * 64 + (b.toNat - 0x80)) 0 0x80 0xBF (by decide) c (by omega)
  have last := next_byte_last (((a.toNat - 0xF0) * 64 + (b.toNat - 0x80)) * 64 + (c.toNat - 0x80)) 0x80 0xBF
    (by decide) d (by omega)
  have code : (((a.toNat - 0xF0) * 64 + (b.toNat - 0x80)) * 64 + (c.toNat - 0x80)) * 64 + (d.toNat - 0x80) = n := by
    omega
  simp only [readLossy, start, more, middle, last, code, List.nil_append, List.cons_append]

theorem lossy_char (c : Char) : readLossy none (String.utf8EncodeChar c ++ rest) = c :: readLossy none rest := by
  have bound := char_bound c
  have scalar := char_scalar c
  have codes := encode_char_codes c
  generalize String.utf8EncodeChar c = bytes at codes
  by_cases one : c.toNat < 0x80
  · rw [if_pos one] at codes
    obtain ⟨a, _, rfl, first, ends⟩ := List.map_eq_cons_iff.mp codes
    obtain rfl := List.map_eq_nil_iff.mp ends
    simp [readLossy, firstByte, first, one]
  rw [if_neg one] at codes
  by_cases two : c.toNat < 0x800
  · rw [if_pos two] at codes
    obtain ⟨a, _, rfl, first, codes⟩ := List.map_eq_cons_iff.mp codes
    obtain ⟨b, _, rfl, second, ends⟩ := List.map_eq_cons_iff.mp codes
    obtain rfl := List.map_eq_nil_iff.mp ends
    simpa using lossy_two rest a b c.toNat (by omega) two first second
  rw [if_neg two] at codes
  by_cases three : c.toNat < 0x10000
  · rw [if_pos three] at codes
    obtain ⟨a, _, rfl, first, codes⟩ := List.map_eq_cons_iff.mp codes
    obtain ⟨b, _, rfl, second, codes⟩ := List.map_eq_cons_iff.mp codes
    obtain ⟨d, _, rfl, third, ends⟩ := List.map_eq_cons_iff.mp codes
    obtain rfl := List.map_eq_nil_iff.mp ends
    simpa using lossy_three rest a b d c.toNat (by omega) three scalar first second third
  · rw [if_neg three] at codes
    obtain ⟨a, _, rfl, first, codes⟩ := List.map_eq_cons_iff.mp codes
    obtain ⟨b, _, rfl, second, codes⟩ := List.map_eq_cons_iff.mp codes
    obtain ⟨d, _, rfl, third, codes⟩ := List.map_eq_cons_iff.mp codes
    obtain ⟨e, _, rfl, fourth, ends⟩ := List.map_eq_cons_iff.mp codes
    obtain rfl := List.map_eq_nil_iff.mp ends
    simpa using lossy_four rest a b d e c.toNat (by omega) bound first second third fourth

end Lossy

theorem lossy_chars (cs : List Char) (rest : List UInt8) :
    readLossy none (cs.flatMap String.utf8EncodeChar ++ rest) = cs ++ readLossy none rest := by
  induction cs with
  | nil => rfl
  | cons c cs ih => rw [List.flatMap_cons, List.append_assoc, lossy_char, ih, List.cons_append]

theorem lossy_utf8 (s : String) : lossy (utf8 s) = s := by
  have read := lossy_chars s.toList []
  rw [List.append_nil, ← utf8_chars] at read
  rw [lossy, read]
  simp [readLossy]

-- What has begun in front of a character of one byte ends there.
theorem lossy_ascii (p : Option Partial) (front back : List UInt8) (b : UInt8) (ascii : b.toNat < 0x80) :
    readLossy p (front ++ b :: back) = readLossy p front ++ Char.ofNat b.toNat :: readLossy none back := by
  have first : firstByte b = ([Char.ofNat b.toNat], none) := by simp [firstByte, ascii]
  induction front generalizing p with
  | nil =>
    cases p with
    | none => simp [readLossy, first]
    | some p =>
      have beyond := p.beyond
      have outside : ¬ p.low ≤ b.toNat := by omega
      simp [readLossy, nextByte, first, outside]
  | cons a front ih =>
    cases p with
    | none => simp only [List.cons_append, readLossy, ih, List.append_assoc]
    | some p => simp only [List.cons_append, readLossy, ih, List.append_assoc]

end ManifestSecrets.Text
