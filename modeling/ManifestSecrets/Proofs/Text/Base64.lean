import ManifestSecrets.Proofs.Text.Utf8

set_option autoImplicit false

namespace ManifestSecrets.Text

namespace Base64

def bits : Nat → Nat → List Nat
  | 0, _ => []
  | width + 1, n => n / Nat.pow 2 width % 2 :: bits width n

def alphabet : List Char := "ABCDEFGHIJKLMNOPQRSTUVWXYZabcdefghijklmnopqrstuvwxyz0123456789+/".toList

-- The bits of the bytes, filled up with zeros to whole digits of six bits, each digit written by its
-- symbol, and the text filled up with `=` to whole groups of four.
def IsStandard (bytes : List UInt8) (text : String) : Prop :=
  ∃ (digits : List Nat) (zeros pads : Nat),
    digits.flatMap (bits 6) = bytes.flatMap (fun b => bits 8 b.toNat) ++ List.replicate zeros 0 ∧ zeros < 6 ∧
      text.toList = digits.map (fun d => alphabet.getD d '=') ++ List.replicate pads '=' ∧
      (∀ d ∈ digits, d < 64) ∧ (digits.length + pads) % 4 = 0 ∧ pads < 4

theorem value_symbol (n : Nat) (small : n < 64) : value? (symbol n) = some n := by
  have all : ∀ n : Fin 64, value? (symbol n) = some n.val := by decide
  exact all ⟨n, small⟩

theorem symbol_written (n : Nat) (small : n < 64) : Char.ofNat (symbol n) = alphabet.getD n '=' := by
  have all : ∀ n : Fin 64, Char.ofNat (symbol n) = alphabet.getD n '=' := by decide +kernel
  exact all ⟨n, small⟩

theorem symbol_bounds (n : Nat) (small : n < 64) : symbol n ≠ pad ∧ symbol n < 128 := by
  unfold symbol pad
  split
  · omega
  · split
    · omega
    · split
      · omega
      · split <;> omega

theorem bits_one (a : UInt8) :
    bits 6 (a.toNat / 4) ++ bits 6 (a.toNat % 4 * 16) = bits 8 a.toNat ++ List.replicate 4 0 := by
  simp only [bits, List.cons_append, List.nil_append, List.replicate, List.cons.injEq, and_true, Nat.pow_eq]
  omega

theorem bits_two (a b : UInt8) :
    bits 6 (a.toNat / 4) ++ (bits 6 (a.toNat % 4 * 16 + b.toNat / 16) ++ bits 6 (b.toNat % 16 * 4)) =
      bits 8 a.toNat ++ (bits 8 b.toNat ++ List.replicate 2 0) := by
  have bound := b.toNat_lt
  simp only [bits, List.cons_append, List.nil_append, List.replicate, List.cons.injEq, and_true, Nat.pow_eq]
  omega

theorem bits_three (a b c : UInt8) :
    bits 6 (a.toNat / 4) ++ (bits 6 (a.toNat % 4 * 16 + b.toNat / 16) ++
        (bits 6 (b.toNat % 16 * 4 + c.toNat / 64) ++ bits 6 (c.toNat % 64))) =
      bits 8 a.toNat ++ (bits 8 b.toNat ++ bits 8 c.toNat) := by
  have second := b.toNat_lt
  have third := c.toNat_lt
  simp only [bits, List.cons_append, List.nil_append, List.cons.injEq, and_true, Nat.pow_eq]
  omega

-- The digits of the bytes, the zeros that fill up the last one, and the pads behind them.
theorem encode_codes_digits (bytes : List UInt8) :
    ∃ (digits : List Nat) (zeros pads : Nat), encodeCodes bytes = digits.map symbol ++ List.replicate pads pad ∧
      digits.flatMap (bits 6) = bytes.flatMap (fun b => bits 8 b.toNat) ++ List.replicate zeros 0 ∧ zeros < 6 ∧
      (∀ d ∈ digits, d < 64) ∧ (digits.length + pads) % 4 = 0 ∧ pads < 4 := by
  fun_induction encodeCodes bytes with
  | case1 => exact ⟨[], 0, 0, rfl, rfl, by omega, by simp, rfl, by omega⟩
  | case2 a =>
    have first := a.toNat_lt
    refine ⟨[a.toNat / 4, a.toNat % 4 * 16], 4, 2, rfl, ?_, by omega, ?_, by simp, by omega⟩
    · simpa only [List.flatMap_cons, List.flatMap_nil, List.append_nil] using bits_one a
    · simp only [List.forall_mem_cons, List.not_mem_nil, false_imp_iff, implies_true, and_true]
      omega
  | case3 a b =>
    have first := a.toNat_lt
    have second := b.toNat_lt
    refine ⟨[a.toNat / 4, a.toNat % 4 * 16 + b.toNat / 16, b.toNat % 16 * 4], 2, 1, rfl, ?_, by omega, ?_, by simp,
      by omega⟩
    · simpa only [List.flatMap_cons, List.flatMap_nil, List.append_nil, List.append_assoc] using bits_two a b
    · simp only [List.forall_mem_cons, List.not_mem_nil, false_imp_iff, implies_true, and_true]
      omega
  | case4 a b c rest ih =>
    have first := a.toNat_lt
    have second := b.toNat_lt
    have third := c.toNat_lt
    obtain ⟨digits, zeros, pads, codes, same, few, small, whole, padded⟩ := ih
    refine ⟨a.toNat / 4 :: (a.toNat % 4 * 16 + b.toNat / 16) :: (b.toNat % 16 * 4 + c.toNat / 64) ::
      (c.toNat % 64) :: digits, zeros, pads, ?_, ?_, few, ?_, ?_, padded⟩
    · simp only [codes, List.map_cons, List.cons_append]
    · have group := congrArg (· ++ digits.flatMap (bits 6)) (bits_three a b c)
      simpa only [List.flatMap_cons, List.append_assoc, same] using group
    · simp only [List.forall_mem_cons]
      exact ⟨by omega, by omega, by omega, by omega, small⟩
    · simp only [List.length_cons]
      omega

theorem encode_standard (bytes : List UInt8) : IsStandard bytes (encode bytes) := by
  obtain ⟨digits, zeros, pads, codes, same, few, small, whole, padded⟩ := encode_codes_digits bytes
  refine ⟨digits, zeros, pads, same, few, ?_, small, whole, padded⟩
  have written : (digits.map symbol).map Char.ofNat = digits.map (fun d => alphabet.getD d '=') := by
    rw [List.map_map]
    exact List.map_congr_left fun d member => symbol_written d (small d member)
  rw [encode, String.toList_ofList, codes, List.map_append, written, List.map_replicate]
  rfl

theorem encode_bracketless (bytes : List UInt8) : '<' ∉ (encode bytes).toList := by
  obtain ⟨digits, zeros, pads, -, -, chars, small, -, -⟩ := encode_standard bytes
  have letters : ∀ d : Fin 64, alphabet.getD d.val '=' ≠ '<' := by decide +kernel
  rw [chars, List.mem_append, List.mem_map, List.mem_replicate]
  rintro (⟨d, isDigit, same⟩ | ⟨-, same⟩)
  · exact letters ⟨d, small d isDigit⟩ same
  · exact absurd same (by decide)

theorem encode_codes_length (bytes : List UInt8) : (encodeCodes bytes).length % 4 = 0 := by
  obtain ⟨digits, zeros, pads, codes, -, -, -, whole, -⟩ := encode_codes_digits bytes
  rw [codes, List.length_append, List.length_map, List.length_replicate]
  exact whole

theorem encode_codes_ascii (bytes : List UInt8) : ∀ code ∈ encodeCodes bytes, code < 128 := by
  obtain ⟨digits, zeros, pads, codes, -, -, small, -, -⟩ := encode_codes_digits bytes
  intro code member
  rw [codes, List.mem_append, List.mem_map, List.mem_replicate] at member
  rcases member with ⟨d, isDigit, rfl⟩ | ⟨-, rfl⟩
  · exact (symbol_bounds d (small d isDigit)).2
  · decide

theorem join_first (a : UInt8) (low : Nat) (small : low < 16) :
    UInt8.ofNat (a.toNat / 4 * 4 + (a.toNat % 4 * 16 + low) / 16) = a := by
  have same : a.toNat / 4 * 4 + (a.toNat % 4 * 16 + low) / 16 = a.toNat := by omega
  rw [same, UInt8.ofNat_toNat]

theorem join_second (b : UInt8) (high low : Nat) (small : low < 4) :
    UInt8.ofNat ((high * 16 + b.toNat / 16) % 16 * 16 + (b.toNat % 16 * 4 + low) / 4) = b := by
  have bound := b.toNat_lt
  have same : (high * 16 + b.toNat / 16) % 16 * 16 + (b.toNat % 16 * 4 + low) / 4 = b.toNat := by omega
  rw [same, UInt8.ofNat_toNat]

theorem join_third (c : UInt8) (high : Nat) : UInt8.ofNat ((high * 4 + c.toNat / 64) % 4 * 64 + c.toNat % 64) = c := by
  have bound := c.toNat_lt
  have same : (high * 4 + c.toNat / 64) % 4 * 64 + c.toNat % 64 = c.toNat := by omega
  rw [same, UInt8.ofNat_toNat]

theorem last_group_symbol (start index d : Nat) (seen : List (Nat × Nat)) (rest : List Nat) (small : d < 64) :
    lastGroup.go start index seen 0 (symbol d :: rest) =
      lastGroup.go start (index + 1) ((symbol d, d) :: seen) 0 rest := by
  rw [lastGroup.go, if_neg (symbol_bounds d small).1, if_neg (Nat.lt_irrefl 0), value_symbol d small]

theorem last_group_pad (start index pads : Nat) (seen : List (Nat × Nat)) (rest : List Nat) (late : 2 ≤ index) :
    lastGroup.go start index seen pads (pad :: rest) = lastGroup.go start (index + 1) seen (pads + 1) rest := by
  rw [lastGroup.go, if_pos rfl, if_neg (Nat.not_lt.mpr late)]

theorem decode_last_one (start : Nat) (a : UInt8) : decodeLast start (encodeCodes [a]) = .ok [a] := by
  have first := a.toNat_lt
  have group : lastGroup start (encodeCodes [a]) =
      .ok ([(symbol (a.toNat / 4), a.toNat / 4), (symbol (a.toNat % 4 * 16), a.toNat % 4 * 16)], 2) := by
    rw [encodeCodes, lastGroup, last_group_symbol _ _ _ _ _ (by omega), last_group_symbol _ _ _ _ _ (by omega),
      last_group_pad _ _ _ _ _ (by omega), last_group_pad _ _ _ _ _ (by omega)]
    rfl
  have spare : ¬ a.toNat % 4 * 16 % 16 ≠ 0 := by omega
  have joined := join_first a 0 (by omega)
  rw [decodeLast, group]
  simp only [bind, Except.bind, List.length_cons, List.length_nil, Nat.reduceAdd, Nat.reduceMod, ne_eq,
    not_true_eq_false, if_false]
  rw [if_neg spare]
  simpa using joined

theorem decode_last_two (start : Nat) (a b : UInt8) : decodeLast start (encodeCodes [a, b]) = .ok [a, b] := by
  have first := a.toNat_lt
  have second := b.toNat_lt
  have group : lastGroup start (encodeCodes [a, b]) =
      .ok ([(symbol (a.toNat / 4), a.toNat / 4),
        (symbol (a.toNat % 4 * 16 + b.toNat / 16), a.toNat % 4 * 16 + b.toNat / 16),
        (symbol (b.toNat % 16 * 4), b.toNat % 16 * 4)], 1) := by
    rw [encodeCodes, lastGroup, last_group_symbol _ _ _ _ _ (by omega), last_group_symbol _ _ _ _ _ (by omega),
      last_group_symbol _ _ _ _ _ (by omega), last_group_pad _ _ _ _ _ (by omega)]
    rfl
  have spare : ¬ b.toNat % 16 * 4 % 4 ≠ 0 := by omega
  rw [decodeLast, group]
  simp only [bind, Except.bind, List.length_cons, List.length_nil, Nat.reduceAdd, Nat.reduceMod, ne_eq,
    not_true_eq_false, if_false]
  rw [if_neg spare, join_first a _ (by omega)]
  simpa using join_second b (a.toNat % 4) 0 (by omega)

theorem whole_group_encoded (start : Nat) (a b c : UInt8) :
    wholeGroup start (symbol (a.toNat / 4)) (symbol (a.toNat % 4 * 16 + b.toNat / 16))
      (symbol (b.toNat % 16 * 4 + c.toNat / 64)) (symbol (c.toNat % 64)) = .ok [a, b, c] := by
  have first := a.toNat_lt
  have second := b.toNat_lt
  have third := c.toNat_lt
  rw [wholeGroup, value_symbol _ (by omega), value_symbol _ (by omega), value_symbol _ (by omega),
    value_symbol _ (by omega)]
  simp only [join_first a (b.toNat / 16) (by omega), join_second b (a.toNat % 4) (c.toNat / 64) (by omega),
    join_third c (b.toNat % 16)]

theorem decode_last_three (start : Nat) (a b c : UInt8) :
    decodeLast start (encodeCodes [a, b, c]) = .ok [a, b, c] := by
  have first := a.toNat_lt
  have second := b.toNat_lt
  have third := c.toNat_lt
  have group : lastGroup start (encodeCodes [a, b, c]) =
      .ok ([(symbol (a.toNat / 4), a.toNat / 4),
        (symbol (a.toNat % 4 * 16 + b.toNat / 16), a.toNat % 4 * 16 + b.toNat / 16),
        (symbol (b.toNat % 16 * 4 + c.toNat / 64), b.toNat % 16 * 4 + c.toNat / 64),
        (symbol (c.toNat % 64), c.toNat % 64)], 0) := by
    rw [encodeCodes, lastGroup, last_group_symbol _ _ _ _ _ (by omega), last_group_symbol _ _ _ _ _ (by omega),
      last_group_symbol _ _ _ _ _ (by omega), last_group_symbol _ _ _ _ _ (by omega)]
    rfl
  rw [decodeLast, group]
  simp only [bind, Except.bind, List.length_cons, List.length_nil, Nat.reduceAdd, Nat.reduceMod, ne_eq,
    not_true_eq_false, if_false]
  rw [join_first a _ (by omega), join_second b (a.toNat % 4) _ (by omega), join_third c]

theorem encode_codes_cons (a : UInt8) (rest : List UInt8) :
    ∃ code others, encodeCodes (a :: rest) = code :: others := by
  cases rest with
  | nil => exact ⟨_, _, rfl⟩
  | cons b rest =>
    cases rest with
    | nil => exact ⟨_, _, rfl⟩
    | cons c rest => exact ⟨_, _, rfl⟩

theorem decode_from_encoded (start : Nat) (bytes : List UInt8) (filled : bytes ≠ []) :
    decodeFrom start (encodeCodes bytes) = .ok bytes := by
  fun_induction encodeCodes bytes generalizing start with
  | case1 => exact absurd rfl filled
  | case2 a => exact decode_last_one start a
  | case3 a b => exact decode_last_two start a b
  | case4 a b c rest ih =>
    cases rest with
    | nil => exact decode_last_three start a b c
    | cons d rest =>
      have later := ih (start + 4) (by simp)
      obtain ⟨code, others, codes⟩ := encode_codes_cons d rest
      rw [codes] at later ⊢
      rw [decodeFrom, whole_group_encoded, later]
      rfl

theorem decode_codes_encoded (bytes : List UInt8) : decodeCodes (encodeCodes bytes) = .ok bytes := by
  cases bytes with
  | nil => rfl
  | cons a rest =>
    obtain ⟨code, others, codes⟩ := encode_codes_cons a rest
    have groups := encode_codes_length (a :: rest)
    have decoded := decode_from_encoded 0 (a :: rest) (by simp)
    rw [codes] at groups decoded ⊢
    rw [decodeCodes, List.getLast?_cons]
    have whole : ¬ (code :: others).length % 4 = 1 := by omega
    simp only [whole, false_and, if_false]
    exact decoded

end Base64

theorem utf8_inj {s s' : String} (same : utf8 s = utf8 s') : s = s' := by
  have arrays : s.toUTF8.data = s'.toUTF8.data := Array.toList_inj.mp same
  exact String.toByteArray_inj.mp (ByteArray.ext arrays)

theorem utf8_of_ascii (codes : List Nat) (ascii : ∀ code ∈ codes, code < 128) :
    (utf8 (String.ofList (codes.map Char.ofNat))).map UInt8.toNat = codes := by
  rw [utf8_of_list]
  induction codes with
  | nil => rfl
  | cons code rest ih =>
    obtain ⟨small, others⟩ := List.forall_mem_cons.mp ascii
    have all : ∀ code : Fin 128, (String.utf8EncodeChar (Char.ofNat code)).map UInt8.toNat = [code.val] := by
      decide +kernel
    rw [List.map_cons, List.flatMap_cons, List.map_append, ih others, all ⟨code, small⟩]
    rfl

theorem decode_encoded (bytes : List UInt8) : decodeBase64 (Base64.encode bytes) = .ok bytes := by
  rw [decodeBase64, Base64.encode, utf8_of_ascii _ (Base64.encode_codes_ascii bytes), Base64.decode_codes_encoded]

end ManifestSecrets.Text
