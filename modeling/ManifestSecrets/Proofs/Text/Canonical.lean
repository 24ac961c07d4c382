import ManifestSecrets.Proofs.Text.Base64
import Mathlib.Tactic.SplitIfs

set_option autoImplicit false

namespace ManifestSecrets.Text

namespace Base64

theorem symbol_value (code v : Nat) (valued : value? code = some v) : symbol v = code ∧ v < 64 := by
  unfold value? at valued
  unfold symbol
  split at valued
  · obtain rfl := Option.some.inj valued
    rw [if_pos (by omega)]
    omega
  split at valued
  · obtain rfl := Option.some.inj valued
    rw [if_neg (by omega), if_pos (by omega)]
    omega
  split at valued
  · obtain rfl := Option.some.inj valued
    rw [if_neg (by omega), if_neg (by omega), if_pos (by omega)]
    omega
  split at valued
  · obtain rfl := Option.some.inj valued
    rw [if_neg (by omega), if_neg (by omega), if_neg (by omega), if_pos rfl]
    omega
  split at valued
  · obtain rfl := Option.some.inj valued
    rw [if_neg (by omega), if_neg (by omega), if_neg (by omega), if_neg (by omega)]
    omega
  · simp at valued

def Valued (symbols : List (Nat × Nat)) : Prop := ∀ entry ∈ symbols, symbol entry.2 = entry.1 ∧ entry.2 < 64

-- What is read is symbols and after them pads; the first pad is not among the first two places.
theorem last_group_read (start index : Nat) (seen symbols : List (Nat × Nat)) (pads total : Nat) (codes : List Nat)
    (ok : lastGroup.go start index seen pads codes = .ok (symbols, total)) :
    ∃ more behind, symbols = seen.reverse ++ more ∧ codes = more.map Prod.fst ++ List.replicate behind pad ∧
      total = pads + behind ∧ Valued more ∧ (0 < pads → more = []) ∧ (0 < behind → 2 ≤ index + more.length) := by
  induction codes generalizing index seen pads with
  | nil =>
    simp only [lastGroup.go, Except.ok.injEq, Prod.mk.injEq] at ok
    obtain ⟨rfl, rfl⟩ := ok
    exact ⟨[], 0, by simp, rfl, rfl, by simp [Valued], fun _ => rfl, by omega⟩
  | cons code rest ih =>
    rw [lastGroup.go] at ok
    by_cases isPad : code = pad
    · rw [if_pos isPad] at ok
      by_cases early : index < 2
      · simp [early] at ok
      · rw [if_neg early] at ok
        obtain ⟨more, behind, same, codes, count, valued, late, -⟩ := ih (index + 1) seen (pads + 1) ok
        obtain rfl := late (by omega)
        refine ⟨[], behind + 1, same, ?_, by omega, valued, fun _ => rfl, fun _ => by omega⟩
        rw [codes, isPad, List.replicate_succ]
        rfl
    · rw [if_neg isPad] at ok
      by_cases after : 0 < pads
      · simp [after] at ok
      · rw [if_neg after] at ok
        cases value : value? code with
        | none => simp [value] at ok
        | some v =>
          rw [value] at ok
          obtain ⟨more, behind, same, codes, count, valued, -, enough⟩ := ih (index + 1) _ pads ok
          refine ⟨(code, v) :: more, behind, by simpa using same, by rw [codes]; rfl, count, ?_,
            fun positive => absurd positive after, fun positive => ?_⟩
          · exact List.forall_mem_cons.mpr ⟨symbol_value code v value, valued⟩
          · have here := enough positive
            rw [List.length_cons]
            omega

theorem byte_joined (n : Nat) (small : n < 256) : (UInt8.ofNat n).toNat = n :=
  UInt8.toNat_ofNat_of_lt' small

theorem encode_one_joined (a b : Nat) (aSmall : a < 64) (bSmall : b < 64) (spare : b % 16 = 0) :
    encodeCodes [UInt8.ofNat (a * 4 + b / 16)] = [symbol a, symbol b, pad, pad] := by
  have first : (a * 4 + b / 16) / 4 = a := by omega
  have second : (a * 4 + b / 16) % 4 * 16 = b := by omega
  rw [encodeCodes, byte_joined _ (by omega), first, second]

theorem encode_two_joined (a b c : Nat) (aSmall : a < 64) (bSmall : b < 64) (cSmall : c < 64) (spare : c % 4 = 0) :
    encodeCodes [UInt8.ofNat (a * 4 + b / 16), UInt8.ofNat (b % 16 * 16 + c / 4)] =
      [symbol a, symbol b, symbol c, pad] := by
  have first : (a * 4 + b / 16) / 4 = a := by omega
  have second : (a * 4 + b / 16) % 4 * 16 + (b % 16 * 16 + c / 4) / 16 = b := by omega
  have third : (b % 16 * 16 + c / 4) % 16 * 4 = c := by omega
  rw [encodeCodes, byte_joined _ (by omega), byte_joined _ (by omega), first, second, third]

theorem encode_three_joined (a b c d : Nat) (rest : List UInt8) (aSmall : a < 64) (bSmall : b < 64) (cSmall : c < 64)
    (dSmall : d < 64) :
    encodeCodes
        ([UInt8.ofNat (a * 4 + b / 16), UInt8.ofNat (b % 16 * 16 + c / 4), UInt8.ofNat (c % 4 * 64 + d)] ++ rest) =
      symbol a :: symbol b :: symbol c :: symbol d :: encodeCodes rest := by
  have first : (a * 4 + b / 16) / 4 = a := by omega
  have second : (a * 4 + b / 16) % 4 * 16 + (b % 16 * 16 + c / 4) / 16 = b := by omega
  have third : (b % 16 * 16 + c / 4) % 16 * 4 + (c % 4 * 64 + d) / 64 = c := by omega
  have fourth : (c % 4 * 64 + d) % 64 = d := by omega
  simp only [List.cons_append, List.nil_append, encodeCodes]
  rw [byte_joined _ (by omega), byte_joined _ (by omega), byte_joined _ (by omega), first, second, third, fourth]

theorem decode_last_canonical (start : Nat) (codes : List Nat) (bytes : List UInt8) (short : codes.length ≤ 4)
    (ok : decodeLast start codes = .ok bytes) : encodeCodes bytes = codes := by
  cases read : lastGroup start codes with
  | error fault => simp [decodeLast, read, bind, Except.bind] at ok
  | ok group =>
    obtain ⟨symbols, pads⟩ := group
    obtain ⟨more, behind, same, rfl, count, valued, -, enough⟩ := last_group_read start 0 [] symbols 0 pads codes read
    obtain rfl : symbols = more := same
    obtain rfl : pads = behind := by omega
    simp only [decodeLast, read, bind, Except.bind] at ok
    simp only [List.length_append, List.length_map, List.length_replicate] at short
    -- The pads fill up to four, and the spare bits are zero.
    rcases symbols with _ | ⟨⟨x, a⟩, _ | ⟨⟨y, b⟩, _ | ⟨⟨z, c⟩, _ | ⟨⟨u, d⟩, _ | ⟨entry, rest⟩⟩⟩⟩⟩
    · obtain rfl := Except.ok.inj ok
      obtain rfl : pads = 0 := Nat.eq_zero_of_not_pos fun positive => absurd (enough positive) (by simp)
      rfl
    · simp at ok
    · simp only [Valued, List.forall_mem_cons] at valued
      simp only [List.length_cons, List.length_nil] at ok short
      obtain ⟨⟨rfl, aSmall⟩, ⟨rfl, bSmall⟩, -⟩ := valued
      split_ifs at ok with ragged spare
      obtain rfl : pads = 2 := by omega
      obtain rfl := Except.ok.inj ok
      exact encode_one_joined a b aSmall bSmall (Decidable.not_not.mp spare)
    · simp only [Valued, List.forall_mem_cons] at valued
      simp only [List.length_cons, List.length_nil] at ok short
      obtain ⟨⟨rfl, aSmall⟩, ⟨rfl, bSmall⟩, ⟨rfl, cSmall⟩, -⟩ := valued
      split_ifs at ok with ragged spare
      obtain rfl : pads = 1 := by omega
      obtain rfl := Except.ok.inj ok
      exact encode_two_joined a b c aSmall bSmall cSmall (Decidable.not_not.mp spare)
    · simp only [Valued, List.forall_mem_cons] at valued
      simp only [List.length_cons, List.length_nil] at ok short
      obtain ⟨⟨rfl, aSmall⟩, ⟨rfl, bSmall⟩, ⟨rfl, cSmall⟩, ⟨rfl, dSmall⟩, -⟩ := valued
      split_ifs at ok with ragged
      obtain rfl : pads = 0 := by omega
      obtain rfl := Except.ok.inj ok
      exact encode_three_joined a b c d [] aSmall bSmall cSmall dSmall
    · simp only [List.length_cons] at short
      omega

theorem whole_group_canonical (start x y z u : Nat) (bytes rest : List UInt8)
    (ok : wholeGroup start x y z u = .ok bytes) :
    encodeCodes (bytes ++ rest) = x :: y :: z :: u :: encodeCodes rest := by
  unfold wholeGroup at ok
  split at ok
  next => simp at ok
  next => simp at ok
  next => simp at ok
  next => simp at ok
  next a b c d aHere bHere cHere dHere =>
    obtain rfl := Except.ok.inj ok
    obtain ⟨rfl, aSmall⟩ := symbol_value x a aHere
    obtain ⟨rfl, bSmall⟩ := symbol_value y b bHere
    obtain ⟨rfl, cSmall⟩ := symbol_value z c cHere
    obtain ⟨rfl, dSmall⟩ := symbol_value u d dHere
    exact encode_three_joined a b c d rest aSmall bSmall cSmall dSmall

theorem decode_from_canonical (start : Nat) (codes : List Nat) (bytes : List UInt8)
    (ok : decodeFrom start codes = .ok bytes) : encodeCodes bytes = codes := by
  fun_induction decodeFrom start codes generalizing bytes with
  | case1 start x y z u v rest ih =>
    cases group : wholeGroup start x y z u with
    | error fault => simp [group, bind, Except.bind] at ok
    | ok here =>
      cases later : decodeFrom (start + 4) (v :: rest) with
      | error fault => simp [group, later, bind, Except.bind] at ok
      | ok more =>
        simp only [group, later, bind, Except.bind] at ok
        rw [← Except.ok.inj ok, whole_group_canonical start x y z u here more group, ih more later]
  | case2 start codes few =>
    refine decode_last_canonical start codes bytes ?_ ok
    rcases codes with _ | ⟨x, _ | ⟨y, _ | ⟨z, _ | ⟨u, _ | ⟨v, rest⟩⟩⟩⟩⟩
    · simp
    · simp
    · simp
    · simp
    · simp
    · exact absurd rfl (few x y z u v rest)

theorem decode_codes_canonical (codes : List Nat) (bytes : List UInt8) (ok : decodeCodes codes = .ok bytes) :
    encodeCodes bytes = codes := by
  unfold decodeCodes at ok
  split at ok
  · split at ok
    · simp at ok
    · exact decode_from_canonical 0 codes bytes ok
  · next empty =>
    obtain rfl := Except.ok.inj ok
    rw [List.getLast?_eq_none_iff.mp empty, encodeCodes]

end Base64

theorem encode_decoded (s : String) (bytes : List UInt8) (ok : decodeBase64 s = .ok bytes) :
    Base64.encode bytes = s := by
  have codes := Base64.decode_codes_canonical _ bytes ok
  have written := utf8_of_ascii _ (Base64.encode_codes_ascii bytes)
  rw [codes] at written
  have same : utf8 (String.ofList (((utf8 s).map UInt8.toNat).map Char.ofNat)) = utf8 s :=
    (List.map_inj_right fun a b => UInt8.toNat_inj.mp).mp written
  rw [Base64.encode, codes, utf8_inj same]

end ManifestSecrets.Text
