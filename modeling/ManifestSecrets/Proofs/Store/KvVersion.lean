import ManifestSecrets.Proofs.Text.Digits
import ManifestSecrets.Proofs.Text.Trim
import ManifestSecrets.Store.KvVersion

set_option autoImplicit false

namespace ManifestSecrets.KvVersion

def Numeral (cs : List Char) (n : Nat) : Prop :=
  ∃ sign digits, cs = sign ++ digits ∧ (sign = [] ∨ sign = ['+']) ∧ digits ≠ [] ∧
    (∀ c ∈ digits, c.isDigit = true) ∧ Text.decimal digits = n

-- A number behind any letters `v`, small ones and capitals, with blanks on both sides.
def Spells (s : String) (n : Nat) : Prop :=
  ∃ front marks numeral back, s.toList = front ++ (marks ++ numeral) ++ back ∧
    (∀ c ∈ front, Text.isBlank c = true) ∧ (∀ c ∈ back, Text.isBlank c = true) ∧
    (∀ c ∈ marks, c = 'v' ∨ c = 'V') ∧ Numeral numeral n

theorem version_mark_iff (c : Char) : isVersionMark c = true ↔ c = 'v' ∨ c = 'V' := by
  simp [isVersionMark]

theorem digit_not_blank (c : Char) (digit : c.isDigit = true) : Text.isBlank c = false := by
  have bounds := Text.digit_bounds c digit
  simp [Text.isBlank, Text.blankRanges]
  omega

theorem numeral_head (cs : List Char) (n : Nat) (numeral : Numeral cs n) :
    ∃ c rest, cs = c :: rest ∧ (c = '+' ∨ c.isDigit = true) := by
  obtain ⟨sign, digits, rfl, signed, filled, all, -⟩ := numeral
  obtain ⟨d, rest, rfl⟩ := List.exists_cons_of_ne_nil filled
  rcases signed with rfl | rfl
  · exact ⟨d, rest, rfl, .inr (all d List.mem_cons_self)⟩
  · exact ⟨'+', d :: rest, rfl, .inl rfl⟩

theorem numeral_last (cs : List Char) (n : Nat) (numeral : Numeral cs n) :
    ∃ front d, cs = front ++ [d] ∧ d.isDigit = true := by
  obtain ⟨sign, digits, rfl, -, filled, all, -⟩ := numeral
  refine ⟨sign ++ digits.dropLast, digits.getLast filled, ?_, all _ (List.getLast_mem filled)⟩
  rw [List.append_assoc, List.dropLast_concat_getLast]

theorem digits_some_iff (digits : List Char) (n : Nat) :
    (if digits.isEmpty || !digits.all Char.isDigit then none
      else
        let n := digits.foldl (fun n c => n * 10 + (c.toNat - 48)) 0
        if n < 256 then some n else none) = some n ↔
      (digits ≠ [] ∧ (∀ c ∈ digits, c.isDigit = true) ∧ Text.decimal digits = n) ∧ n < 256 := by
  by_cases spelled : digits ≠ [] ∧ ∀ c ∈ digits, c.isDigit = true
  · obtain ⟨filled, all⟩ := spelled
    have read : (digits.isEmpty || !digits.all Char.isDigit) = false := by simpa [filled] using all
    simp only [read, Bool.false_eq_true, if_false, Text.digits_read]
    constructor
    · intro small
      split at small
      next bound =>
        obtain rfl := Option.some.inj small
        exact ⟨⟨filled, all, rfl⟩, bound⟩
      next => simp at small
    · rintro ⟨⟨-, -, rfl⟩, bound⟩
      rw [if_pos bound]
  · have refused : (digits.isEmpty || !digits.all Char.isDigit) = true := by
      simpa [not_and_or, -not_and] using spelled
    rw [if_pos refused]
    simp only [reduceCtorEq, false_iff]
    rintro ⟨⟨filled, all, -⟩, -⟩
    exact spelled ⟨filled, all⟩

theorem byte_some_iff (cs : List Char) (n : Nat) : byte? cs = some n ↔ Numeral cs n ∧ n < 256 := by
  unfold byte?
  rw [digits_some_iff]
  constructor
  · rintro ⟨digits, bound⟩
    split at digits
    next rest => exact ⟨⟨['+'], rest, rfl, .inr rfl, digits⟩, bound⟩
    next => exact ⟨⟨[], cs, rfl, .inl rfl, digits⟩, bound⟩
  · rintro ⟨⟨sign, digits, rfl, signed, filled, all, value⟩, bound⟩
    refine ⟨?_, bound⟩
    rcases signed with rfl | rfl
    · split
      next rest same =>
        subst same
        exact absurd (all '+' (by simp)) (by decide)
      next => exact ⟨filled, all, value⟩
    · exact ⟨filled, all, value⟩

theorem trimmed (s : String) (marks numeral front back : List Char) (n : Nat)
    (chars : s.toList = front ++ (marks ++ numeral) ++ back) (before : ∀ c ∈ front, Text.isBlank c = true)
    (after : ∀ c ∈ back, Text.isBlank c = true) (marked : ∀ c ∈ marks, c = 'v' ∨ c = 'V')
    (spelled : Numeral numeral n) : (Text.trim s).toList = marks ++ numeral := by
  rw [Text.trim, String.toList_ofList]
  refine Text.trims_eq Text.isBlank _ _ ⟨front, back, chars, before, after, ?_, ?_⟩
  · intro c first
    obtain ⟨d, rest, rfl, starts⟩ := numeral_head numeral n spelled
    have here : c = 'v' ∨ c = 'V' ∨ c = '+' ∨ c.isDigit = true := by
      cases marks with
      | nil =>
        obtain rfl : d = c := by simpa using first
        exact .inr (.inr starts)
      | cons mark marks =>
        obtain rfl : mark = c := by simpa using first
        exact (marked mark List.mem_cons_self).imp id .inl
    rcases here with rfl | rfl | rfl | digit
    · decide
    · decide
    · decide
    · exact digit_not_blank c digit
  · intro c last
    obtain ⟨init, d, rfl, digit⟩ := numeral_last numeral n spelled
    obtain rfl : d = c := by simpa [← List.append_assoc] using last
    exact digit_not_blank d digit

theorem spells_iff (s : String) (n : Nat) :
    Spells s n ↔ Numeral ((Text.trim s).toList.dropWhile isVersionMark) n := by
  constructor
  · rintro ⟨front, marks, numeral, back, chars, before, after, marked, spelled⟩
    have kept : numeral.dropWhile isVersionMark = numeral := by
      obtain ⟨c, rest, rfl, starts⟩ := numeral_head numeral n spelled
      refine Text.drop_while_kept _ _ fun d first => ?_
      obtain rfl : c = d := by simpa using first
      rcases starts with rfl | digit
      · decide
      · have bounds := Text.digit_bounds c digit
        rw [Bool.eq_false_iff, ne_eq, version_mark_iff]
        rintro (rfl | rfl)
        · simp at bounds
        · simp at bounds
    rw [trimmed s marks numeral front back n chars before after marked spelled,
      List.dropWhile_append_of_pos fun c member => (version_mark_iff c).mpr (marked c member), kept]
    exact spelled
  · intro spelled
    obtain ⟨front, back, chars, before, after, -⟩ := Text.trim_by_trims Text.isBlank s.toList
    rw [Text.trim, String.toList_ofList] at spelled
    refine ⟨front, (Text.trimBy Text.isBlank s.toList).takeWhile isVersionMark, _, back, ?_, before, after, ?_, spelled⟩
    · rw [List.takeWhile_append_dropWhile]
      exact chars
    · exact fun c member => (version_mark_iff c).mp (Text.take_while_all _ _ c member)

theorem of_number_ok_iff (n : Nat) (v : KvVersion) : ofNumber n = .ok v ↔ v.number = n := by
  unfold ofNumber
  by_cases first : n = 1
  · cases v <;> simp [first, number]
  · by_cases second : n = 2
    · cases v <;> simp [second, number]
    · cases v <;> simp [number, Ne.symm first, Ne.symm second, first, second]

theorem of_number_error_iff (n : Nat) (e : StoreError) :
    ofNumber n = .error e ↔ (∀ v : KvVersion, v.number ≠ n) ∧
      e = .config ("unsupported KV version " ++ toString n ++ ", expected 1 or 2") := by
  unfold ofNumber
  by_cases first : n = 1
  · simp only [first, if_true, reduceCtorEq, false_iff]
    exact fun other => other.1 .one rfl
  · by_cases second : n = 2
    · simp only [second, OfNat.ofNat_ne_one, if_false, if_true, reduceCtorEq, false_iff]
      exact fun other => other.1 .two rfl
    · have other (v : KvVersion) : v.number ≠ n := by
        cases v with
        | one => exact Ne.symm first
        | two => exact Ne.symm second
      rw [if_neg first, if_neg second, Except.error.injEq]
      exact ⟨fun same => ⟨other, same.symm⟩, fun both => both.2.symm⟩

-- A number that fits in a byte is read and must be 1 or 2; a larger one is no better than a text without a number.
theorem of_text_outcome (s : String) :
    (∀ v : KvVersion, ofText s = .ok v ↔ Spells s v.number) ∧
    (∀ e, ofText s = .error e ↔
      (∃ n < 256, Spells s n ∧ (∀ v : KvVersion, v.number ≠ n) ∧
        e = .config ("unsupported KV version " ++ toString n ++ ", expected 1 or 2")) ∨
      (∀ n < 256, ¬ Spells s n) ∧ e = .config ("invalid KV version '" ++ s ++ "'")) := by
  have read (n : Nat) : byte? ((Text.trim s).toList.dropWhile isVersionMark) = some n ↔ Spells s n ∧ n < 256 := by
    rw [byte_some_iff, spells_iff]
  have small (v : KvVersion) : v.number < 256 := by cases v <;> decide
  unfold ofText
  cases found : byte? ((Text.trim s).toList.dropWhile isVersionMark) with
  | none =>
    have unread (n : Nat) (bound : n < 256) : ¬ Spells s n := fun spelled => by
      simpa [found] using (read n).mpr ⟨spelled, bound⟩
    refine ⟨fun v => ?_, fun e => ?_⟩
    · simp only [reduceCtorEq, false_iff]
      exact unread _ (small v)
    · simp only [Except.error.injEq]
      constructor
      · exact fun same => .inr ⟨unread, same.symm⟩
      · rintro (⟨n, bound, spelled, -⟩ | ⟨-, same⟩)
        · exact absurd spelled (unread n bound)
        · exact same.symm
  | some n =>
    obtain ⟨spelled, bound⟩ := (read n).mp found
    have only (m : Nat) (also : Spells s m) (less : m < 256) : m = n :=
      Option.some.inj (((read m).mpr ⟨also, less⟩).symm.trans found)
    refine ⟨fun v => ?_, fun e => ?_⟩
    · rw [of_number_ok_iff]
      constructor
      · exact fun same => same ▸ spelled
      · exact fun also => only _ also (small v)
    · rw [of_number_error_iff]
      constructor
      · exact fun other => .inl ⟨n, bound, spelled, other⟩
      · rintro (⟨m, less, also, other⟩ | ⟨unread, -⟩)
        · exact only m also less ▸ other
        · exact absurd spelled (unread n bound)

example : (ofText " vV+0002\n").toOption = some .two := by decide +kernel

end ManifestSecrets.KvVersion
