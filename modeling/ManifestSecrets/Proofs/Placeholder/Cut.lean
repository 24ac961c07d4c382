import ManifestSecrets.Placeholder.Cut

set_option autoImplicit false

namespace ManifestSecrets.Placeholder

def Closes (rest : List Char) : Prop := ∃ inner after, rest = inner ++ '>' :: after ∧ '\n' ∉ inner

-- No `<` among the characters has a `>` later on its line, be it among them or in what follows.
def Unclosed (chars rest : List Char) : Prop :=
  ∀ before after, chars = before ++ '<' :: after → ¬ Closes (after ++ rest)

def joined (pieces : List Piece) : List Char := pieces.flatMap Piece.chars

def StartsLiteral : List Piece → Prop
  | .literal _ :: _ => True
  | _ => False

-- A token ends at its first `>`, on its own line. Every `<` outside the tokens is unclosed, so each
-- token starts at the leftmost `<` that closes. Literals are as long as they can be.
def IsCut : List Piece → Prop
  | [] => True
  | .token inner :: rest => '>' ∉ inner ∧ '\n' ∉ inner ∧ IsCut rest
  | .literal chars :: rest =>
      chars ≠ [] ∧ ¬ StartsLiteral rest ∧ Unclosed chars (joined rest) ∧ IsCut rest

@[simp] theorem joined_nil : joined [] = [] := rfl

@[simp] theorem joined_literal (chars : List Char) (rest : List Piece) :
    joined (.literal chars :: rest) = chars ++ joined rest := rfl

@[simp] theorem joined_token (inner : List Char) (rest : List Piece) :
    joined (.token inner :: rest) = '<' :: inner ++ '>' :: joined rest := by
  simp [joined, Piece.chars]

@[simp] theorem joined_push (c : Char) (pieces : List Piece) : joined (push c pieces) = c :: joined pieces :=
  push_chars c pieces

def tokens (value : String) : List String := names (cut value.toList)

def HasToken (s : String) : Prop := ∃ before after, s.toList = before ++ '<' :: after ∧ Closes after

theorem not_closes_nil : ¬ Closes [] := by
  rintro ⟨inner, after, same, -⟩
  simp at same

theorem closes_cons (c : Char) (rest : List Char) :
    Closes (c :: rest) ↔ c = '>' ∨ (c ≠ '\n' ∧ Closes rest) := by
  constructor
  · rintro ⟨inner, after, same, line⟩
    cases inner with
    | nil =>
      simp only [List.nil_append, List.cons.injEq] at same
      exact .inl same.1
    | cons first inner =>
      simp only [List.cons_append, List.cons.injEq] at same
      obtain ⟨rfl, same⟩ := same
      simp only [List.mem_cons, not_or] at line
      exact .inr ⟨Ne.symm line.1, inner, after, same, line.2⟩
  · rintro (rfl | ⟨line, inner, after, rfl, rest⟩)
    · exact ⟨[], rest, rfl, by simp⟩
    · exact ⟨c :: inner, after, rfl, by simp [rest, Ne.symm line]⟩

theorem closes_append (front rest : List Char) :
    Closes (front ++ rest) ↔ Closes front ∨ ('\n' ∉ front ∧ Closes rest) := by
  induction front with
  | nil => simp [not_closes_nil]
  | cons c front ih =>
    simp only [List.cons_append, closes_cons, ih, List.mem_cons, not_or]
    by_cases line : '\n' = c
    · simp [← line]
    · have other : c ≠ '\n' := Ne.symm line
      simp [line, other, or_assoc]

theorem unclosed_nil (rest : List Char) : Unclosed [] rest := by
  intro before after same
  simp at same

theorem unclosed_cons (c : Char) (chars rest : List Char) :
    Unclosed (c :: chars) rest ↔ (c = '<' → ¬ Closes (chars ++ rest)) ∧ Unclosed chars rest := by
  constructor
  · intro unclosed
    refine ⟨fun bracket => unclosed [] chars (by simp [bracket]), fun before after same => ?_⟩
    exact unclosed (c :: before) after (by simp [same])
  · rintro ⟨first, others⟩ before after same
    cases before with
    | nil =>
      simp only [List.nil_append, List.cons.injEq] at same
      exact same.2 ▸ first same.1
    | cons head before =>
      simp only [List.cons_append, List.cons.injEq] at same
      exact others before after same.2

theorem close_none_iff (cs : List Char) : close? cs = none ↔ ¬ Closes cs := by
  induction cs with
  | nil => simp [close?, not_closes_nil]
  | cons c rest ih =>
    rw [closes_cons]
    by_cases ends : c = '>'
    · simp [close?, ends]
    · by_cases line : c = '\n'
      · simp [close?, line]
      · simp [close?, ends, line, ih]

theorem close_inner {cs inner after : List Char} (found : close? cs = some (inner, after)) :
    '>' ∉ inner ∧ '\n' ∉ inner := by
  induction cs generalizing inner with
  | nil => simp [close?] at found
  | cons c rest ih =>
    by_cases ends : c = '>'
    · simp only [close?, if_pos ends, Option.some.injEq, Prod.mk.injEq] at found
      simp [← found.1]
    · by_cases line : c = '\n'
      · simp [close?, line] at found
      · simp only [close?, if_neg ends, if_neg line, Option.map_eq_some_iff, Prod.mk.injEq] at found
        obtain ⟨⟨shorter, rest'⟩, tailFound, rfl, rfl⟩ := found
        have tail := ih tailFound
        simp [tail, Ne.symm ends, Ne.symm line]

theorem close_token {inner : List Char} (rest : List Char) (ends : '>' ∉ inner) (line : '\n' ∉ inner) :
    close? (inner ++ '>' :: rest) = some (inner, rest) := by
  induction inner with
  | nil => simp [close?]
  | cons c inner ih =>
    simp only [List.mem_cons, not_or] at ends line
    simp [close?, Ne.symm ends.1, Ne.symm line.1, ih ends.2 line.2]

theorem cut_token {rest inner after : List Char} (found : close? rest = some (inner, after)) :
    cut ('<' :: rest) = .token inner :: cut after := by
  rw [cut, if_pos rfl]
  split <;> simp_all

theorem cut_unclosed (c : Char) (rest : List Char) (unclosed : c = '<' → ¬ Closes rest) :
    cut (c :: rest) = push c (cut rest) := by
  rw [cut]
  by_cases bracket : c = '<'
  · rw [if_pos bracket]
    have missing := (close_none_iff rest).mpr (unclosed bracket)
    split <;> simp_all
  · rw [if_neg bracket]

theorem push_is_cut (c : Char) (pieces : List Piece) (unclosed : c = '<' → ¬ Closes (joined pieces))
    (valid : IsCut pieces) : IsCut (push c pieces) := by
  have alone : Unclosed [c] (joined pieces) :=
    (unclosed_cons c [] _).mpr ⟨unclosed, unclosed_nil _⟩
  cases pieces with
  | nil => exact ⟨by simp, id, alone, trivial⟩
  | cons head rest =>
    cases head with
    | token inner => exact ⟨by simp, id, alone, valid⟩
    | literal chars =>
      obtain ⟨-, longest, inside, valid⟩ := valid
      exact ⟨by simp, longest, (unclosed_cons c chars _).mpr ⟨unclosed, inside⟩, valid⟩

theorem cut_is_cut (text : List Char) : IsCut (cut text) := by
  fun_induction cut text with
  | case1 => trivial
  | case2 rest inner after found ih =>
    obtain ⟨ends, line⟩ := close_inner found
    exact ⟨ends, line, ih⟩
  | case3 rest missing ih =>
    refine push_is_cut _ _ (fun _ => ?_) ih
    rw [joined, cut_chars]
    exact (close_none_iff rest).mp missing
  | case4 c rest other ih => exact push_is_cut _ _ (fun bracket => absurd bracket other) ih

theorem cut_literal (chars rest : List Char) (unclosed : Unclosed chars rest) :
    cut (chars ++ rest) = chars.foldr push (cut rest) := by
  induction chars with
  | nil => rfl
  | cons c chars ih =>
    obtain ⟨first, others⟩ := (unclosed_cons c chars rest).mp unclosed
    rw [List.cons_append, cut_unclosed c _ first, ih others, List.foldr_cons]

theorem push_all (chars : List Char) (rest : List Piece) (filled : chars ≠ []) (longest : ¬ StartsLiteral rest) :
    chars.foldr push rest = .literal chars :: rest := by
  induction chars with
  | nil => exact absurd rfl filled
  | cons c chars ih =>
    cases chars with
    | nil =>
      cases rest with
      | nil => rfl
      | cons head rest =>
        cases head with
        | literal others => exact absurd trivial longest
        | token inner => rfl
    | cons next chars =>
      rw [List.foldr_cons, ih (by simp)]
      rfl

theorem cut_joined (pieces : List Piece) (valid : IsCut pieces) : cut (joined pieces) = pieces := by
  induction pieces with
  | nil => rw [joined_nil, cut]
  | cons head rest ih =>
    cases head with
    | token inner =>
      obtain ⟨ends, line, valid⟩ := valid
      rw [joined_token, List.cons_append, cut_token (close_token (joined rest) ends line), ih valid]
    | literal chars =>
      obtain ⟨filled, longest, unclosed, valid⟩ := valid
      rw [joined_literal, cut_literal chars _ unclosed, ih valid, push_all chars rest filled longest]

theorem cut_eq_iff (text : List Char) (pieces : List Piece) :
    cut text = pieces ↔ IsCut pieces ∧ joined pieces = text := by
  constructor
  · rintro rfl
    exact ⟨cut_is_cut text, cut_chars text⟩
  · rintro ⟨valid, rfl⟩
    exact cut_joined pieces valid

theorem names_push (c : Char) (pieces : List Piece) : names (push c pieces) = names pieces := by
  cases pieces with
  | nil => rfl
  | cons head rest => cases head <;> rfl

theorem names_nil_iff (text : List Char) : names (cut text) = [] ↔ Unclosed text [] := by
  fun_induction cut text with
  | case1 => exact iff_of_true rfl (unclosed_nil [])
  | case2 rest inner after found ih =>
    refine iff_of_false (by simp [names]) fun unclosed => ?_
    have closes : Closes rest := ⟨inner, after, close_eq found, (close_inner found).2⟩
    exact ((unclosed_cons _ _ _).mp unclosed).1 rfl (by simpa using closes)
  | case3 rest missing ih =>
    rw [names_push, ih, unclosed_cons, List.append_nil, close_none_iff] at *
    exact (and_iff_right fun _ => missing).symm
  | case4 c rest other ih =>
    rw [names_push, ih, unclosed_cons]
    exact (and_iff_right fun bracket => absurd bracket other).symm

theorem tokens_nil_iff (s : String) : tokens s = [] ↔ ¬ HasToken s := by
  rw [tokens, names_nil_iff]
  constructor
  · rintro unclosed ⟨before, after, same, closes⟩
    exact unclosed before after same (by simpa using closes)
  · intro unclosed before after same closes
    exact unclosed ⟨before, after, same, by simpa using closes⟩

theorem tokens_bracketless (s : String) (bracketless : '<' ∉ s.toList) : tokens s = [] := by
  rw [tokens_nil_iff]
  rintro ⟨before, after, same, -⟩
  simp [same] at bracketless

end ManifestSecrets.Placeholder
