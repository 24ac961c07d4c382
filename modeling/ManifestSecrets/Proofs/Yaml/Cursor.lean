import ManifestSecrets.Yaml.Cursor
import Mathlib.Data.List.Basic

/-!
A text as a part of a stream. The stream is read like the text by itself, up to the end of the text: the text ends
with a break, and what comes after it is nothing or the mark of a document on a line of its own.
-/

set_option autoImplicit false

namespace ManifestSecrets.Yaml

-- The last character, if there is one, is a break.
def Closed (cs : List Char) : Prop := ∀ b ∈ cs.getLast?, isBreak b = true

theorem closed_cons (c : Char) (rest : List Char) :
    Closed (c :: rest) ↔ (rest = [] → isBreak c = true) ∧ Closed rest := by
  cases rest with
  | nil => simp [Closed]
  | cons d rest => simp [Closed]

theorem closed_open (c : Char) (rest : List Char) (closed : Closed (c :: rest)) (inner : isBreak c = false) :
    rest ≠ [] := by
  intro empty
  simp [((closed_cons c rest).mp closed).1 empty] at inner

theorem Closed.drop {cs : List Char} (closed : Closed cs) (count : Nat) : Closed (cs.drop count) := by
  induction count generalizing cs with
  | zero => exact closed
  | succ count ih =>
    cases cs with
    | nil => exact closed
    | cons c rest => exact ih ((closed_cons c rest).mp closed).2

def OnLine (p : Char → Bool) : Prop := ∀ b, isBreak b = true → p b = false

theorem take_on_line (p : Char → Bool) (line : OnLine p) (cs after : List Char) (closed : Closed cs) (left : cs ≠ []) :
    (cs ++ after).takeWhile p = cs.takeWhile p := by
  induction cs with
  | nil => exact absurd rfl left
  | cons c rest ih =>
    obtain ⟨last, later⟩ := (closed_cons c rest).mp closed
    by_cases taken : p c = true
    · have more : rest ≠ [] := by
        intro empty
        simp [line c (last empty)] at taken
      rw [List.cons_append, List.takeWhile_cons_of_pos taken, List.takeWhile_cons_of_pos taken, ih later more]
    · rw [List.cons_append, List.takeWhile_cons_of_neg taken, List.takeWhile_cons_of_neg taken]

theorem take_shorter (p : Char → Bool) (line : OnLine p) (cs : List Char) (closed : Closed cs) (left : cs ≠ []) :
    (cs.takeWhile p).length < cs.length := by
  induction cs with
  | nil => exact absurd rfl left
  | cons c rest ih =>
    obtain ⟨last, later⟩ := (closed_cons c rest).mp closed
    by_cases taken : p c = true
    · have more : rest ≠ [] := by
        intro empty
        simp [line c (last empty)] at taken
      rw [List.takeWhile_cons_of_pos taken]
      exact Nat.succ_lt_succ (ih later more)
    · rw [List.takeWhile_cons_of_neg taken]
      exact Nat.succ_pos _

theorem on_line_of (p : Char → Bool)
    (breaks : p '\r' = false ∧ p '\n' = false ∧ p '\x85' = false ∧ p '\u2028' = false ∧ p '\u2029' = false) :
    OnLine p := by
  intro b broken
  simp only [isBreak, Bool.or_eq_true, beq_iff_eq] at broken
  rcases broken with (((rfl | rfl) | rfl) | rfl) | rfl
  · exact breaks.1
  · exact breaks.2.1
  · exact breaks.2.2.1
  · exact breaks.2.2.2.1
  · exact breaks.2.2.2.2

theorem OnLine.inner {p : Char → Bool} (line : OnLine p) {c : Char} (taken : p c = true) : isBreak c = false := by
  cases broken : isBreak c with
  | false => rfl
  | true => simp [line c broken] at taken

theorem blank_on_line : OnLine isBlank := on_line_of isBlank (by decide)

theorem word_on_line : OnLine isWordChar := on_line_of isWordChar (by decide)

theorem inner_on_line : OnLine (!isBreak ·) := by
  intro b broken
  simp [broken]

theorem taken_short (cs : List Char) (closed : Closed cs) (left : cs ≠ []) (count : Nat)
    (inner : ∀ c ∈ cs.take count, isBreak c = false) : count < cs.length := by
  by_contra long
  rw [List.take_of_length_le (Nat.le_of_not_lt long)] at inner
  have broken := closed (cs.getLast left) (List.getLast?_eq_some_getLast left)
  simp [inner _ (List.getLast_mem left)] at broken

-- What stands around a text in a stream: characters and lines before it, and what comes after it.
structure Around where
  index : Nat
  line : Nat
  after : List Char
  marked : after = [] ∨ ∃ more, after = '-' :: '-' :: '-' :: '\n' :: more

namespace Cursor

def inside (a : Around) (c : Cursor) : Cursor := ⟨c.rest ++ a.after, c.index + a.index, c.line + a.line, c.column⟩

theorem inside_column (a : Around) (c : Cursor) : (c.inside a).column = c.column := rfl

structure Ongoing (c : Cursor) : Prop where
  left : c.rest ≠ []
  closed : Closed c.rest

structure Whole (c : Cursor) : Prop where
  closed : Closed c.rest
  ended : c.rest = [] → c.column = 0

variable {c d : Cursor} {a : Around}

theorem at_of_rest {x : Char} {rest : List Char} (here : c.rest = x :: rest) (p : Char → Bool) : c.at? p = p x := by
  simp [Cursor.at?, head?, here]

theorem Ongoing.whole (going : c.Ongoing) : c.Whole := ⟨going.closed, fun empty => absurd empty going.left⟩

theorem Whole.ongoing (whole : c.Whole) (left : c.rest ≠ []) : c.Ongoing := ⟨left, whole.closed⟩

theorem Ongoing.head (going : c.Ongoing) : (c.inside a).head? = c.head? := by
  obtain ⟨rest, index, line, column⟩ := c
  cases rest with
  | nil => exact absurd rfl going.left
  | cons x rest => rfl

theorem Ongoing.stands (going : c.Ongoing) (x : Char) : (c.inside a).stands x = c.stands x := by
  rw [Cursor.stands, going.head, Cursor.stands]

theorem Ongoing.at (going : c.Ongoing) (p : Char → Bool) : (c.inside a).at? p = c.at? p := by
  rw [Cursor.at?, going.head, Cursor.at?]

theorem Ongoing.not_end (going : c.Ongoing) : c.atEnd = false := by
  simpa [atEnd] using going.left

theorem Ongoing.inside_not_end (going : c.Ongoing) : (c.inside a).atEnd = false := by
  simp [atEnd, inside, going.left]

-- At the end of the text a hyphen may come next, and nothing else.
theorem Whole.at (whole : c.Whole) (p : Char → Bool) (hyphen : p '-' = false) : (c.inside a).at? p = c.at? p := by
  by_cases left : c.rest = []
  · rcases a.marked with bare | ⟨more, mark⟩
    · simp [Cursor.at?, head?, inside, left, bare]
    · simp [Cursor.at?, head?, inside, left, mark, hyphen]
  · exact (whole.ongoing left).at p

theorem Whole.stands (whole : c.Whole) (x : Char) (other : x ≠ '-') : (c.inside a).stands x = c.stands x := by
  by_cases left : c.rest = []
  · rcases a.marked with bare | ⟨more, mark⟩
    · simp [Cursor.stands, head?, inside, left, bare]
    · simp [Cursor.stands, head?, inside, left, mark, Ne.symm other]
  · exact (whole.ongoing left).stands x

theorem drop_inside (count : Nat) (short : count ≤ c.rest.length) :
    (c.inside a).drop count = (c.drop count).inside a := by
  simp only [drop, inside, List.drop_append_of_le_length short, Nat.add_right_comm]

theorem Ongoing.skip_inside (going : c.Ongoing) : (c.inside a).skip = c.skip.inside a :=
  drop_inside 1 (List.length_pos_iff.mpr going.left)

theorem Ongoing.skip (going : c.Ongoing) (inner : c.at? isBreak = false) : c.skip.Ongoing := by
  obtain ⟨rest, index, line, column⟩ := c
  cases rest with
  | nil => exact absurd rfl going.left
  | cons x rest =>
    have inner : isBreak x = false := by simpa [Cursor.at?, head?] using inner
    exact ⟨closed_open x rest going.closed inner, ((closed_cons x rest).mp going.closed).2⟩

theorem Ongoing.drop (going : c.Ongoing) (count : Nat) (inner : ∀ x ∈ c.rest.take count, isBreak x = false) :
    (c.drop count).Ongoing ∧ (c.inside a).drop count = (c.drop count).inside a := by
  have short := taken_short c.rest going.closed going.left count inner
  refine ⟨⟨?_, going.closed.drop count⟩, drop_inside count (Nat.le_of_lt short)⟩
  intro empty
  have long := List.drop_eq_nil_iff.mp (show c.rest.drop count = [] from empty)
  omega

structure Leads (c d : Cursor) : Prop where
  going : d.Ongoing
  shorter : d.rest.length ≤ c.rest.length

structure Reaches (c d : Cursor) : Prop where
  whole : d.Whole
  shorter : d.rest.length ≤ c.rest.length

theorem Leads.trans {c d e : Cursor} (first : Leads c d) (later : Leads d e) : Leads c e :=
  ⟨later.going, Nat.le_trans later.shorter first.shorter⟩

theorem Leads.reaches (leads : Leads c d) : Reaches c d := ⟨leads.going.whole, leads.shorter⟩

theorem Reaches.trans {c d e : Cursor} (first : Reaches c d) (later : Reaches d e) : Reaches c e :=
  ⟨later.whole, Nat.le_trans later.shorter first.shorter⟩

theorem Leads.refl (going : c.Ongoing) : Leads c c := ⟨going, Nat.le_refl _⟩

theorem Reaches.refl (whole : c.Whole) : Reaches c c := ⟨whole, Nat.le_refl _⟩

theorem drop_shorter (count : Nat) : (c.drop count).rest.length ≤ c.rest.length := by
  simp [Cursor.drop]

theorem skip_shorter (going : c.Ongoing) : c.skip.rest.length < c.rest.length := by
  have positive := List.length_pos_iff.mpr going.left
  simp only [skip, Cursor.drop, List.length_drop]
  omega

theorem stands_inner {x : Char} (here : c.stands x = true) (inner : isBreak x = false) : c.at? isBreak = false := by
  rw [Cursor.stands, beq_iff_eq] at here
  simp [Cursor.at?, here, inner]

theorem skip_leads (going : c.Ongoing) (inner : c.at? isBreak = false) : Leads c c.skip :=
  ⟨going.skip inner, drop_shorter 1⟩

theorem take_inside (p : Char → Bool) (line : OnLine p) (whole : c.Whole) (next : c.rest ≠ [] ∨ p '-' = false) :
    (c.inside a).take p = ((c.take p).1, (c.take p).2.inside a) := by
  by_cases left : c.rest = []
  · have hyphen := next.resolve_left (not_not_intro left)
    rcases a.marked with bare | ⟨more, mark⟩
    · simp [take, drop, inside, left, bare]
    · simp [take, drop, inside, left, mark, hyphen]
  · have same := take_on_line p line c.rest a.after whole.closed left
    have short := take_shorter p line c.rest whole.closed left
    simp only [take, show (c.inside a).rest = c.rest ++ a.after from rfl, same, drop_inside _ (Nat.le_of_lt short)]

theorem take_ongoing (p : Char → Bool) (line : OnLine p) (going : c.Ongoing) : (c.take p).2.Ongoing := by
  have short := take_shorter p line c.rest going.closed going.left
  refine ⟨?_, going.closed.drop _⟩
  intro empty
  have empty : c.rest.drop (c.rest.takeWhile p).length = [] := empty
  have long := List.drop_eq_nil_iff.mp empty
  omega

theorem take_leads (p : Char → Bool) (line : OnLine p) (going : c.Ongoing) : Leads c (c.take p).2 :=
  ⟨take_ongoing p line going, drop_shorter _⟩

theorem skip_break_lone (x : Char) (rest : List Char) (index line column : Nat)
    (lone : ∀ tail, x :: rest ≠ '\r' :: '\n' :: tail) :
    skipBreak ⟨x :: rest, index, line, column⟩ =
      if isBreak x then ⟨rest, index + 1, line + 1, 0⟩ else ⟨x :: rest, index, line, column⟩ := by
  unfold skipBreak
  split
  next tail same => exact absurd same (lone tail)
  next y ys _ same =>
    obtain ⟨rfl, rfl⟩ := List.cons.inj same
    rfl
  next same => cases same

theorem Ongoing.skip_break_inside (going : c.Ongoing) : (c.inside a).skipBreak = c.skipBreak.inside a := by
  obtain ⟨rest, index, line, column⟩ := c
  cases rest with
  | nil => exact absurd rfl going.left
  | cons x rest =>
    by_cases pair : ∃ tail, x :: rest = '\r' :: '\n' :: tail
    · obtain ⟨tail, same⟩ := pair
      obtain ⟨rfl, rfl⟩ := List.cons.inj same
      simp only [inside, List.cons_append, skipBreak, Nat.add_right_comm]
    · have lone : ∀ tail, x :: rest ≠ '\r' :: '\n' :: tail := fun tail same => pair ⟨tail, same⟩
      have loneInside : ∀ tail, x :: (rest ++ a.after) ≠ '\r' :: '\n' :: tail := by
        intro tail same
        obtain ⟨rfl, next⟩ := List.cons.inj same
        cases rest with
        | nil =>
          rcases a.marked with bare | ⟨more, mark⟩
          · simp [bare] at next
          · simp [mark] at next
        | cons y rest =>
          obtain ⟨rfl, -⟩ := List.cons.inj next
          exact lone rest rfl
      rw [skip_break_lone x rest index line column lone]
      simp only [inside, List.cons_append]
      rw [skip_break_lone x _ _ _ column loneInside]
      by_cases broken : isBreak x = true
      · simp only [if_pos broken, Nat.add_right_comm]
      · simp only [if_neg broken, List.cons_append]

theorem at_break (at_ : c.at? isBreak = true) : ∃ x rest, c.rest = x :: rest ∧ isBreak x = true := by
  cases here : c.rest with
  | nil => simp [Cursor.at?, head?, here] at at_
  | cons x rest => exact ⟨x, rest, rfl, by simpa [Cursor.at?, head?, here] using at_⟩

theorem skip_break_next (broken : c.at? isBreak = true) :
    (∃ count, 0 < count ∧ c.skipBreak.rest = c.rest.drop count) ∧ c.skipBreak.column = 0 := by
  obtain ⟨rest, index, line, column⟩ := c
  obtain ⟨x, rest, rfl, isBreak⟩ := at_break broken
  by_cases pair : ∃ tail, x :: rest = '\r' :: '\n' :: tail
  · obtain ⟨tail, same⟩ := pair
    obtain ⟨rfl, rfl⟩ := List.cons.inj same
    exact ⟨⟨2, Nat.two_pos, rfl⟩, rfl⟩
  · have lone : ∀ tail, x :: rest ≠ '\r' :: '\n' :: tail := fun tail same => pair ⟨tail, same⟩
    rw [skip_break_lone x rest index line column lone, if_pos isBreak]
    exact ⟨⟨1, Nat.one_pos, rfl⟩, rfl⟩

theorem skip_break_shorter (broken : c.at? isBreak = true) : c.skipBreak.rest.length < c.rest.length := by
  obtain ⟨⟨count, positive, same⟩, -⟩ := skip_break_next broken
  obtain ⟨x, rest, here, -⟩ := at_break broken
  rw [same, List.length_drop, here, List.length_cons]
  omega

theorem skip_break_reaches (whole : c.Whole) (broken : c.at? isBreak = true) : Reaches c c.skipBreak := by
  obtain ⟨⟨count, -, same⟩, start⟩ := skip_break_next broken
  exact ⟨⟨same ▸ whole.closed.drop count, fun _ => start⟩, Nat.le_of_lt (skip_break_shorter broken)⟩

theorem break_text_inside (going : c.Ongoing) : (c.inside a).breakText = c.breakText := by
  obtain ⟨rest, index, line, column⟩ := c
  cases rest with
  | nil => exact absurd rfl going.left
  | cons x rest => rfl

-- The three characters of a mark and the one after them: in a text that ends with a break they are all its own.
theorem Ongoing.starts_line_inside (going : c.Ongoing) (ch : Char) (inner : isBreak ch = false) :
    (c.inside a).startsLineWith ch = c.startsLineWith ch := by
  obtain ⟨rest, index, line, column⟩ := c
  have other : ∀ b, isBreak b = true → b ≠ ch := by
    rintro b broken rfl
    simp [inner] at broken
  have closed := going.closed
  simp only [startsLineWith, inside]
  rcases rest with - | ⟨x, - | ⟨y, - | ⟨z, - | ⟨w, rest⟩⟩⟩⟩
  · exact absurd rfl going.left
  · have last : x ≠ ch := other x (by simpa [Closed] using closed)
    rcases a.marked with bare | ⟨more, mark⟩
    · simp [bare]
    · simp [mark, last]
  · have last : y ≠ ch := other y (by simpa [Closed] using closed)
    rcases a.marked with bare | ⟨more, mark⟩
    · simp [bare]
    · simp [mark, last]
  · have last : (z == ch) = false := beq_false_of_ne (other z (by simpa [Closed] using closed))
    simp only [List.cons_append, List.nil_append, last, Bool.and_false, Bool.false_and]
  · rfl

theorem Ongoing.document_mark_inside (going : c.Ongoing) : (c.inside a).atDocumentMark = c.atDocumentMark := by
  simp only [atDocumentMark, going.starts_line_inside '-' rfl, going.starts_line_inside '.' rfl]

theorem skip_while_inside (p : Char → Bool) (line : OnLine p) (going : c.Ongoing) :
    (c.inside a).skipWhile p = (c.skipWhile p).inside a ∧ Leads c (c.skipWhile p) := by
  refine ⟨?_, take_leads p line going⟩
  rw [skipWhile, take_inside p line going.whole (.inl going.left), skipWhile]

def skipComment (c : Cursor) : Cursor := if c.stands '#' then c.skipWhile (!isBreak ·) else c

theorem skip_comment_inside (going : c.Ongoing) :
    (c.inside a).skipComment = c.skipComment.inside a ∧ Leads c c.skipComment := by
  unfold skipComment
  rw [going.stands '#']
  by_cases comment : c.stands '#' = true
  · rw [if_pos comment, if_pos comment]
    exact skip_while_inside _ inner_on_line going
  · rw [if_neg comment, if_neg comment]
    exact ⟨rfl, .refl going⟩

theorem line_end_inside (going : c.Ongoing) (found : c.lineEnd? = some d) :
    (c.inside a).lineEnd? = some (d.inside a) ∧ Reaches c d := by
  obtain ⟨blanks, first⟩ := skip_while_inside isBlank blank_on_line going (a := a)
  obtain ⟨comment, later⟩ := skip_comment_inside first.going (a := a)
  have line := first.trans later
  change (if (c.skipWhile isBlank).skipComment.atLineEnd then _ else none) = some d at found
  change (if ((c.inside a).skipWhile isBlank).skipComment.atLineEnd then
    some ((c.inside a).skipWhile isBlank).skipComment.skipBreak else none) = _ ∧ _
  rw [blanks, comment]
  simp only [atLineEnd, line.going.not_end, line.going.inside_not_end, Bool.false_or, line.going.at] at found ⊢
  by_cases broken : (c.skipWhile isBlank).skipComment.at? isBreak = true
  · rw [if_pos broken] at found ⊢
    obtain rfl := Option.some.inj found
    exact ⟨congrArg some line.going.skip_break_inside,
      line.reaches.trans (skip_break_reaches line.going.whole broken)⟩
  · rw [if_neg broken] at found
    cases found

theorem ended_next (ended : c.rest = []) : (c.inside a).rest = [] ∨ ∃ more, (c.inside a).rest = '-' :: more := by
  rcases a.marked with stop | ⟨more, mark⟩
  · exact .inl (by simp [inside, ended, stop])
  · exact .inr ⟨_, by simp only [inside, ended, mark, List.nil_append]; rfl⟩

theorem ended_inside (whole : c.Whole) (ended : c.rest = []) :
    (c.inside a).atEnd = true ∨ (c.inside a).startsLineWith '-' = true := by
  rcases a.marked with stop | ⟨more, mark⟩
  · exact .inl (by simp [atEnd, inside, ended, stop])
  · exact .inr (by simp [startsLineWith, inside, ended, mark, whole.ended ended, endsWord, isBlankOrBreak, isBreak])

end Cursor

end ManifestSecrets.Yaml
