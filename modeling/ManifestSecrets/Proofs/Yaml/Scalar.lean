import ManifestSecrets.Yaml.Token.Scalar
import ManifestSecrets.Proofs.Yaml.Mark

set_option autoImplicit false

namespace ManifestSecrets.Yaml.Scalar

open Cursor

variable {r q : Reading} {a : Around}

namespace Reading

def inside (a : Around) (r : Reading) : Reading := { r with cursor := r.cursor.inside a }

theorem inside_cursor (r : Reading) : (r.inside a).cursor = r.cursor.inside a := rfl

theorem join_cursor (r : Reading) : r.join.cursor = r.cursor := by
  unfold join
  split <;> rfl

theorem join_inside (r : Reading) : (r.inside a).join = r.join.inside a := by
  obtain ⟨cursor, text, blanks, first, others, broken⟩ := r
  cases broken <;> rfl

theorem push_inside (r : Reading) (chars : List Char) (count : Nat)
    (dropped : (r.cursor.inside a).drop count = (r.cursor.drop count).inside a) :
    (r.inside a).push chars count = (r.push chars count).inside a := by
  simp only [push, inside, dropped]

theorem blank_inside (going : r.cursor.Ongoing) (x : Char) : (r.inside a).blank x = (r.blank x).inside a := by
  rw [blank, inside, going.skip_inside]
  rfl

theorem break_line_inside (going : r.cursor.Ongoing) : (r.inside a).breakLine = r.breakLine.inside a := by
  simp only [breakLine, inside, break_text_inside going, going.skip_break_inside]
  split <;> rfl

theorem break_line_cursor (r : Reading) : r.breakLine.cursor = r.cursor.skipBreak := by
  unfold breakLine
  simp only
  split <;> rfl

end Reading

theorem not_break_of_other {x : Char} (other : ¬ isBlankOrBreak x = true) : isBreak x = false := by
  simp only [isBlankOrBreak, Bool.or_eq_true, not_or, Bool.not_eq_true] at other
  exact other.2

theorem not_break_of_blank {x : Char} (blank : isBlank x = true) : isBreak x = false := blank_on_line.inner blank

theorem rest_inside {x : Char} {rest : List Char} (here : r.cursor.rest = x :: rest) :
    (r.inside a).cursor.rest = x :: (rest ++ a.after) := by
  simp [Reading.inside, Cursor.inside, here]

theorem head_append {rest after : List Char} (filled : rest ≠ []) : (rest ++ after).head? = rest.head? := by
  cases rest with
  | nil => exact absurd rfl filled
  | cons x rest => rfl

theorem plain_word_inside (flow : Bool) (n m : Nat) (wide : n ≤ m) (going : r.cursor.Ongoing)
    (room : r.cursor.rest.length < n) (found : plainWord flow n r = some q) :
    plainWord flow m (r.inside a) = some (q.inside a) ∧ Leads r.cursor q.cursor := by
  induction n generalizing r m with
  | zero => exact absurd room (Nat.not_lt_zero _)
  | succ n ih =>
    obtain ⟨m, rfl⟩ := Nat.exists_eq_add_one_of_ne_zero (show m ≠ 0 by omega)
    cases here : r.cursor.rest with
    | nil => exact absurd here going.left
    | cons x rest =>
      simp only [plainWord, here, rest_inside here] at found ⊢
      by_cases ends : isBlankOrBreak x = true
      · rw [if_pos ends] at found ⊢
        obtain rfl := Option.some.inj found
        exact ⟨rfl, .refl going⟩
      · have inner := not_break_of_other ends
        rw [head_append (closed_open x rest (here ▸ going.closed) inner)]
        rw [if_neg ends] at found ⊢
        split at found
        next => cases found
        next apart =>
          rw [if_neg apart]
          split at found
          next stops =>
            rw [if_pos stops]
            obtain rfl := Option.some.inj found
            exact ⟨rfl, .refl going⟩
          next more =>
            rw [if_neg more]
            have first : Leads r.cursor r.cursor.skip := skip_leads going (by rw [at_of_rest here]; exact inner)
            have fewer := skip_shorter going
            have cursor : (r.join.push [x] 1).cursor = r.cursor.skip := by
              rw [Reading.push, Reading.join_cursor, Cursor.skip]
            have pushed : (r.inside a).join.push [x] 1 = (r.join.push [x] 1).inside a := by
              rw [Reading.join_inside, Reading.push_inside]
              rw [Reading.join_cursor]
              exact going.skip_inside
            obtain ⟨same, leads⟩ := ih (r := r.join.push [x] 1) m (by omega) (cursor ▸ first.going)
              (by rw [cursor]; omega) found
            rw [pushed]
            exact ⟨same, first.trans (cursor ▸ leads)⟩

theorem plain_gap_inside (indent : Int) (n m : Nat) (wide : n ≤ m) (whole : r.cursor.Whole)
    (room : r.cursor.rest.length < n) (found : plainGap indent n r = some q) :
    plainGap indent m (r.inside a) = some (q.inside a) ∧ Reaches r.cursor q.cursor ∧
      (r.cursor.at? isBlankOrBreak = true → q.cursor.rest.length < r.cursor.rest.length) := by
  induction n generalizing r m with
  | zero => exact absurd room (Nat.not_lt_zero _)
  | succ n ih =>
    obtain ⟨m, rfl⟩ := Nat.exists_eq_add_one_of_ne_zero (show m ≠ 0 by omega)
    cases here : r.cursor.rest with
    | nil =>
      simp only [plainGap, here] at found
      obtain rfl := Option.some.inj found
      refine ⟨?_, .refl whole, by simp [Cursor.at?, head?, here]⟩
      rcases ended_next (a := a) here with stop | ⟨more, mark⟩
      · simp only [plainGap, Reading.inside, stop]
      · simp only [plainGap, Reading.inside, mark]
        rfl
    | cons x rest =>
      have going := whole.ongoing (by rw [here]; exact List.cons_ne_nil x rest)
      simp only [plainGap, here, rest_inside here] at found ⊢
      by_cases blank : isBlank x = true
      · have first : Leads r.cursor r.cursor.skip :=
          skip_leads going (by rw [at_of_rest here]; exact not_break_of_blank blank)
        have fewer : r.cursor.skip.rest.length < (x :: rest).length := here ▸ skip_shorter going
        rw [if_pos blank] at found ⊢
        split at found
        next => cases found
        next aligned =>
          rw [if_neg (show ¬ ((r.inside a).broken && decide ((r.inside a).cursor.column < indent) && x == '\t') = true
            from aligned), r.blank_inside going]
          obtain ⟨same, reaches, -⟩ := ih (r := r.blank x) m (by omega) first.going.whole
            (by rw [here] at room; change r.cursor.skip.rest.length < n; omega) found
          exact ⟨same, first.reaches.trans reaches, fun _ => Nat.lt_of_le_of_lt reaches.shorter fewer⟩
      · rw [if_neg blank] at found ⊢
        by_cases broken : isBreak x = true
        · have broken_ : r.cursor.at? isBreak = true := by rw [at_of_rest here]; exact broken
          have first := skip_break_reaches whole broken_
          have fewer : r.cursor.skipBreak.rest.length < (x :: rest).length := here ▸ skip_break_shorter broken_
          rw [if_pos broken] at found ⊢
          rw [r.break_line_inside going]
          obtain ⟨same, reaches, -⟩ := ih (r := r.breakLine) m (by omega) (r.break_line_cursor ▸ first.whole)
            (by rw [r.break_line_cursor]; rw [here] at room; omega) found
          rw [r.break_line_cursor] at reaches
          exact ⟨same, first.trans reaches, fun _ => Nat.lt_of_le_of_lt reaches.shorter fewer⟩
        · rw [if_neg broken] at found ⊢
          obtain rfl := Option.some.inj found
          refine ⟨rfl, .refl whole, fun next => ?_⟩
          rw [at_of_rest here] at next
          simp [isBlankOrBreak, blank, broken] at next

theorem plain_lines_marked (bound : Nat) (flow : Bool) (indent : Int) (steps : Nat)
    (mark : r.cursor.atDocumentMark = true) : plainLines bound flow indent (steps + 1) r = some r := by
  rw [plainLines, mark]
  rfl

theorem plain_lines_ended (bound : Nat) (flow : Bool) (indent : Int) (steps : Nat) (ended : r.cursor.rest = []) :
    plainLines bound flow indent (steps + 1) r = some r := by
  have word : plainWord flow bound r = some r := by
    cases bound with
    | zero => rfl
    | succ bound => simp only [plainWord, ended]
  simp [plainLines, word, atDocumentMark, startsLineWith, stands, Cursor.at?, head?, ended]

-- The lines of an unquoted scalar. Where the text ends the next document begins, which is no line of the scalar.
theorem plain_lines_inside (b b' : Nat) (wider : b ≤ b') (flow : Bool) (indent : Int) (n m : Nat) (wide : n ≤ m)
    (whole : r.cursor.Whole) (bounded : r.cursor.rest.length < b) (room : r.cursor.rest.length < n)
    (found : plainLines b flow indent n r = some q) :
    plainLines b' flow indent m (r.inside a) = some (q.inside a) ∧ Reaches r.cursor q.cursor := by
  induction n generalizing r m with
  | zero => exact absurd room (Nat.not_lt_zero _)
  | succ n ih =>
    obtain ⟨m, rfl⟩ := Nat.exists_eq_add_one_of_ne_zero (show m ≠ 0 by omega)
    by_cases ended : r.cursor.rest = []
    · rw [plain_lines_ended b flow indent n ended] at found
      obtain rfl := Option.some.inj found
      refine ⟨?_, .refl whole⟩
      rcases ended_inside (a := a) whole ended with stop | mark
      · exact plain_lines_ended b' flow indent m (List.isEmpty_iff.mp stop)
      · exact plain_lines_marked b' flow indent m (by simp [Reading.inside, atDocumentMark, mark])
    · have going := whole.ongoing ended
      rw [plainLines] at found ⊢
      rw [r.inside_cursor, going.document_mark_inside, going.stands]
      split at found
      next stops =>
        rw [if_pos stops]
        obtain rfl := Option.some.inj found
        exact ⟨rfl, .refl whole⟩
      next goes =>
        rw [if_neg goes]
        obtain ⟨word, wordRead, later⟩ := Option.bind_eq_some_iff.mp found
        obtain ⟨wordInside, first⟩ := plain_word_inside (a := a) flow b b' wider going bounded wordRead
        have short := first.shorter
        rw [wordInside, Option.bind_eq_bind, Option.bind_some]
        simp only [word.inside_cursor, first.going.at] at later ⊢
        by_cases blank : word.cursor.at? isBlankOrBreak = true
        · rw [if_pos blank] at later ⊢
          obtain ⟨gap, gapRead, last⟩ := Option.bind_eq_some_iff.mp later
          obtain ⟨gapInside, second, fewer⟩ :=
            plain_gap_inside (a := a) indent b b' wider first.going.whole (by omega) gapRead
          have strict := fewer blank
          rw [gapInside, Option.bind_some]
          by_cases outside : (!flow && decide (gap.cursor.column < indent)) = true
          · rw [if_pos outside] at last
            rw [if_pos (show (!flow && decide ((gap.inside a).cursor.column < indent)) = true from outside)]
            obtain rfl := Option.some.inj last
            exact ⟨rfl, first.reaches.trans second⟩
          · rw [if_neg outside] at last
            rw [if_neg (show ¬ (!flow && decide ((gap.inside a).cursor.column < indent)) = true from outside)]
            obtain ⟨same, third⟩ := ih m (by omega) second.whole (by omega) (by omega) last
            exact ⟨same, (first.reaches.trans second).trans third⟩
        · rw [if_neg blank] at later ⊢
          obtain rfl := Option.some.inj later
          exact ⟨rfl, first.reaches⟩

theorem plain_inside {c d : Cursor} (b b' : Nat) (wider : b ≤ b') (flow : Bool) (indent : Int) (whole : c.Whole)
    (room : c.rest.length < b) (text : String) (broken : Bool) (found : plain? b flow indent c = some (text, d, broken)) :
    plain? b' flow indent (c.inside a) = some (text, d.inside a, broken) ∧ Reaches c d := by
  rw [plain?] at found ⊢
  obtain ⟨q, read, same⟩ := Option.bind_eq_some_iff.mp found
  obtain ⟨inStream, reaches⟩ :=
    plain_lines_inside (a := a) b b' wider flow indent b b' wider (r := { cursor := c }) whole room room read
  simp only [Option.pure_def, Option.some.injEq, Prod.mk.injEq] at same
  obtain ⟨rfl, rfl, rfl⟩ := same
  change plainLines b' flow indent b' { cursor := c.inside a } = _ at inStream
  rw [inStream]
  exact ⟨rfl, reaches⟩

theorem escaped_on_line : OnLine fun c => (escaped? c).isSome := on_line_of _ (by decide)

theorem code_on_line : OnLine fun c => codeLength c != 0 := on_line_of _ (by decide)

theorem escape_append (rest after : List Char) (x : Char) (length : Nat) (found : escape? rest = some (x, length)) :
    escape? (rest ++ after) = some (x, length) ∧ ∀ y ∈ rest.take length, isBreak y = false := by
  cases rest with
  | nil => simp [escape?] at found
  | cons c rest =>
    simp only [escape?, List.cons_append, List.head?_cons, Option.bind_eq_bind, Option.bind_some] at found ⊢
    cases plain : escaped? c with
    | some e =>
      simp only [plain, Option.pure_def, Option.some.injEq, Prod.mk.injEq] at found ⊢
      obtain ⟨rfl, rfl⟩ := found
      refine ⟨⟨rfl, rfl⟩, ?_⟩
      simpa using escaped_on_line.inner (c := c) (by rw [plain]; rfl)
    | none =>
      simp only [plain, List.drop_succ_cons, List.drop_zero] at found ⊢
      split at found
      next => cases found
      next digits =>
        simp only [not_or, Nat.not_lt, List.length_take] at digits
        have enough : codeLength c ≤ rest.length := Nat.le_trans digits.2 (Nat.min_le_right _ _)
        rw [List.take_append_of_le_length enough, if_neg (by simp [digits.1, enough])]
        refine ⟨found, ?_⟩
        obtain ⟨n, read, last⟩ := Option.bind_eq_some_iff.mp found
        obtain ⟨e, -, same⟩ := Option.bind_eq_some_iff.mp last
        simp only [Option.pure_def, Option.some.injEq, Prod.mk.injEq] at same
        obtain ⟨rfl, rfl⟩ := same
        have mark := code_on_line.inner (c := c) (by simpa using digits.1)
        rw [Nat.add_comm 1, List.take_succ_cons]
        exact List.forall_mem_cons.mpr ⟨mark, Text.hex_number_inner _ n read⟩

theorem quoted_word_inside (single : Bool) (n m : Nat) (wide : n ≤ m) (going : r.cursor.Ongoing)
    (room : r.cursor.rest.length < n) (found : quotedWord single n r = some q) :
    quotedWord single m (r.inside a) = some (q.inside a) ∧ Reaches r.cursor q.cursor := by
  induction n generalizing r m with
  | zero => exact absurd room (Nat.not_lt_zero _)
  | succ n ih =>
    obtain ⟨m, rfl⟩ := Nat.exists_eq_add_one_of_ne_zero (show m ≠ 0 by omega)
    have pushed : ∀ (chars : List Char) (count : Nat), 0 < count → (∀ y ∈ r.cursor.rest.take count, isBreak y = false) →
        quotedWord single n (r.push chars count) = some q →
        quotedWord single m ((r.inside a).push chars count) = some (q.inside a) ∧ Reaches r.cursor q.cursor := by
      intro chars count positive inner later
      obtain ⟨further, dropped⟩ := going.drop (a := a) count inner
      have fewer : (r.cursor.drop count).rest.length < r.cursor.rest.length := by
        have left := List.length_pos_iff.mpr going.left
        simp only [Cursor.drop, List.length_drop]
        omega
      obtain ⟨same, reaches⟩ := ih (r := r.push chars count) m (by omega) further
        (by change (r.cursor.drop count).rest.length < n; omega) later
      rw [r.push_inside chars count dropped]
      exact ⟨same, (Leads.reaches ⟨further, drop_shorter count⟩).trans reaches⟩
    cases here : r.cursor.rest with
    | nil => exact absurd here going.left
    | cons x rest =>
      simp only [quotedWord, here, rest_inside here] at found ⊢
      by_cases ends : isBlankOrBreak x = true
      · rw [if_pos ends] at found ⊢
        obtain rfl := Option.some.inj found
        exact ⟨rfl, (Leads.refl going).reaches⟩
      · have inner := not_break_of_other ends
        have more := closed_open x rest (here ▸ going.closed) inner
        rw [head_append more]
        rw [if_neg ends] at found ⊢
        split at found
        next quote =>
          rw [if_pos quote]
          split at found
          next doubled =>
            rw [if_pos doubled]
            refine pushed ['\''] 2 Nat.two_pos ?_ found
            cases rest with
            | nil => exact absurd rfl more
            | cons y rest =>
              obtain rfl : y = '\'' := by simpa using doubled
              have second : isBreak '\'' = false := rfl
              simp [here, inner, second]
          next single =>
            rw [if_neg single]
            obtain rfl := Option.some.inj found
            exact ⟨rfl, (Leads.refl going).reaches⟩
        next unquoted =>
          rw [if_neg unquoted]
          split at found
          next quote =>
            rw [if_pos quote]
            obtain rfl := Option.some.inj found
            exact ⟨rfl, (Leads.refl going).reaches⟩
          next within =>
            rw [if_neg within]
            split at found
            next backslash =>
              rw [if_pos backslash]
              split at found
              next broken =>
                rw [if_pos broken]
                obtain rfl := Option.some.inj found
                have first : Leads r.cursor r.cursor.skip := skip_leads going (by rw [at_of_rest here]; exact inner)
                have broken : r.cursor.skip.at? isBreak = true := by
                  simpa [Cursor.at?, head?, skip, Cursor.drop, here] using broken
                refine ⟨?_, first.reaches.trans (skip_break_reaches first.going.whole broken)⟩
                simp only [Reading.inside, going.skip_inside, first.going.skip_break_inside]
              next escaped =>
                rw [if_neg escaped]
                obtain ⟨⟨e, length⟩, read, later⟩ := Option.bind_eq_some_iff.mp found
                obtain ⟨same, chars⟩ := escape_append rest a.after e length read
                rw [same, Option.bind_eq_bind, Option.bind_some]
                refine pushed [e] (1 + length) (by omega) ?_ later
                rw [here, Nat.add_comm 1, List.take_succ_cons]
                exact List.forall_mem_cons.mpr ⟨inner, chars⟩
            next literal =>
              rw [if_neg literal]
              refine pushed [x] 1 Nat.one_pos ?_ found
              simpa [here] using inner

theorem quoted_gap_inside (n m : Nat) (wide : n ≤ m) (whole : r.cursor.Whole) (room : r.cursor.rest.length < n) :
    quotedGap m (r.inside a) = (quotedGap n r).inside a ∧ Reaches r.cursor (quotedGap n r).cursor := by
  induction n generalizing r m with
  | zero => exact absurd room (Nat.not_lt_zero _)
  | succ n ih =>
    obtain ⟨m, rfl⟩ := Nat.exists_eq_add_one_of_ne_zero (show m ≠ 0 by omega)
    cases here : r.cursor.rest with
    | nil =>
      have stays : quotedGap (n + 1) r = r := by simp only [quotedGap, here]
      rw [stays]
      refine ⟨?_, .refl whole⟩
      rcases ended_next (a := a) here with stop | ⟨more, mark⟩
      · simp only [quotedGap, Reading.inside, stop]
      · simp only [quotedGap, Reading.inside, mark]
        rfl
    | cons x rest =>
      have going := whole.ongoing (by rw [here]; exact List.cons_ne_nil x rest)
      rw [here] at room
      simp only [quotedGap, here, rest_inside here]
      by_cases blank : isBlank x = true
      · have first : Leads r.cursor r.cursor.skip :=
          skip_leads going (by rw [at_of_rest here]; exact not_break_of_blank blank)
        have fewer : r.cursor.skip.rest.length < (x :: rest).length := here ▸ skip_shorter going
        rw [if_pos blank, if_pos blank, r.blank_inside going]
        obtain ⟨same, reaches⟩ := ih (r := r.blank x) m (by omega) first.going.whole
          (by change r.cursor.skip.rest.length < n; omega)
        exact ⟨same, first.reaches.trans reaches⟩
      · rw [if_neg blank, if_neg blank]
        by_cases broken : isBreak x = true
        · have broken_ : r.cursor.at? isBreak = true := by rw [at_of_rest here]; exact broken
          have first := skip_break_reaches whole broken_
          have fewer : r.cursor.skipBreak.rest.length < (x :: rest).length := here ▸ skip_break_shorter broken_
          rw [if_pos broken, if_pos broken, r.break_line_inside going]
          obtain ⟨same, reaches⟩ := ih (r := r.breakLine) m (by omega) (r.break_line_cursor ▸ first.whole)
            (by rw [r.break_line_cursor]; omega)
          rw [r.break_line_cursor] at reaches
          exact ⟨same, first.trans reaches⟩
        · rw [if_neg broken, if_neg broken]
          exact ⟨rfl, .refl whole⟩

-- The loop is not over before the quote is closed, so that a greater bound changes nothing.
theorem quoted_lines_inside (b b' : Nat) (wider : b ≤ b') (single : Bool) (n m : Nat) (wide : n ≤ m)
    (whole : r.cursor.Whole) (bounded : r.cursor.rest.length < b) (found : quotedLines b single n r = some q) :
    quotedLines b' single m (r.inside a) = some (q.inside a) ∧ Leads r.cursor q.cursor := by
  induction n generalizing r m with
  | zero => cases found
  | succ n ih =>
    obtain ⟨m, rfl⟩ := Nat.exists_eq_add_one_of_ne_zero (show m ≠ 0 by omega)
    by_cases ended : r.cursor.rest = []
    · simp [quotedLines, atEnd, ended] at found
    · have going := whole.ongoing ended
      rw [quotedLines] at found ⊢
      rw [r.inside_cursor, going.document_mark_inside, going.inside_not_end]
      rw [going.not_end] at found
      split at found
      next => cases found
      next goes =>
        rw [if_neg goes]
        obtain ⟨word, wordRead, later⟩ := Option.bind_eq_some_iff.mp found
        obtain ⟨wordInside, first⟩ := quoted_word_inside (a := a) single b b' wider going bounded wordRead
        have short := first.shorter
        have quote : (if single then '\'' else '"') ≠ '-' ∧ isBreak (if single then '\'' else '"') = false := by
          cases single <;> decide
        generalize (if single then '\'' else '"') = mark at later quote ⊢
        rw [wordInside, Option.bind_eq_bind, Option.bind_some, word.inside_cursor, first.whole.stands _ quote.1]
        split at later
        next closed =>
          have left : word.cursor.rest ≠ [] := by
            intro ended
            simp [stands, head?, ended] at closed
          have last := first.whole.ongoing left
          rw [if_pos closed]
          obtain rfl := Option.some.inj later
          refine ⟨?_, ?_⟩
          · simp only [Reading.inside, last.skip_inside]
          · have leads := skip_leads last (stands_inner closed quote.2)
            exact ⟨leads.going, Nat.le_trans leads.shorter first.shorter⟩
        next unclosed =>
          rw [if_neg unclosed]
          obtain ⟨gap, second⟩ := quoted_gap_inside (a := a) b b' wider first.whole (Nat.lt_of_le_of_lt short bounded)
          have shorter := second.shorter
          rw [gap, Reading.join_inside]
          obtain ⟨same, third⟩ := ih (r := (quotedGap b word).join) m (by omega)
            (by rw [Reading.join_cursor]; exact second.whole) (by rw [Reading.join_cursor]; omega) later
          rw [Reading.join_cursor] at third
          exact ⟨same, third.going, Nat.le_trans third.shorter (Nat.le_trans shorter short)⟩

theorem quoted_inside {c d : Cursor} (b b' : Nat) (wider : b ≤ b') (single : Bool) (going : c.Ongoing)
    (inner : c.at? isBreak = false) (room : c.rest.length < b) (text : String)
    (found : quoted? b single c = some (text, d)) :
    quoted? b' single (c.inside a) = some (text, d.inside a) ∧ Leads c d := by
  rw [quoted?] at found ⊢
  have first := skip_leads going inner
  obtain ⟨q, read, same⟩ := Option.bind_eq_some_iff.mp found
  obtain ⟨inStream, leads⟩ := quoted_lines_inside (a := a) b b' wider single b b' wider (r := { cursor := c.skip })
    first.going.whole (Nat.lt_of_le_of_lt first.shorter room) read
  simp only [Option.pure_def, Option.some.injEq, Prod.mk.injEq] at same
  obtain ⟨rfl, rfl⟩ := same
  rw [going.skip_inside]
  change quotedLines b' single b' { cursor := c.skip.inside a } = _ at inStream
  rw [inStream]
  exact ⟨rfl, first.trans leads⟩

section Block

variable {c d : Cursor}

def chomping (c : Cursor) : Chomping × Cursor :=
  if c.stands '+' then (.keep, c.skip) else if c.stands '-' then (.strip, c.skip) else (.clip, c)

def increment? (c : Cursor) : Option (Nat × Cursor) :=
  match c.head? with
  | some d => if d == '0' then none else if d.isDigit then some (d.toNat - 48, c.skip) else some (0, c)
  | none => some (0, c)

theorem header_eq (c : Cursor) :
    header? c =
      match chomping c with
      | (.clip, _) => do
          let (increment, c) ← increment? c
          if increment = 0 then return (.clip, 0, c) else return ((chomping c).1, increment, (chomping c).2)
      | (kind, c) => do
          let (increment, c) ← increment? c
          return (kind, increment, c) := rfl

theorem chomping_inside (going : c.Ongoing) :
    chomping (c.inside a) = ((chomping c).1, (chomping c).2.inside a) ∧ Leads c (chomping c).2 := by
  simp only [chomping, going.stands, going.skip_inside]
  by_cases keep : c.stands '+' = true
  · simp only [if_pos keep]
    exact ⟨trivial, skip_leads going (stands_inner keep rfl)⟩
  · simp only [if_neg keep]
    by_cases strip : c.stands '-' = true
    · simp only [if_pos strip]
      exact ⟨trivial, skip_leads going (stands_inner strip rfl)⟩
    · simp only [if_neg strip]
      exact ⟨trivial, .refl going⟩

theorem increment_inside (going : c.Ongoing) (increment : Nat) (found : increment? c = some (increment, d)) :
    increment? (c.inside a) = some (increment, d.inside a) ∧ Leads c d := by
  rw [increment?] at found ⊢
  rw [going.head]
  cases head : c.head? with
  | none => simp [head?, going.left] at head
  | some x =>
    simp only [head] at found ⊢
    split at found
    next => cases found
    next valid =>
      rw [if_neg valid]
      split at found
      next digit =>
        rw [if_pos digit, going.skip_inside]
        simp only [Option.some.injEq, Prod.mk.injEq] at found
        obtain ⟨rfl, rfl⟩ := found
        exact ⟨rfl, skip_leads going (by simpa [Cursor.at?, head] using Mark.digit_on_line.inner digit)⟩
      next other =>
        rw [if_neg other]
        simp only [Option.some.injEq, Prod.mk.injEq] at found
        obtain ⟨rfl, rfl⟩ := found
        exact ⟨rfl, .refl going⟩

theorem header_inside (going : c.Ongoing) (kind : Chomping) (increment : Nat)
    (found : header? c = some (kind, increment, d)) :
    header? (c.inside a) = some (kind, increment, d.inside a) ∧ Leads c d := by
  rw [header_eq] at found ⊢
  obtain ⟨same, first⟩ := chomping_inside (a := a) going
  rw [same]
  generalize chomping c = chomped at found first ⊢
  obtain ⟨mark, after⟩ := chomped
  cases mark with
  | clip =>
    obtain ⟨⟨width, digits⟩, read, later⟩ := Option.bind_eq_some_iff.mp found
    obtain ⟨inStream, second⟩ := increment_inside (a := a) going width read
    simp only [inStream, Option.bind_eq_bind, Option.bind_some] at later ⊢
    split at later
    next unmarked =>
      rw [if_pos unmarked]
      simp only [Option.pure_def, Option.some.injEq, Prod.mk.injEq] at later
      obtain ⟨rfl, rfl, rfl⟩ := later
      exact ⟨rfl, second⟩
    next marked =>
      rw [if_neg marked]
      obtain ⟨sameMark, third⟩ := chomping_inside (a := a) second.going
      simp only [Option.pure_def, Option.some.injEq, Prod.mk.injEq] at later
      obtain ⟨rfl, rfl, rfl⟩ := later
      rw [sameMark]
      exact ⟨rfl, second.trans third⟩
  | _ =>
    obtain ⟨⟨width, digits⟩, read, later⟩ := Option.bind_eq_some_iff.mp found
    obtain ⟨inStream, second⟩ := increment_inside (a := a) first.going width read
    simp only [Option.pure_def, Option.some.injEq, Prod.mk.injEq] at later
    obtain ⟨rfl, rfl, rfl⟩ := later
    simp only [inStream]
    exact ⟨rfl, first.trans second⟩

theorem spaces_inside (whole : c.Whole) :
    (c.inside a).rest.takeWhile (· == ' ') = c.rest.takeWhile (· == ' ') := by
  have taken := take_inside (a := a) (· == ' ') (on_line_of _ (by decide)) whole (.inr rfl)
  exact congrArg Prod.fst taken

theorem taken_spaces (cs : List Char) (count : Nat) (enough : count ≤ (cs.takeWhile (· == ' ')).length) :
    ∀ x ∈ cs.take count, x = ' ' := by
  intro x member
  have shown : cs.take count = (cs.takeWhile (· == ' ')).take count := by
    conv_rhs => rw [List.prefix_iff_eq_take.mp (List.takeWhile_prefix _), List.take_take, Nat.min_eq_left enough]
  rw [shown] at member
  simpa using List.all_eq_true.mp List.all_takeWhile x (List.mem_of_mem_take member)

theorem spaces_drop (whole : c.Whole) (count : Nat) (enough : count ≤ (c.rest.takeWhile (· == ' ')).length) :
    (c.inside a).drop count = (c.drop count).inside a ∧ Reaches c (c.drop count) := by
  by_cases ended : c.rest = []
  · obtain rfl : count = 0 := by simpa [ended] using enough
    exact ⟨rfl, .refl whole⟩
  · have inner : ∀ x ∈ c.rest.take count, isBreak x = false := by
      intro x member
      rw [taken_spaces c.rest count enough x member]
      rfl
    obtain ⟨further, dropped⟩ := (whole.ongoing ended).drop (a := a) count inner
    exact ⟨dropped, further.whole, drop_shorter count⟩

theorem empty_lines_inside (indent : Nat) (n m : Nat) (wide : n ≤ m) (whole : c.Whole) (room : c.rest.length < n)
    (breaks read : List Char) (deepest depth : Nat)
    (found : emptyLines indent n c breaks deepest = some (d, read, depth)) :
    emptyLines indent m (c.inside a) breaks deepest = some (d.inside a, read, depth) ∧ Reaches c d := by
  induction n generalizing c m breaks deepest with
  | zero => exact absurd room (Nat.not_lt_zero _)
  | succ n ih =>
    obtain ⟨m, rfl⟩ := Nat.exists_eq_add_one_of_ne_zero (show m ≠ 0 by omega)
    simp only [emptyLines, spaces_inside whole, inside_column] at found ⊢
    generalize counted : (if (indent == 0) = true then (c.rest.takeWhile (· == ' ')).length
      else min (c.rest.takeWhile (· == ' ')).length (indent - c.column)) = count at found ⊢
    have enough : count ≤ (c.rest.takeWhile (· == ' ')).length := by
      rw [← counted]
      split
      · exact Nat.le_refl _
      · exact Nat.min_le_left _ _
    obtain ⟨dropped, first⟩ := spaces_drop (a := a) whole count enough
    have short := first.shorter
    rw [dropped, first.whole.stands '\t' (by decide), first.whole.at isBreak rfl]
    split at found
    next => cases found
    next aligned =>
      rw [if_neg (show ¬ ((indent == 0 || decide (((c.drop count).inside a).column < indent)) &&
        (c.drop count).stands '\t') = true from aligned)]
      split at found
      next broken =>
        obtain ⟨x, rest, here, -⟩ := at_break broken
        have going := first.whole.ongoing (by rw [here]; exact List.cons_ne_nil x rest)
        have fewer := skip_break_shorter broken
        have second := skip_break_reaches first.whole broken
        obtain ⟨same, third⟩ := ih m (by omega) second.whole (by omega) _ _ found
        rw [if_pos broken, going.skip_break_inside, break_text_inside going]
        exact ⟨same, (first.trans second).trans third⟩
      next other =>
        rw [if_neg other]
        simp only [Option.some.injEq, Prod.mk.injEq] at found
        obtain ⟨rfl, rfl, rfl⟩ := found
        exact ⟨rfl, first⟩

theorem line_broken (going : c.Ongoing) : (c.take (!isBreak ·)).2.at? isBreak = true := by
  have further := take_ongoing (!isBreak ·) inner_on_line going
  have parts := congrArg (List.drop (c.rest.takeWhile (!isBreak ·)).length)
    (List.takeWhile_append_dropWhile (p := (!isBreak ·)) (l := c.rest))
  rw [List.drop_left] at parts
  have first := List.head?_dropWhile_not (!isBreak ·) c.rest
  rw [parts] at first
  cases next : (c.take (!isBreak ·)).2.rest with
  | nil => exact absurd next further.left
  | cons x rest =>
    rw [show c.rest.drop (c.rest.takeWhile (!isBreak ·)).length = x :: rest from next] at first
    rw [at_of_rest next]
    simpa using first

-- A line of a block is indented, so that the block is over where the text is.
theorem block_lines_inside (b b' : Nat) (wider : b ≤ b') (literal : Bool) (indent : Nat) (indented : indent ≠ 0)
    (n m : Nat) (wide : n ≤ m) (whole : c.Whole) (bounded : c.rest.length < b) (room : c.rest.length < n)
    (text last breaks text' last' breaks' : List Char) (blank : Bool)
    (found : blockLines b literal indent n c text last breaks blank = some (d, text', last', breaks')) :
    blockLines b' literal indent m (c.inside a) text last breaks blank = some (d.inside a, text', last', breaks') ∧
      Reaches c d := by
  induction n generalizing c m text last breaks blank with
  | zero => exact absurd room (Nat.not_lt_zero _)
  | succ n ih =>
    obtain ⟨m, rfl⟩ := Nat.exists_eq_add_one_of_ne_zero (show m ≠ 0 by omega)
    by_cases ended : c.rest = []
    · have outside : (c.column == indent) = false := by
        rw [whole.ended ended]
        exact beq_false_of_ne (Ne.symm indented)
      simp only [blockLines, inside_column, outside, Bool.false_and, Bool.false_eq_true, if_false] at found ⊢
      simp only [Option.some.injEq, Prod.mk.injEq] at found
      obtain ⟨rfl, rfl, rfl, rfl⟩ := found
      exact ⟨rfl, .refl whole⟩
    · have going := whole.ongoing ended
      have first := take_leads (!isBreak ·) inner_on_line going
      have broken := line_broken going
      have second := skip_break_reaches first.going.whole broken
      have fewer := skip_break_shorter broken
      have short := first.shorter
      simp only [blockLines, inside_column, going.not_end, going.inside_not_end, going.at,
        take_inside (!isBreak ·) inner_on_line whole (.inl ended), break_text_inside first.going,
        first.going.skip_break_inside] at found ⊢
      split at found
      next here =>
        rw [if_pos here]
        cases empty : emptyLines indent b (c.take (!isBreak ·)).2.skipBreak [] 0 with
        | none => simp [empty] at found
        | some result =>
          obtain ⟨after, others, depth⟩ := result
          obtain ⟨emptyInside, third⟩ :=
            empty_lines_inside (a := a) indent b b' wider second.whole (by omega) [] others 0 depth empty
          have shorter := third.shorter
          simp only [empty, emptyInside] at found ⊢
          obtain ⟨same, fourth⟩ := ih m (by omega) third.whole (by omega) (by omega) _ _ _ _ found
          exact ⟨same, ((first.reaches.trans second).trans third).trans fourth⟩
      next outside =>
        rw [if_neg outside]
        simp only [Option.some.injEq, Prod.mk.injEq] at found
        obtain ⟨rfl, rfl, rfl, rfl⟩ := found
        exact ⟨rfl, .refl whole⟩

theorem block_inside (b b' : Nat) (wider : b ≤ b') (literal : Bool) (outer : Int) (going : c.Ongoing)
    (inner : c.at? isBreak = false) (room : c.rest.length < b) (text : String)
    (found : block? b literal outer c = some (text, d)) :
    block? b' literal outer (c.inside a) = some (text, d.inside a) ∧ Reaches c d := by
  rw [block?] at found ⊢
  have mark := skip_leads going inner
  obtain ⟨⟨kind, increment, headed⟩, header, found⟩ := Option.bind_eq_some_iff.mp found
  obtain ⟨headerInside, first⟩ := header_inside (a := a) mark.going kind increment header
  obtain ⟨line, lineRead, found⟩ := Option.bind_eq_some_iff.mp found
  obtain ⟨lineInside, second⟩ := line_end_inside (a := a) first.going lineRead
  have reached := (mark.trans first).reaches.trans second
  have short := reached.shorter
  rw [going.skip_inside]
  simp only [headerInside, lineInside, Option.bind_eq_bind, Option.bind_some]
  generalize (if increment = 0 then 0 else (max outer 0).toNat + increment) = given at found ⊢
  obtain ⟨⟨start, breaks, deepest⟩, emptyRead, found⟩ := Option.bind_eq_some_iff.mp found
  obtain ⟨emptyInside, third⟩ :=
    empty_lines_inside (a := a) given b b' wider second.whole (by omega) [] breaks 0 deepest emptyRead
  have shorter := third.shorter
  simp only [emptyInside, Option.bind_some]
  simp only at found
  have indented : (if given = 0 then max (max deepest (outer + 1).toNat) 1 else given) ≠ 0 := by
    split <;> omega
  generalize (if given = 0 then max (max deepest (outer + 1).toNat) 1 else given) = indent at found indented ⊢
  obtain ⟨⟨after, lines, last, others⟩, linesRead, found⟩ := Option.bind_eq_some_iff.mp found
  obtain ⟨linesInside, fourth⟩ := block_lines_inside (a := a) b b' wider literal indent indented b b' wider third.whole
    (by omega) (by omega) [] [] breaks lines last others false linesRead
  simp only [linesInside, Option.bind_some]
  simp only [Option.pure_def, Option.some.injEq, Prod.mk.injEq] at found
  obtain ⟨rfl, rfl⟩ := found
  exact ⟨rfl, (reached.trans third).trans fourth⟩

end Block

end ManifestSecrets.Yaml.Scalar
