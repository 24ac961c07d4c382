import ManifestSecrets.Yaml.Token.Mark
import ManifestSecrets.Proofs.Text.Digits
import ManifestSecrets.Proofs.Yaml.Cursor

set_option autoImplicit false

namespace ManifestSecrets

theorem Text.hex_on_line : Yaml.OnLine fun c => (hexValue? c).isSome :=
  Yaml.on_line_of _ (by decide)

theorem Text.hex_number_inner (cs : List Char) (n : Nat) (read : hexNumber? cs = some n) :
    ∀ c ∈ cs, Yaml.isBreak c = false :=
  fun c member => hex_on_line.inner (hex_number_digits cs n read c member)

namespace Yaml.Mark

variable {c d : Cursor} {a : Around}

open Cursor

theorem name_inside (going : c.Ongoing) (inner : c.at? isBreak = false) (name : String)
    (found : name? c = some (name, d)) : name? (c.inside a) = some (name, d.inside a) ∧ Leads c d := by
  have mark := skip_leads going inner
  have taken := take_leads isWordChar word_on_line mark.going
  simp only [name?, going.skip_inside, take_inside isWordChar word_on_line mark.going.whole (.inl mark.going.left),
    taken.going.head, taken.going.at] at found ⊢
  split at found
  next => cases found
  next refused =>
    obtain ⟨rfl, rfl⟩ := Prod.mk.inj (Option.some.inj found)
    rw [if_neg refused]
    exact ⟨rfl, mark.trans taken⟩

theorem percent_byte_append (rest after : List Char) (byte : Nat) (found : percentByte? rest = some byte) :
    percentByte? (rest ++ after) = some byte ∧ ∀ x ∈ rest.take 3, isBreak x = false := by
  unfold percentByte? at found
  split at found
  next x y tail =>
    refine ⟨found, ?_⟩
    have hex := Text.hex_number_inner [x, y] byte found
    simp only [List.mem_cons, forall_eq_or_imp, List.not_mem_nil, false_implies, implies_true, and_true] at hex
    have mark : isBreak '%' = false := rfl
    simp [mark, hex.1, hex.2]
  next => cases found

theorem percent_byte_inside (going : c.Ongoing) (byte : Nat) (found : percentByte? c.rest = some byte) :
    percentByte? (c.inside a).rest = some byte ∧ (c.inside a).drop 3 = (c.drop 3).inside a ∧ Leads c (c.drop 3) := by
  obtain ⟨same, inner⟩ := percent_byte_append c.rest a.after byte found
  obtain ⟨further, dropped⟩ := going.drop (a := a) 3 inner
  exact ⟨same, dropped, further, drop_shorter 3⟩

theorem continuation_inside (count : Nat) (going : c.Ongoing) (bytes read : List UInt8)
    (found : continuation? count c bytes = some (read, d)) :
    continuation? count (c.inside a) bytes = some (read, d.inside a) ∧ Leads c d := by
  induction count generalizing c bytes with
  | zero =>
    obtain ⟨rfl, rfl⟩ := Prod.mk.inj (Option.some.inj found)
    exact ⟨rfl, .refl going⟩
  | succ count ih =>
    rw [continuation?] at found ⊢
    obtain ⟨byte, here, later⟩ := Option.bind_eq_some_iff.mp found
    obtain ⟨same, dropped, further⟩ := percent_byte_inside (a := a) going byte here
    rw [same, Option.bind_eq_bind, Option.bind_some, dropped]
    by_cases continues : byte / 64 = 2
    · rw [if_pos continues] at later ⊢
      obtain ⟨readInside, leads⟩ := ih further.going _ later
      exact ⟨readInside, further.trans leads⟩
    · rw [if_neg continues] at later
      cases later

theorem percent_char_inside (going : c.Ongoing) (chars : List Char) (found : percentChar? c = some (chars, d)) :
    percentChar? (c.inside a) = some (chars, d.inside a) ∧ Leads c d ∧ d.rest.length < c.rest.length := by
  rw [percentChar?] at found ⊢
  obtain ⟨byte, here, later⟩ := Option.bind_eq_some_iff.mp found
  obtain ⟨same, dropped, further⟩ := percent_byte_inside (a := a) going byte here
  have fewer : (c.drop 3).rest.length < c.rest.length := by
    have positive := List.length_pos_iff.mpr going.left
    simp only [drop, List.length_drop]
    omega
  rw [same, Option.bind_eq_bind, Option.bind_some, dropped]
  cases length : byteCount byte with
  | zero => simp [length] at later
  | succ count =>
    simp only [length] at later ⊢
    obtain ⟨⟨bytes, after⟩, read, same⟩ := Option.bind_eq_some_iff.mp later
    obtain ⟨rfl, rfl⟩ := Prod.mk.inj (Option.some.inj same)
    obtain ⟨readInside, leads⟩ := continuation_inside (a := a) count further.going _ bytes read
    rw [readInside]
    exact ⟨rfl, further.trans leads, Nat.lt_of_le_of_lt leads.shorter fewer⟩

theorem tag_on_line (verbatim : Bool) : OnLine (isTagChar verbatim) := by
  cases verbatim
  · exact on_line_of _ (by decide)
  · exact on_line_of _ (by decide)

theorem tag_chars_percent (verbatim : Bool) (steps : Nat) (text : List Char) (percent : c.head? = some '%') :
    tagChars? verbatim (steps + 1) c text =
      (percentChar? c).bind fun (chars, after) => tagChars? verbatim steps after (chars.reverse ++ text) := by
  rw [tagChars?, percent]
  rfl

theorem tag_chars_other (verbatim : Bool) (steps : Nat) (text : List Char) (x : Char) (head : c.head? = some x)
    (other : x ≠ '%') :
    tagChars? verbatim (steps + 1) c text =
      if isTagChar verbatim x then tagChars? verbatim steps c.skip (x :: text) else some (text.reverse, c) := by
  rw [tagChars?, head]
  split
  next percent => exact absurd (Option.some.inj percent) other
  next same => rw [Option.some.inj same]
  next nothing => cases nothing

-- A bound that is greater than what is left of the text never ends the loop, in the stream as little as in the text.
theorem tag_chars_inside (verbatim : Bool) (n m : Nat) (wide : n ≤ m) (going : c.Ongoing) (room : c.rest.length < n)
    (text read : List Char) (found : tagChars? verbatim n c text = some (read, d)) :
    tagChars? verbatim m (c.inside a) text = some (read, d.inside a) ∧ Leads c d := by
  induction n generalizing c m text with
  | zero => exact absurd room (Nat.not_lt_zero _)
  | succ n ih =>
    obtain ⟨m, rfl⟩ := Nat.exists_eq_add_one_of_ne_zero (show m ≠ 0 by omega)
    obtain ⟨x, head⟩ : ∃ x, c.head? = some x := Option.isSome_iff_exists.mp (by simpa [head?] using going.left)
    have headInside : (c.inside a).head? = some x := going.head.trans head
    by_cases percent : x = '%'
    · subst percent
      rw [tag_chars_percent verbatim n text head] at found
      rw [tag_chars_percent verbatim m text headInside]
      obtain ⟨⟨chars, after⟩, here, later⟩ := Option.bind_eq_some_iff.mp found
      obtain ⟨same, first, fewer⟩ := percent_char_inside (a := a) going chars here
      obtain ⟨readInside, leads⟩ := ih m (by omega) first.going (by omega) _ later
      rw [same, Option.bind_some]
      exact ⟨readInside, first.trans leads⟩
    · rw [tag_chars_other verbatim n text x head percent] at found
      rw [tag_chars_other verbatim m text x headInside percent]
      by_cases taken : isTagChar verbatim x = true
      · rw [if_pos taken] at found ⊢
        have inner : c.at? isBreak = false := by simpa [Cursor.at?, head] using (tag_on_line verbatim).inner taken
        have fewer := skip_shorter going
        have first := skip_leads going inner
        obtain ⟨readInside, leads⟩ := ih m (by omega) first.going (by omega) _ found
        rw [going.skip_inside]
        exact ⟨readInside, first.trans leads⟩
      · rw [if_neg taken] at found ⊢
        obtain ⟨rfl, rfl⟩ := Prod.mk.inj (Option.some.inj found)
        exact ⟨rfl, .refl going⟩

theorem handle_inside (going : c.Ongoing) (inner : c.at? isBreak = false) :
    handle (c.inside a) = ((handle c).1, (handle c).2.inside a) ∧ Leads c (handle c).2 := by
  have mark := skip_leads going inner
  have taken := take_leads isWordChar word_on_line mark.going
  simp only [handle, going.skip_inside, take_inside isWordChar word_on_line mark.going.whole (.inl mark.going.left),
    taken.going.stands]
  by_cases second : (c.skip.take isWordChar).2.stands '!' = true
  · simp only [if_pos second, taken.going.skip_inside]
    exact ⟨trivial, (mark.trans taken).trans (skip_leads taken.going (stands_inner second rfl))⟩
  · simp only [if_neg second]
    exact ⟨trivial, mark.trans taken⟩

theorem second_inside (going : c.Ongoing) (inner : c.at? isBreak = false) : (c.inside a).second? = c.second? := by
  obtain ⟨rest, index, line, column⟩ := c
  rcases rest with - | ⟨x, - | ⟨y, rest⟩⟩
  · exact absurd rfl going.left
  · exact absurd rfl (closed_open x [] going.closed (by simpa [Cursor.at?, head?] using inner))
  · rfl

theorem tag_parts_inside (n m : Nat) (wide : n ≤ m) (going : c.Ongoing) (inner : c.at? isBreak = false)
    (room : c.rest.length < n) (name suffix : String) (found : tagParts? n c = some (name, suffix, d)) :
    tagParts? m (c.inside a) = some (name, suffix, d.inside a) ∧ Leads c d := by
  rw [tagParts?] at found ⊢
  rw [second_inside going inner]
  by_cases angle : (c.second? == some '<') = true
  · rw [if_pos angle] at found ⊢
    have two : ∀ x ∈ c.rest.take 2, isBreak x = false := by
      obtain ⟨rest, index, line, column⟩ := c
      rcases rest with - | ⟨x, - | ⟨y, rest⟩⟩
      · simp
      · simpa [Cursor.at?, head?] using inner
      · obtain rfl : y = '<' := by simpa [second?] using angle
        have mark : isBreak '<' = false := rfl
        have inner : isBreak x = false := by simpa [Cursor.at?, head?] using inner
        simp [mark, inner]
    obtain ⟨further, dropped⟩ := going.drop (a := a) 2 two
    have first : Leads c (c.drop 2) := ⟨further, drop_shorter 2⟩
    obtain ⟨⟨uri, after⟩, read, later⟩ := Option.bind_eq_some_iff.mp found
    obtain ⟨same, leads⟩ := tag_chars_inside (a := a) true n m wide further
      (Nat.lt_of_le_of_lt first.shorter room) [] uri read
    rw [dropped, same, Option.bind_eq_bind, Option.bind_some]
    simp only [leads.going.stands] at later ⊢
    split at later
    next => cases later
    next closed =>
      rw [if_neg closed]
      simp only [Option.pure_def, Option.some.injEq, Prod.mk.injEq] at later
      obtain ⟨rfl, rfl, rfl⟩ := later
      have close : after.stands '>' = true := by
        simp only [Bool.or_eq_true, not_or, Bool.not_eq_true, Bool.not_eq_false'] at closed
        exact closed.2
      rw [leads.going.skip_inside]
      exact ⟨rfl, (first.trans leads).trans (skip_leads leads.going (stands_inner close rfl))⟩
  · rw [if_neg angle] at found ⊢
    obtain ⟨start, first⟩ := handle_inside going inner (a := a)
    have short := first.shorter
    rw [start]
    simp only at found ⊢
    by_cases closes : closesHandle (handle c).1 = true
    · rw [if_pos closes] at found ⊢
      obtain ⟨⟨text, after⟩, read, later⟩ := Option.bind_eq_some_iff.mp found
      obtain ⟨same, leads⟩ := tag_chars_inside (a := a) false n m wide first.going (by omega) [] text read
      rw [same, Option.bind_eq_bind, Option.bind_some]
      split at later
      next => cases later
      next filled =>
        simp only [Option.pure_def, Option.some.injEq, Prod.mk.injEq] at later
        obtain ⟨rfl, rfl, rfl⟩ := later
        rw [if_neg filled]
        exact ⟨rfl, first.trans leads⟩
    · rw [if_neg closes] at found ⊢
      obtain ⟨⟨text, after⟩, read, later⟩ := Option.bind_eq_some_iff.mp found
      obtain ⟨same, leads⟩ := tag_chars_inside (a := a) false n m wide first.going (by omega) [] text read
      rw [same, Option.bind_eq_bind, Option.bind_some]
      simp only at later ⊢
      split at later
      next empty =>
        simp only [Option.pure_def, Option.some.injEq, Prod.mk.injEq] at later
        obtain ⟨rfl, rfl, rfl⟩ := later
        rw [if_pos empty]
        exact ⟨rfl, first.trans leads⟩
      next filled =>
        simp only [Option.pure_def, Option.some.injEq, Prod.mk.injEq] at later
        obtain ⟨rfl, rfl, rfl⟩ := later
        rw [if_neg filled]
        exact ⟨rfl, first.trans leads⟩

theorem tag_inside (n m : Nat) (wide : n ≤ m) (flow : Bool) (going : c.Ongoing) (inner : c.at? isBreak = false)
    (room : c.rest.length < n) (token : Token) (found : tag? n flow c = some (token, d)) :
    tag? m flow (c.inside a) = some (token, d.inside a) ∧ Leads c d ∧ ∃ handle suffix, token = .tag handle suffix := by
  rw [tag?] at found ⊢
  obtain ⟨⟨name, suffix, after⟩, read, later⟩ := Option.bind_eq_some_iff.mp found
  obtain ⟨same, leads⟩ := tag_parts_inside (a := a) n m wide going inner room name suffix read
  rw [same, Option.bind_eq_bind, Option.bind_some]
  simp only [leads.going.head, leads.going.stands] at later ⊢
  split at later
  next ends =>
    simp only [Option.pure_def, Option.some.injEq, Prod.mk.injEq] at later
    obtain ⟨rfl, rfl⟩ := later
    rw [if_pos ends]
    exact ⟨rfl, leads, _, _, rfl⟩
  next => cases later

theorem digit_on_line : OnLine Char.isDigit := on_line_of _ (by decide)

theorem version_part_inside (going : c.Ongoing) (part : Nat) (found : versionPart? c = some (part, d)) :
    versionPart? (c.inside a) = some (part, d.inside a) ∧ Leads c d := by
  have taken := take_leads Char.isDigit digit_on_line going
  simp only [versionPart?, take_inside Char.isDigit digit_on_line going.whole (.inl going.left)] at found ⊢
  split at found
  next => cases found
  next filled =>
    simp only [Option.some.injEq, Prod.mk.injEq] at found
    obtain ⟨rfl, rfl⟩ := found
    rw [if_neg filled]
    exact ⟨rfl, taken⟩

def IsDirective : Token → Prop
  | .version _ _ => True
  | .tagDirective _ _ => True
  | _ => False

theorem version_inside (going : c.Ongoing) (token : Token) (found : version? c = some (token, d)) :
    version? (c.inside a) = some (token, d.inside a) ∧ Leads c d ∧ IsDirective token := by
  rw [version?] at found ⊢
  obtain ⟨blanks, first⟩ := skip_while_inside isBlank blank_on_line going (a := a)
  obtain ⟨⟨major, point⟩, read, later⟩ := Option.bind_eq_some_iff.mp found
  obtain ⟨same, second⟩ := version_part_inside (a := a) first.going major read
  rw [blanks, same, Option.bind_eq_bind, Option.bind_some]
  simp only [second.going.stands] at later ⊢
  by_cases dot : point.stands '.' = true
  · rw [if_pos dot] at later ⊢
    obtain ⟨⟨minor, after⟩, readMinor, done⟩ := Option.bind_eq_some_iff.mp later
    have third := skip_leads second.going (stands_inner dot rfl)
    obtain ⟨sameMinor, fourth⟩ := version_part_inside (a := a) third.going minor readMinor
    simp only [Option.pure_def, Option.some.injEq, Prod.mk.injEq] at done
    obtain ⟨rfl, rfl⟩ := done
    rw [second.going.skip_inside, sameMinor]
    exact ⟨rfl, ((first.trans second).trans third).trans fourth, trivial⟩
  · rw [if_neg dot] at later
    cases later

theorem tag_directive_inside (n m : Nat) (wide : n ≤ m) (going : c.Ongoing) (room : c.rest.length < n) (token : Token)
    (found : tagDirective? n c = some (token, d)) :
    tagDirective? m (c.inside a) = some (token, d.inside a) ∧ Leads c d ∧ IsDirective token := by
  obtain ⟨blanks, first⟩ := skip_while_inside isBlank blank_on_line going (a := a)
  simp only [tagDirective?, blanks, first.going.stands] at found ⊢
  cases mark : (c.skipWhile isBlank).stands '!' with
  | false => simp [mark] at found
  | true =>
    obtain ⟨start, second⟩ := handle_inside (a := a) first.going (stands_inner mark rfl)
    simp only [mark, Bool.not_true, Bool.false_eq_true, if_false, start, second.going.at] at found ⊢
    split at found
    next shaped =>
      rw [if_pos shaped]
      obtain ⟨spaces, third⟩ := skip_while_inside isBlank blank_on_line second.going (a := a)
      obtain ⟨⟨pfx, after⟩, read, later⟩ := Option.bind_eq_some_iff.mp found
      have line := (first.trans second).trans third
      obtain ⟨same, fourth⟩ := tag_chars_inside (a := a) true n m wide third.going
        (Nat.lt_of_le_of_lt line.shorter room) [] pfx read
      rw [spaces, same, Option.bind_eq_bind, Option.bind_some]
      simp only [fourth.going.head] at later ⊢
      split at later
      next => cases later
      next ends =>
        simp only [Option.pure_def, Option.some.injEq, Prod.mk.injEq] at later
        obtain ⟨rfl, rfl⟩ := later
        rw [if_neg ends]
        exact ⟨rfl, line.trans fourth, trivial⟩
    next => cases found

theorem directive_ended (alone stream : Option (Token × Cursor)) (token : Token)
    (same : ∀ token e, alone = some (token, e) → stream = some (token, e.inside a) ∧ Leads c e ∧ IsDirective token)
    (found : (do let (token, after) ← alone; return (token, ← after.lineEnd?)) = some (token, d)) :
    (do let (token, after) ← stream; return (token, ← after.lineEnd?)) = some (token, d.inside a) ∧ Reaches c d ∧
      IsDirective token := by
  obtain ⟨⟨read, after⟩, here, later⟩ := Option.bind_eq_some_iff.mp found
  obtain ⟨last, line, done⟩ := Option.bind_eq_some_iff.mp later
  simp only [Option.pure_def, Option.some.injEq, Prod.mk.injEq] at done
  obtain ⟨rfl, rfl⟩ := done
  obtain ⟨inStream, leads, directive⟩ := same read after here
  obtain ⟨lineInside, reaches⟩ := line_end_inside (a := a) leads.going line
  simp only [inStream, lineInside, Option.bind_eq_bind, Option.bind_some]
  exact ⟨rfl, leads.reaches.trans reaches, directive⟩

theorem directive_inside (n m : Nat) (wide : n ≤ m) (going : c.Ongoing) (inner : c.at? isBreak = false)
    (room : c.rest.length < n) (token : Token) (found : directive? n c = some (token, d)) :
    directive? m (c.inside a) = some (token, d.inside a) ∧ Reaches c d ∧ IsDirective token := by
  have mark := skip_leads going inner
  have named := mark.trans (take_leads isWordChar word_on_line mark.going)
  simp only [directive?, going.skip_inside, take_inside isWordChar word_on_line mark.going.whole (.inl mark.going.left),
    named.going.head] at found ⊢
  split at found
  next => cases found
  next ends =>
    rw [if_neg ends]
    generalize String.ofList (c.skip.take isWordChar).1 = name at found ⊢
    split at found
    next =>
      refine directive_ended _ _ token ?_ found
      intro token e read
      obtain ⟨same, leads, directive⟩ := version_inside (a := a) named.going token read
      exact ⟨same, named.trans leads, directive⟩
    next =>
      refine directive_ended _ _ token ?_ found
      intro token e read
      obtain ⟨same, leads, directive⟩ := tag_directive_inside (a := a) n m wide named.going
        (Nat.lt_of_le_of_lt named.shorter room) token read
      exact ⟨same, named.trans leads, directive⟩
    next => cases found

end Yaml.Mark

end ManifestSecrets
