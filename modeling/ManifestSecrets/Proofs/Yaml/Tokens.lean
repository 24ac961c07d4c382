import ManifestSecrets.Proofs.Yaml.Scan

set_option autoImplicit false

namespace ManifestSecrets.Yaml

namespace Scanner

variable {e : Embedding} {started : Bool} {s t : Scanner}

structure Left (s : Scanner) : Prop where
  keyAllowed : s.keyAllowed = false
  closed : s.flow = 0 → s.indent = -1 ∧ s.indents = []
  key : ∃ key rest, s.keys = key :: rest ∧ key.possible = false

theorem nested_bottom (inner : Int) (rest : List Int) (nested : Nested (inner :: rest)) : -1 ≤ inner := by
  induction rest generalizing inner with
  | nil => exact Int.le_of_eq nested.symm
  | cons outer rest ih => exact Int.le_of_lt (Int.lt_of_le_of_lt (ih outer nested.2) nested.1)

theorem close_go_all (indents : List Int) (s : Scanner) (nested : Nested (s.indent :: indents))
    (same : s.indents = indents) :
    (closeBlocks.go (-1) indents s).indent = -1 ∧ (closeBlocks.go (-1) indents s).indents = [] := by
  induction indents generalizing s with
  | nil => exact ⟨nested, same⟩
  | cons outer rest ih =>
    have deeper : -1 < s.indent := Int.lt_of_le_of_lt (nested_bottom outer rest nested.2) nested.1
    simp only [closeBlocks.go, if_pos deeper]
    exact ih _ nested.2 rfl

theorem left_along (along : Along e started s t) {s' : Scanner} (found : s.leaveBlocks? = some s') : s'.Left := by
  obtain ⟨u, removed, same⟩ := Option.bind_eq_some_iff.mp found
  obtain rfl := Option.some.inj same
  have levels := (along.closeBlocks (-1)).levels
  cases keys : (s.closeBlocks (-1)).keys with
  | nil => simp [keys] at levels
  | cons key rest =>
    simp only [removeKey?, keys] at removed
    split at removed
    next => cases removed
    next =>
      obtain rfl := Option.some.inj removed
      refine ⟨rfl, fun flat => ?_, _, rest, rfl, rfl⟩
      have flat : (s.closeBlocks (-1)).flow = 0 := flat
      change (s.closeBlocks (-1)).indent = -1 ∧ (s.closeBlocks (-1)).indents = []
      unfold closeBlocks at flat ⊢
      split at flat
      next inside => simp [inFlow, flat] at inside
      next outside =>
        rw [if_neg outside]
        exact close_go_all s.indents s along.blocks rfl

-- At its end the text by itself has no more tokens; the stream ends as well, or its next document starts.
structure Stops (e : Embedding) (started : Bool) (s' : Scanner) (stream : Option Scanner) (u v : Scanner) : Prop where
  along : Along e started u v
  done : u.cursor.rest = []
  left : u.Left
  alone : s' = u.emit .streamEnd
  stream : stream = some (if e.after = [] then v.emit .streamEnd else (v.moved 3).emit .documentStart)

theorem stops_along (along : Along e started s t) (ended : s.cursor.rest = []) {s' : Scanner}
    (found : s.token? = some s') :
    ∃ u v, Stops e started s' t.token? u v := by
  have ends : s.token? = s.streamEnd? := by
    unfold token?
    simp only [ended]
  rw [ends] at found
  obtain ⟨u, left, same⟩ := Option.bind_eq_some_iff.mp found
  obtain ⟨v, leftInside, uv, cursor⟩ := along.leaveBlocks left
  refine ⟨u, v, uv, cursor ▸ ended, left_along along left, (Option.some.inj same).symm, ?_⟩
  by_cases last : e.after = []
  · have endsInside : t.token? = t.streamEnd? := by
      unfold token?
      simp only [along.cursor, Cursor.inside, ended, last, List.append_nil]
    rw [endsInside, if_pos last, streamEnd?, leftInside]
    rfl
  · have mark : t.cursor.startsLineWith '-' = true := by
      rw [along.cursor]
      refine (Cursor.ended_inside along.whole ended).resolve_left ?_
      simpa [Cursor.atEnd, Cursor.inside, ended] using last
    obtain ⟨more, hyphens⟩ := e.marked.resolve_left last
    have rest : t.cursor.rest = '-' :: '-' :: '-' :: '\n' :: more := by
      simp [along.cursor, Cursor.inside, ended, hyphens]
    have starts : t.token? = t.documentMark? .documentStart := by
      unfold token?
      simp only [rest, mark]
      simp
    rw [starts, if_neg last, documentMark?, leftInside]
    rfl

def fromNext? (s : Scanner) : Option Scanner := do
  let s ← s.dropStale?
  (s.closeBlocks s.cursor.column).token?

theorem step_from_next (s : Scanner) : s.step? = (s.toNext s.bound).fromNext? := rfl

theorem from_next_along (along : Along e started s t) (inner : s.cursor.at? isBreak = false) {s' : Scanner}
    (found : s.fromNext? = some s') :
    (∃ t', t.fromNext? = some t' ∧ Along e started s' t') ∨ ∃ u v, Stops e started s' t.fromNext? u v := by
  obtain ⟨x, dropped, found⟩ := Option.bind_eq_some_iff.mp found
  obtain ⟨y, droppedInside, xy, cursor⟩ := along.dropStale dropped
  have closed := xy.closeBlocks x.cursor.column
  have column : y.cursor.column = x.cursor.column := by
    rw [xy.cursor]
    rfl
  have same : t.fromNext? = (y.closeBlocks x.cursor.column).token? := by
    rw [fromNext?, droppedInside, Option.bind_eq_bind, Option.bind_some, column]
  have here := (close_cursor x.cursor.column x).trans cursor
  rw [same]
  by_cases ended : s.cursor.rest = []
  · exact .inr (stops_along closed (here ▸ ended) found)
  · exact .inl (closed.token (here ▸ ended) (here ▸ inner) _ found)

theorem step_along (along : Along e started s t) {s' : Scanner} (found : s.step? = some s') :
    (∃ t', t.step? = some t' ∧ Along e started s' t') ∨ ∃ u v, Stops e started s' t.step? u v := by
  obtain ⟨next, inner⟩ := along.toNext s.bound t.bound along.wide along.room
  exact from_next_along next inner found

theorem to_next_enough (n m : Nat) (s : Scanner) (enough : s.cursor.rest.length < n)
    (enough' : s.cursor.rest.length < m) :
    toNext n s = toNext m s := by
  induction n generalizing s m with
  | zero => exact absurd enough (Nat.not_lt_zero _)
  | succ n ih =>
    obtain ⟨m, rfl⟩ := Nat.exists_eq_add_one_of_ne_zero (show m ≠ 0 by omega)
    rw [to_next_past, to_next_past]
    split
    next broken =>
      have fewer := Cursor.skip_break_shorter broken
      have short := Cursor.past_shorter (s.inFlow || !s.keyAllowed) s.cursor
      apply ih
      · change (s.cursor.past (s.inFlow || !s.keyAllowed)).skipBreak.rest.length < n
        omega
      · change (s.cursor.past (s.inFlow || !s.keyAllowed)).skipBreak.rest.length < m
        omega
    next => rfl

theorem run_fault (n : Nat) (s : Scanner) (stuck : s.step? = none) : .fault ∈ run (n + 1) s := by
  simp [run, stuck]

theorem run_ended (n : Nat) (s : Scanner) (tokens : List Token) {s' : Scanner} (found : s.step? = some s')
    (ended : s'.tokens = .streamEnd :: tokens) : run (n + 1) s = (.streamEnd :: tokens).reverse := by
  simp [run, found, ended]

theorem run_goes (n : Nat) (s : Scanner) {s' : Scanner} (found : s.step? = some s') (goes : .streamEnd ∉ s'.tokens) :
    run (n + 1) s = run n s' := by
  have other : (s'.tokens.head? == some .streamEnd) = false := by
    apply beq_false_of_ne
    intro last
    exact goes (List.mem_of_head? last)
  simp only [run, found, other, Bool.false_eq_true, if_false]

-- Once the text by itself is read to its end, the stream is read as far, and then on from the next document if there
-- is one.
structure Completes (e : Embedding) (started : Bool) (n : Nat) (s t u v : Scanner) : Prop where
  along : Along e started u v
  done : u.cursor.rest = []
  left : u.Left
  alone : run n s = (.streamEnd :: u.tokens).reverse
  stream : ∃ k, 0 < k ∧ k ≤ n ∧ ∀ m, run (m + k) t =
    if e.after = [] then (.streamEnd :: v.tokens).reverse else run m ((v.moved 3).emit .documentStart)

theorem completes_step {s' t' u v : Scanner} {n : Nat} (along : Along e started s' t') (clean : .streamEnd ∉ e.tokens)
    (found : s.step? = some s') (foundInside : t.step? = some t') (completes : Completes e started n s' t' u v) :
    Completes e started (n + 1) s t u v := by
  have goes : .streamEnd ∉ s'.tokens := fun member => along.passed _ member
  have goesInside : .streamEnd ∉ t'.tokens := by
    rw [along.tokens]
    exact fun member => (List.mem_append.mp member).elim goes clean
  obtain ⟨k, positive, short, rest⟩ := completes.stream
  refine { completes with alone := (run_goes n s found goes).trans completes.alone, stream := ?_ }
  refine ⟨k + 1, Nat.succ_pos k, Nat.succ_le_succ short, fun m => ?_⟩
  rw [← Nat.add_assoc, run_goes (m + k) t foundInside goesInside]
  exact rest m

theorem completes_stops {s' u v : Scanner} (n : Nat) (clean : .streamEnd ∉ e.tokens) (found : s.step? = some s')
    (stops : Stops e started s' t.step? u v) : Completes e started (n + 1) s t u v := by
  refine ⟨stops.along, stops.done, stops.left, run_ended n s _ found (by rw [stops.alone, emit]), 1, Nat.one_pos,
    Nat.succ_le_succ (Nat.zero_le n), fun m => ?_⟩
  by_cases last : e.after = []
  · rw [if_pos last, run_ended m t _ stops.stream (by rw [if_pos last, emit])]
  · have goes : .streamEnd ∉ ((v.moved 3).emit .documentStart).tokens := by
      have along := stops.along
      intro member
      rcases List.mem_cons.mp member with start | member
      · cases start
      · rw [moved, along.tokens] at member
        exact (List.mem_append.mp member).elim (fun member => along.passed _ member) clean
    have starts : t.step? = some ((v.moved 3).emit .documentStart) := by rw [stops.stream, if_neg last]
    rw [if_neg last, run_goes m t starts goes]

theorem run_along (along : Along e started s t) (clean : .streamEnd ∉ e.tokens) (n : Nat) (read : .fault ∉ run n s) :
    ∃ u v, Completes e started n s t u v := by
  induction n generalizing s t with
  | zero => simp [run] at read
  | succ n ih =>
    cases found : s.step? with
    | none => exact absurd (run_fault n s found) read
    | some s' =>
      rcases step_along along found with ⟨t', foundInside, next⟩ | ⟨u, v, stops⟩
      · rw [run_goes n s found (fun member => next.passed _ member)] at read
        obtain ⟨u, v, completes⟩ := ih next read
        exact ⟨u, v, completes_step next clean found foundInside completes⟩
      · exact ⟨u, v, completes_stops n clean found stops⟩

def fresh (text : List Char) : Scanner := { cursor := { rest := text }, bound := text.length + 2 }

theorem letter_on_line : OnLine Char.isAlpha := on_line_of _ (by decide)

theorem letter_other {x y : Char} (letter : x.isAlpha = true) (mark : y.isAlpha = false) : (x == y) = false := by
  apply beq_false_of_ne
  rintro rfl
  simp [letter] at mark

theorem past_kept (tabs : Bool) {c : Cursor} {x : Char} {rest : List Char} (here : c.rest = x :: rest)
    (other : x ∉ ['\uFEFF', ' ', '\t', '#']) : c.past tabs = c := by
  simp only [List.mem_cons, List.not_mem_nil, or_false, not_or, ← beq_eq_false_iff_ne] at other
  obtain ⟨mark, space, tab, comment⟩ := other
  have stands : ∀ y : Char, c.stands y = (x == y) := by
    intro y
    rw [Cursor.stands, Cursor.head?, here]
    rfl
  have unmoved : c.skipWhile (fun d => d == ' ' || (tabs && d == '\t')) = c := by
    have stops : (x :: rest).takeWhile (fun d => d == ' ' || (tabs && d == '\t')) = [] := by
      apply List.takeWhile_cons_of_neg
      simp [space, tab]
    rw [Cursor.skipWhile, Cursor.take, here, stops]
    rfl
  rw [Cursor.past, stands, mark, Bool.and_false, if_neg Bool.false_ne_true, unmoved, Cursor.skipComment, stands, comment,
    if_neg Bool.false_ne_true]

theorem past_letter (tabs : Bool) {c : Cursor} {x : Char} {rest : List Char} (here : c.rest = x :: rest)
    (letter : x.isAlpha = true) : c.past tabs = c := by
  refine past_kept tabs here fun member => ?_
  simp only [List.mem_cons, List.not_mem_nil, or_false] at member
  rcases member with rfl | rfl | rfl | rfl <;> exact absurd letter (by decide)

theorem starts_plain_letter (flow : Bool) {x : Char} (letter : x.isAlpha = true) (next : Option Char) :
    startsPlain flow x next = true := by
  have blank : isBlankOrBreak x = false := by
    simp [isBlankOrBreak, isBlank, letter_on_line.inner letter, letter_other letter (show ' '.isAlpha = false from rfl),
      letter_other letter (show '\t'.isAlpha = false from rfl)]
  have marks : ("-?:,[]\x7b\x7d#&*!|>'\"%@\x60".toList.all fun y => !y.isAlpha) = true := by decide +kernel
  have mark : isMark x = false := by
    apply Bool.eq_false_iff.mpr
    intro isMark
    simpa [letter] using List.all_eq_true.mp marks x (List.contains_iff_mem.mp isMark)
  simp [startsPlain, blank, mark]

theorem token_letter {x : Char} {rest : List Char} (here : s.cursor.rest = x :: rest) (letter : x.isAlpha = true) :
    s.token? = s.plain? := by
  have other : ∀ y : Char, y.isAlpha = false → (x == y) = false := fun y mark => letter_other letter mark
  have line : ∀ y : Char, y.isAlpha = false → s.cursor.startsLineWith y = false := by
    intro y mark
    rw [Cursor.startsLineWith, here]
    split
    next same =>
      obtain ⟨rfl, -⟩ := List.cons.inj same
      simp [other y mark]
    next => exact Bool.and_false _
  unfold token?
  dsimp only
  rw [here]
  dsimp only
  simp only [other '%' rfl, other '[' rfl, other '\x7b' rfl, other ']' rfl, other '\x7d' rfl, other ',' rfl, other '-' rfl,
    other '?' rfl, other ':' rfl, other '*' rfl, other '&' rfl, other '!' rfl, other '|' rfl, other '>' rfl,
    other '\'' rfl, other '"' rfl, line '-' rfl, line '.' rfl, Bool.and_false, Bool.false_and, Bool.false_eq_true, if_false,
    starts_plain_letter _ letter, if_true]

theorem save_key_tokens {s' : Scanner} (found : s.saveKey? = some s') : s'.tokens = s.tokens := by
  unfold saveKey? at found
  split at found
  · obtain ⟨u, removed, same⟩ := Option.bind_eq_some_iff.mp found
    obtain rfl := Option.some.inj same
    unfold removeKey? at removed
    split at removed
    · split at removed
      · cases removed
      · obtain rfl := Option.some.inj removed
        rfl
    · obtain rfl := Option.some.inj removed
      rfl
  · obtain rfl := Option.some.inj found
    rfl

theorem plain_tokens {s' : Scanner} (found : s.plain? = some s') : ∃ text, s'.tokens = .scalar true text :: s.tokens := by
  obtain ⟨u, saved, found⟩ := Option.bind_eq_some_iff.mp found
  obtain ⟨⟨text, c, broken⟩, -, same⟩ := Option.bind_eq_some_iff.mp found
  obtain rfl := Option.some.inj same
  exact ⟨text, congrArg (_ :: ·) (save_key_tokens saved)⟩

theorem first_token (x : Char) (rest : List Char) (letter : x.isAlpha = true) {s' : Scanner}
    (found : (fresh (x :: rest)).step? = some s') : ∃ text, s'.tokens = [.scalar true text] := by
  have inner : (fresh (x :: rest)).cursor.at? isBreak = false := letter_on_line.inner letter
  have stays : (fresh (x :: rest)).toNext (fresh (x :: rest)).bound = fresh (x :: rest) := by
    change (fresh (x :: rest)).toNext ((x :: rest).length + 1 + 1) = _
    rw [to_next_past, past_letter _ rfl letter, if_neg (by simp [inner])]
  have goes : (fresh (x :: rest)).fromNext? = (fresh (x :: rest)).token? := rfl
  rw [step_from_next, stays, goes, token_letter rfl letter] at found
  exact plain_tokens found

theorem fresh_along (x : Char) (rest : List Char) (letter : x.isAlpha = true) (along : Along e false (fresh (x :: rest)) t)
    (clean : .streamEnd ∉ e.tokens) (n : Nat) (read : .fault ∉ run n (fresh (x :: rest))) :
    ∃ u v, Completes e true n (fresh (x :: rest)) t u v := by
  cases n with
  | zero => simp [run] at read
  | succ n =>
    cases found : (fresh (x :: rest)).step? with
    | none => exact absurd (run_fault n _ found) read
    | some s' =>
      obtain ⟨text, tokens⟩ := first_token x rest letter found
      rcases step_along along found with ⟨t', foundInside, next⟩ | ⟨u, v, stops⟩
      · rw [run_goes n _ found (fun member => next.passed _ member)] at read
        have begun : Along e true s' t' := { next with begun := fun _ => ⟨[], _, tokens, trivial⟩ }
        obtain ⟨u, v, completes⟩ := run_along begun clean n read
        exact ⟨u, v, completes_step begun clean found foundInside completes⟩
      · simp [stops.alone, emit] at tokens

structure Part (text : List Char) (content : List Token) : Prop where
  allowed : text.all isAllowed = true
  starts : ∃ x rest, text = x :: rest ∧ x.isAlpha = true
  closed : Closed text
  read : run (text.length + 2) (fresh text) = content ++ [.streamEnd]
  whole : .fault ∉ content
  balanced : Token.depth content.reverse = 0

theorem run_same (m : Nat) (tokens : s.tokens = t.tokens) (step : s.step? = t.step?) : run m s = run m t := by
  cases m with
  | zero => rw [run, run, tokens]
  | succ m => rw [run, run, tokens, step]

theorem start_along {text : List Char} (closed : Closed text) (filled : text ≠ []) (fits : text.length + 2 ≤ e.bound)
    (key : SimpleKey) (free : key.possible = false)
    (here : t = { cursor := ⟨text ++ e.after, e.index, e.line, 0⟩, bound := e.bound, tokens := e.tokens
                  count := e.tokens.length, keys := [key] }) : Along e false (fresh text) t := by
  subst here
  exact {
    cursor := by simp only [fresh, Cursor.inside, Nat.zero_add]
    tokens := rfl
    count := by simp only [fresh, Nat.zero_add]
    indent := rfl
    indents := rfl
    keys := .cons ⟨free, fun possible => by cases possible⟩ .nil
    keyAllowed := rfl
    flow := rfl
    bound := rfl
    fits := fits
    whole := ⟨closed, fun empty => absurd empty filled⟩
    room := Nat.lt_add_of_pos_right Nat.two_pos
    counted := rfl
    levels := rfl
    blocks := rfl
    depth := rfl
    passed := by simp [fresh]
    begun := fun on => by cases on }

theorem fresh_alone {text : List Char} (closed : Closed text) (filled : text ≠ []) :
    Along ⟨⟨0, 0, [], .inl rfl⟩, [], text.length + 2⟩ false (fresh text) (fresh text) :=
  start_along closed filled (Nat.le_refl _) {} rfl (by simp [fresh])

structure Ended (tokens content : List Token) (last : Token) : Prop where
  tokens : tokens = content ++ [last]
  passed : ∀ token ∈ content, token.Passed
  kind : last = .fault ∨ last = .streamEnd
  begins : (∃ first rest, content = first :: rest ∧ first.Begins) ∨ content = [] ∧ last = .fault

theorem ended_along (along : Along e true s t) {last : Token} (kind : last = .fault ∨ last = .streamEnd) :
    Ended (last :: s.tokens).reverse s.tokens.reverse last := by
  obtain ⟨front, first, begun, begins⟩ := along.begun rfl
  refine ⟨List.reverse_cons, fun token member => along.passed token (List.mem_reverse.mp member), kind, .inl ?_⟩
  exact ⟨first, front.reverse, by rw [begun, List.reverse_append, List.reverse_cons]; rfl, begins⟩

theorem run_ends (along : Along e true s t) (n : Nat) : ∃ content last, Ended (run n s) content last := by
  induction n generalizing s t with
  | zero => exact ⟨_, _, ended_along along (.inl rfl)⟩
  | succ n ih =>
    cases found : s.step? with
    | none =>
      simp only [run, found]
      exact ⟨_, _, ended_along along (.inl rfl)⟩
    | some s' =>
      rcases step_along along found with ⟨t', -, next⟩ | ⟨u, v, stops⟩
      · rw [run_goes n s found (fun member => next.passed _ member)]
        exact ih next
      · rw [run_ended n s u.tokens found (by rw [stops.alone, emit])]
        exact ⟨_, _, ended_along stops.along (.inr rfl)⟩

theorem fresh_ends {text : List Char} (closed : Closed text) (starts : ∃ x rest, text = x :: rest ∧ x.isAlpha = true)
    (n : Nat) : ∃ content last, Ended (run (n + 1) (fresh text)) content last := by
  obtain ⟨x, chars, rfl, letter⟩ := starts
  cases found : (fresh (x :: chars)).step? with
  | none =>
    simp only [run, found]
    exact ⟨[], .fault, rfl, by simp, .inl rfl, .inr ⟨rfl, rfl⟩⟩
  | some s' =>
    obtain ⟨text, tokens⟩ := first_token x chars letter found
    rcases step_along (fresh_alone closed (List.cons_ne_nil x chars)) found with ⟨t', -, next⟩ | ⟨u, v, stops⟩
    · rw [run_goes n _ found (fun member => next.passed _ member)]
      have begun : Along _ true s' t' := { next with begun := fun _ => ⟨[], _, tokens, trivial⟩ }
      exact run_ends begun n
    · simp [stops.alone, emit] at tokens

-- The line of a mark is read over, and the scanner is as it was at first, but for where it stands.
theorem next_document {u v : Scanner} {text after : List Char} (along : Along e started u v) (done : u.cursor.rest = [])
    (left : u.Left) (flat : u.flow = 0) (closed : Closed text) (filled : text ≠ [])
    (next : e.after = '-' :: '-' :: '-' :: '\n' :: (text ++ after)) (bounded : e.after.length ≤ e.bound)
    (marked : after = [] ∨ ∃ more, after = '-' :: '-' :: '-' :: '\n' :: more) :
    ∃ t, Along ⟨⟨v.cursor.index + 4, v.cursor.line + 1, after, marked⟩, .documentStart :: v.tokens, e.bound⟩ false
        (fresh text) t ∧ ∀ m, run m ((v.moved 3).emit .documentStart) = run m t := by
  have cursor : v.cursor = ⟨'-' :: '-' :: '-' :: '\n' :: (text ++ after), v.cursor.index, v.cursor.line, 0⟩ := by
    rw [along.cursor, Cursor.inside, done, along.whole.ended done, next]
    rfl
  have count : v.count = v.tokens.length := by
    rw [along.count, along.counted, along.tokens, List.length_append]
  have room : (text ++ after).length + 4 ≤ e.bound := by
    rw [next] at bounded
    exact bounded
  have fits := List.length_append ▸ room
  obtain ⟨indent, indents⟩ := left.closed flat
  obtain ⟨key, rest, keys, free⟩ := left.key
  obtain ⟨other, kept, free⟩ : ∃ l, v.keys = [l] ∧ l.possible = false := by
    have levels := along.levels
    have same := along.keys
    rw [flat, keys, List.length_cons, Nat.add_right_cancel_iff] at levels
    rw [keys, List.length_eq_zero_iff.mp levels] at same
    obtain ⟨l, others, also, last, here⟩ := List.forall₂_cons_left_iff.mp same
    rw [List.forall₂_nil_left_iff.mp last] at here
    exact ⟨l, here, also.possible.trans free⟩
  let t : Scanner := { (v.moved 3).emit .documentStart with
    cursor := ⟨text ++ after, v.cursor.index + 4, v.cursor.line + 1, 0⟩, keyAllowed := true }
  refine ⟨t, start_along closed filled (by simp only; omega) other free ?_, fun m => run_same m rfl ?_⟩
  · simp only [t, emit, moved, along.indent.trans indent, along.indents.trans indents, kept, along.flow.trans flat,
      along.bound, count, List.length_cons]
  · have line : ((v.moved 3).emit .documentStart).cursor =
        ⟨'\n' :: (text ++ after), v.cursor.index + 3, v.cursor.line, 3⟩ := by
      rw [emit, moved, cursor]
      rfl
    have outside : ((v.moved 3).emit .documentStart).inFlow = false := by
      change decide (0 < v.flow) = false
      rw [along.flow, flat]
      rfl
    have broken : ((v.moved 3).emit .documentStart).cursor.at? isBreak = true := by
      rw [line]
      rfl
    have moves : ((v.moved 3).emit .documentStart).toNext (e.bound - 1 + 1) = t.toNext (e.bound - 1) := by
      rw [to_next_past, past_kept _ (congrArg Cursor.rest line) (by decide), if_pos broken, outside, line]
      simp only [Bool.not_false, Bool.or_true]
      rfl
    have bound : ((v.moved 3).emit .documentStart).bound = e.bound - 1 + 1 := by
      change v.bound = _
      rw [along.bound]
      omega
    rw [step_from_next, step_from_next, bound, moves]
    refine congrArg fromNext? (to_next_enough _ _ t ?_ ?_)
    · change (text ++ after).length < _
      omega
    · change (text ++ after).length < _
      omega

def marked (texts : List (List Char)) : List Char := texts.flatMap fun text => '-' :: '-' :: '-' :: '\n' :: text

theorem marked_cases (texts : List (List Char)) :
    marked texts = [] ∨ ∃ more, marked texts = '-' :: '-' :: '-' :: '\n' :: more := by
  cases texts with
  | nil => exact .inl rfl
  | cons text rest => exact .inr ⟨text ++ marked rest, rfl⟩

def steps : List (List Char) → Nat
  | [] => 0
  | text :: rest => text.length + 2 + steps rest

theorem part_completes {text : List Char} {content : List Token} (part : Part text content)
    (along : Along e false (fresh text) t) (clean : .streamEnd ∉ e.tokens) :
    ∃ u v, Completes e true (text.length + 2) (fresh text) t u v ∧ u.tokens = content.reverse ∧ u.flow = 0 := by
  obtain ⟨x, rest, rfl, letter⟩ := part.starts
  have read : .fault ∉ run ((x :: rest).length + 2) (fresh (x :: rest)) := by
    rw [part.read]
    simpa using part.whole
  obtain ⟨u, v, completes⟩ := fresh_along x rest letter along clean _ read
  have tokens : u.tokens = content.reverse := by
    have same := completes.alone.symm.trans part.read
    rw [List.reverse_cons, List.append_cancel_right_eq] at same
    rw [← same, List.reverse_reverse]
  exact ⟨u, v, completes, tokens, by rw [completes.along.depth, tokens, part.balanced]⟩

-- Every text is read from where the one before it ends; the induction is on the texts that are left.
theorem run_texts {first : List Char} {later : List (List Char)} {content : List Token} {contents : List (List Token)}
    (part : Part first content) (parts : List.Forall₂ Part later contents) (after : e.after = marked later)
    (bounded : e.after.length ≤ e.bound) (clean : .streamEnd ∉ e.tokens) (along : Along e false (fresh first) t)
    (m : Nat) (enough : steps (first :: later) ≤ m) :
    run m t = e.tokens.reverse ++ content ++ contents.flatMap (.documentStart :: ·) ++ [.streamEnd] := by
  induction parts generalizing e t first content m with
  | nil =>
    obtain ⟨u, v, completes, tokens, -⟩ := part_completes part along clean
    obtain ⟨k, -, short, stream⟩ := completes.stream
    have split : m = m - k + k := by
      simp only [steps] at enough
      omega
    rw [split, stream, if_pos (show e.after = [] from after), List.reverse_cons, completes.along.tokens, tokens]
    simp
  | @cons text other texts others head parts ih =>
    obtain ⟨u, v, completes, tokens, flat⟩ := part_completes part along clean
    obtain ⟨k, -, short, stream⟩ := completes.stream
    have uv := completes.along
    have split : m = m - k + k := by
      simp only [steps] at enough
      omega
    have filled : text ≠ [] := by
      obtain ⟨x, rest, rfl, -⟩ := head.starts
      exact List.cons_ne_nil x rest
    have next : e.after = '-' :: '-' :: '-' :: '\n' :: (text ++ marked texts) := by
      rw [after]
      rfl
    obtain ⟨t', fresh, goes⟩ :=
      next_document uv completes.done completes.left flat head.closed filled next bounded (marked_cases texts)
    have still : .streamEnd ∉ Token.documentStart :: v.tokens := by
      rw [uv.tokens]
      simp only [List.mem_cons, List.mem_append, not_or]
      exact ⟨by decide, fun member => uv.passed _ member, clean⟩
    have read := ih head rfl (by rw [next] at bounded; simp at bounded ⊢; omega) still fresh (m - k) (by
      simp only [steps] at enough ⊢
      omega)
    rw [split, stream, if_neg (by rw [next]; exact List.cons_ne_nil _ _), goes, read, uv.tokens, tokens]
    simp

theorem marked_allowed {texts : List (List Char)} {contents : List (List Token)}
    (parts : List.Forall₂ Part texts contents) :
    (marked texts).all isAllowed = true := by
  induction parts with
  | nil => rfl
  | cons head _ ih =>
    simp only [marked, List.flatMap_cons, List.all_append, List.all_cons, Bool.and_eq_true] at ih ⊢
    exact ⟨⟨rfl, rfl, rfl, rfl, head.allowed⟩, ih⟩

theorem steps_bounded (first : List Char) (later : List (List Char)) :
    steps (first :: later) ≤ (first ++ marked later).length + 2 := by
  induction later generalizing first with
  | nil => simp [steps, marked]
  | cons text rest ih =>
    have shorter := ih text
    simp only [steps, marked, List.flatMap_cons, List.length_append, List.length_cons]
      at shorter ⊢
    omega

end Scanner

open Scanner

theorem Token.of_text_run (s : String) :
    Token.ofText s = if s.toList.all isAllowed then run (s.toList.length + 2) (fresh s.toList) else [.fault] := rfl

theorem Token.of_text_ends (s : String) (closed : Closed s.toList)
    (starts : ∃ x rest, s.toList = x :: rest ∧ x.isAlpha = true) :
    ∃ content last, Ended (Token.ofText s) content last := by
  rw [Token.of_text_run]
  split
  next => exact fresh_ends closed starts _
  next => exact ⟨[], .fault, rfl, by simp, .inl rfl, .inr ⟨rfl, rfl⟩⟩

theorem Token.of_text_part (s : String) (content : List Token) (read : Token.ofText s = content ++ [.streamEnd])
    (whole : .fault ∉ content) (balanced : Token.depth content.reverse = 0) (closed : Closed s.toList)
    (starts : ∃ x rest, s.toList = x :: rest ∧ x.isAlpha = true) : Part s.toList content := by
  rw [Token.of_text_run] at read
  by_cases allowed : s.toList.all isAllowed = true
  · rw [if_pos allowed] at read
    exact ⟨allowed, starts, closed, read, whole, balanced⟩
  · rw [if_neg allowed] at read
    have last := congrArg List.getLast? read
    simp at last

theorem Token.of_text_stream (s : String) {first : List Char} {later : List (List Char)} {content : List Token}
    {contents : List (List Token)} (chars : s.toList = first ++ marked later) (part : Part first content)
    (parts : List.Forall₂ Part later contents) :
    Token.ofText s = content ++ contents.flatMap (.documentStart :: ·) ++ [.streamEnd] := by
  have allowed : (first ++ marked later).all isAllowed = true := by
    rw [List.all_append, part.allowed, marked_allowed parts]
    rfl
  have filled : first ≠ [] := by
    obtain ⟨x, rest, rfl, -⟩ := part.starts
    exact List.cons_ne_nil x rest
  have along : Along ⟨⟨0, 0, marked later, marked_cases later⟩, [], (first ++ marked later).length + 2⟩ false
      (fresh first) { cursor := { rest := first ++ marked later }, bound := (first ++ marked later).length + 2 } :=
    start_along part.closed filled (by simp) {} rfl rfl
  rw [Token.ofText, chars, if_pos allowed]
  exact run_texts part parts rfl (by simp; omega) (by simp) along _ (steps_bounded first later)

end ManifestSecrets.Yaml
