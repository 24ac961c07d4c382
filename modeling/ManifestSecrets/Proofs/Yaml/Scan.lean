import ManifestSecrets.Yaml.Token.Scan
import ManifestSecrets.Proofs.Yaml.Scalar
import Mathlib.Data.List.Forall2

/-!
Tokens are the same in a stream as in the text by itself. The two scanners go along together: the one of the stream is
shifted by what stands before the text, and may keep simple keys from there that are no longer possible.
-/

set_option autoImplicit false

namespace ManifestSecrets.Yaml

namespace Token

def depthAfter : Token → Nat → Nat
  | .flowSequenceStart, depth => depth + 1
  | .flowMappingStart, depth => depth + 1
  | .flowSequenceEnd, depth => depth - 1
  | .flowMappingEnd, depth => depth - 1
  | _, depth => depth

def Passed : Token → Prop
  | .streamEnd => False
  | .fault => False
  | _ => True

def Begins : Token → Prop
  | .version _ _ => False
  | .tagDirective _ _ => False
  | .documentStart => False
  | .documentEnd => False
  | .streamEnd => False
  | .fault => False
  | _ => True

def depth (tokens : List Token) : Nat := tokens.foldr depthAfter 0

def Begun (tokens : List Token) : Prop := ∃ front first, tokens = front ++ [first] ∧ first.Begins

theorem depth_insert (tokens : List Token) (count : Nat) (token : Token) (even : ∀ d, token.depthAfter d = d) :
    depth (tokens.take count ++ token :: tokens.drop count) = depth tokens := by
  conv_rhs => rw [← List.take_append_drop count tokens]
  simp only [depth, List.foldr_append, List.foldr_cons, even]

theorem begun_cons {tokens : List Token} (begun : Begun tokens) (token : Token) : Begun (token :: tokens) := by
  obtain ⟨front, first, rfl, begins⟩ := begun
  exact ⟨token :: front, first, rfl, begins⟩

theorem begun_insert {tokens : List Token} (begun : Begun tokens) (count : Nat) (token : Token) (begins : token.Begins) :
    Begun (tokens.take count ++ token :: tokens.drop count) := by
  by_cases last : tokens.drop count = []
  · exact ⟨tokens.take count, token, by rw [last], begins⟩
  · obtain ⟨front, first, same, firstBegins⟩ := begun
    have kept : (tokens.drop count).getLast last = first := by
      rw [List.getLast_drop]
      simp [same]
    refine ⟨tokens.take count ++ token :: (tokens.drop count).dropLast, first, ?_, firstBegins⟩
    rw [List.append_assoc, List.cons_append, ← kept, List.dropLast_append_getLast]

end Token

def Nested : List Int → Prop
  | [] => False
  | [outer] => outer = -1
  | inner :: outer :: rest => outer < inner ∧ Nested (outer :: rest)

def Cursor.past (tabs : Bool) (c : Cursor) : Cursor :=
  ((if c.column == 0 && c.stands '\uFEFF' then c.skip else c).skipWhile
    fun d => d == ' ' || (tabs && d == '\t')).skipComment

theorem Cursor.past_inside {a : Around} {c : Cursor} (tabs : Bool) (whole : c.Whole) :
    (c.inside a).past tabs = (c.past tabs).inside a ∧ Reaches c (c.past tabs) := by
  have blanks : OnLine fun d => d == ' ' || (tabs && d == '\t') := by
    cases tabs
    · exact on_line_of _ (by decide)
    · exact on_line_of _ (by decide)
  by_cases ended : c.rest = []
  · have stays : ∀ d : Cursor, (d.rest = [] ∨ ∃ more, d.rest = '-' :: more) → d.past tabs = d := by
      rintro ⟨rest, index, line, column⟩ (ended | ⟨more, mark⟩)
      · obtain rfl : rest = [] := ended
        simp [past, skipComment, skipWhile, take, drop, Cursor.stands, head?]
      · obtain rfl : rest = '-' :: more := mark
        simp [past, skipComment, skipWhile, take, drop, Cursor.stands, head?]
    rw [stays c (.inl ended), stays _ (ended_next ended)]
    exact ⟨rfl, .refl whole⟩
  · have going := whole.ongoing ended
    have mark : (if (c.inside a).column == 0 && (c.inside a).stands '\uFEFF' then (c.inside a).skip else c.inside a) =
          (if c.column == 0 && c.stands '\uFEFF' then c.skip else c).inside a ∧
        Leads c (if c.column == 0 && c.stands '\uFEFF' then c.skip else c) := by
      rw [inside_column, going.stands, going.skip_inside]
      split
      next here => exact ⟨rfl, skip_leads going (stands_inner (Bool.and_eq_true_iff.mp here).2 rfl)⟩
      next => exact ⟨rfl, .refl going⟩
    obtain ⟨same, first⟩ := mark
    obtain ⟨sameBlanks, second⟩ := skip_while_inside (a := a) _ blanks first.going
    obtain ⟨sameComment, third⟩ := skip_comment_inside (a := a) second.going
    refine ⟨?_, ((first.trans second).trans third).reaches⟩
    rw [past, same, sameBlanks, sameComment, past]

theorem Cursor.past_shorter (tabs : Bool) (c : Cursor) : (c.past tabs).rest.length ≤ c.rest.length := by
  have comment : ∀ d : Cursor, d.skipComment.rest.length ≤ d.rest.length := by
    intro d
    unfold skipComment
    split
    · exact drop_shorter _
    · exact Nat.le_refl _
  refine Nat.le_trans (comment _) (Nat.le_trans (drop_shorter _) ?_)
  split
  · exact drop_shorter 1
  · exact Nat.le_refl _

-- How a text stands in a stream: also which tokens come before it, in reverse, and the bound on the steps there.
structure Embedding extends Around where
  tokens : List Token
  bound : Nat

structure SimpleKey.Along (e : Embedding) (k l : SimpleKey) : Prop where
  possible : l.possible = k.possible
  same : k.possible = true →
    l = { k with number := k.number + e.tokens.length, index := k.index + e.index, line := k.line + e.line }

namespace Scanner

-- The state `s` in the text and the state `t` in the stream. Once `started`, the first token of the text is one that
-- a document may begin with.
structure Along (e : Embedding) (started : Bool) (s t : Scanner) : Prop where
  cursor : t.cursor = s.cursor.inside e.toAround
  tokens : t.tokens = s.tokens ++ e.tokens
  count : t.count = s.count + e.tokens.length
  indent : t.indent = s.indent
  indents : t.indents = s.indents
  keys : List.Forall₂ (SimpleKey.Along e) s.keys t.keys
  keyAllowed : t.keyAllowed = s.keyAllowed
  flow : t.flow = s.flow
  bound : t.bound = e.bound
  fits : s.bound ≤ e.bound
  whole : s.cursor.Whole
  room : s.cursor.rest.length < s.bound
  counted : s.count = s.tokens.length
  levels : s.keys.length = s.flow + 1
  blocks : Nested (s.indent :: s.indents)
  depth : s.flow = Token.depth s.tokens
  passed : ∀ token ∈ s.tokens, token.Passed
  begun : started = true → Token.Begun s.tokens

variable {e : Embedding} {started : Bool} {s t : Scanner}

theorem to_next_past (steps : Nat) (s : Scanner) :
    toNext (steps + 1) s =
      if (s.cursor.past (s.inFlow || !s.keyAllowed)).at? isBreak then
        toNext steps { s with
          cursor := (s.cursor.past (s.inFlow || !s.keyAllowed)).skipBreak, keyAllowed := s.keyAllowed || !s.inFlow }
      else { s with cursor := s.cursor.past (s.inFlow || !s.keyAllowed) } := rfl

theorem open_cursor (s : Scanner) (column : Int) (token : Token) (n : Option Nat) :
    (s.openBlock column token n).cursor = s.cursor := by
  unfold openBlock
  split
  · cases n <;> rfl
  · rfl

theorem close_cursor (column : Int) (s : Scanner) : (s.closeBlocks column).cursor = s.cursor := by
  have go : ∀ (indents : List Int) (s : Scanner), (closeBlocks.go column indents s).cursor = s.cursor := by
    intro indents
    induction indents with
    | nil => exact fun s => rfl
    | cons outer rest ih =>
      intro s
      simp only [closeBlocks.go]
      split
      · exact ih _
      · rfl
  unfold closeBlocks
  split
  · rfl
  · exact go _ s

namespace Along

theorem inFlow (along : Along e started s t) : t.inFlow = s.inFlow := by
  rw [Scanner.inFlow, along.flow, Scanner.inFlow]

theorem wide (along : Along e started s t) : s.bound ≤ t.bound := along.bound ▸ along.fits

theorem moveTo (along : Along e started s t) (c : Cursor) (reaches : s.cursor.Reaches c) :
    Along e started { s with cursor := c } { t with cursor := c.inside e.toAround } :=
  { along with
    cursor := rfl
    whole := reaches.whole
    room := Nat.lt_of_le_of_lt reaches.shorter along.room }

theorem allow (along : Along e started s t) (allowed : Bool) :
    Along e started { s with keyAllowed := allowed } { t with keyAllowed := allowed } :=
  { along with keyAllowed := rfl }

theorem emitAt (along : Along e started s t) (token : Token) (keys keys' : List SimpleKey) (flow flow' : Nat)
    (same : List.Forall₂ (SimpleKey.Along e) keys keys') (levels : keys.length = flow + 1)
    (depth : flow = token.depthAfter s.flow) (depth' : flow' = flow) (passed : token.Passed) :
    Along e started ({ s with keys, flow }.emit token) ({ t with keys := keys', flow := flow' }.emit token) :=
  { along with
    tokens := congrArg (token :: ·) along.tokens
    count := by simp only [Scanner.emit, along.count, Nat.add_right_comm]
    keys := same
    flow := depth'
    counted := congrArg (· + 1) along.counted
    levels := levels
    depth := depth.trans (congrArg token.depthAfter along.depth)
    passed := List.forall_mem_cons.mpr ⟨passed, along.passed⟩
    begun := fun on => Token.begun_cons (along.begun on) token }

theorem emit (along : Along e started s t) (token : Token) (even : ∀ d, token.depthAfter d = d)
    (passed : token.Passed) : Along e started (s.emit token) (t.emit token) :=
  along.emitAt token s.keys t.keys s.flow t.flow along.keys along.levels (even _).symm along.flow passed

theorem insertAt (along : Along e started s t) (n : Nat) (token : Token)
    (even : ∀ d, token.depthAfter d = d) (passed : token.Passed) (begins : token.Begins) :
    Along e started (s.insertAt n token) (t.insertAt (n + e.tokens.length) token) := by
  have later : t.count - (n + e.tokens.length) = s.count - n := by
    rw [along.count]
    omega
  have short : s.count - n ≤ s.tokens.length := by
    rw [along.counted]
    exact Nat.sub_le _ _
  exact { along with
    tokens := by
      simp only [Scanner.insertAt, later, along.tokens, List.take_append_of_le_length short,
        List.drop_append_of_le_length short, List.append_assoc, List.cons_append]
    count := by simp only [Scanner.insertAt, along.count, Nat.add_right_comm]
    counted := by
      simp only [Scanner.insertAt, List.length_append, List.length_cons, List.length_take, List.length_drop, along.counted]
      omega
    depth := along.depth.trans (Token.depth_insert s.tokens _ token even).symm
    passed := by
      intro other member
      rcases List.mem_append.mp member with front | back
      · exact along.passed other (List.mem_of_mem_take front)
      · rcases List.mem_cons.mp back with rfl | back
        · exact passed
        · exact along.passed other (List.mem_of_mem_drop back)
    begun := fun on => Token.begun_insert (along.begun on) _ token begins }

theorem setKey (along : Along e started s t) (k l : SimpleKey) (key : k.Along e l) :
    Along e started (s.setKey k) (t.setKey l) :=
  { along with
    keys := .cons key (List.forall₂_drop 1 along.keys)
    levels := by
      have levels := along.levels
      simp only [Scanner.setKey, List.length_cons, List.length_drop]
      omega }

theorem openBlock (along : Along e started s t) (column : Int) (token : Token) (n n' : Option Nat)
    (same : n' = n.map (· + e.tokens.length)) (even : ∀ d, token.depthAfter d = d) (passed : token.Passed)
    (begins : token.Begins) :
    Along e started (s.openBlock column token n) (t.openBlock column token n') := by
  subst same
  by_cases deeper : (!s.inFlow && decide (s.indent < column)) = true
  · have deeper' : (!t.inFlow && decide (t.indent < column)) = true := by
      rw [along.inFlow, along.indent]
      exact deeper
    have inner : s.indent < column := by
      simpa using (Bool.and_eq_true_iff.mp deeper).2
    have opened : Along e started { s with indents := s.indent :: s.indents, indent := column }
        { t with indents := t.indent :: t.indents, indent := column } :=
      { along with
        indent := rfl
        indents := by simp only [along.indent, along.indents]
        blocks := ⟨inner, along.blocks⟩ }
    simp only [Scanner.openBlock, if_pos deeper, if_pos deeper']
    cases n with
    | none => exact opened.emit token even passed
    | some n => exact opened.insertAt n token even passed begins
  · have deeper' : ¬ (!t.inFlow && decide (t.indent < column)) = true := by
      rw [along.inFlow, along.indent]
      exact deeper
    simp only [Scanner.openBlock, if_neg deeper, if_neg deeper']
    exact along

theorem close_go (along : Along e started s t) (column : Int) :
    Along e started (closeBlocks.go column s.indents s) (closeBlocks.go column t.indents t) := by
  rw [along.indents]
  generalize opened : s.indents = indents
  induction indents generalizing s t with
  | nil => exact along
  | cons outer rest ih =>
    simp only [closeBlocks.go, along.indent]
    by_cases deeper : column < s.indent
    · rw [if_pos deeper, if_pos deeper]
      have emitted := along.emit .blockEnd (fun _ => rfl) trivial
      have blocks := along.blocks
      rw [opened] at blocks
      exact ih (s := { s.emit .blockEnd with indent := outer, indents := rest })
        (t := { t.emit .blockEnd with indent := outer, indents := rest })
        { emitted with indent := rfl, indents := rfl, blocks := blocks.2 } rfl
    · rw [if_neg deeper, if_neg deeper]
      exact along

theorem closeBlocks (along : Along e started s t) (column : Int) :
    Along e started (s.closeBlocks column) (t.closeBlocks column) := by
  simp only [Scanner.closeBlocks, along.inFlow]
  split
  · exact along
  · exact along.close_go column

theorem removeKey (along : Along e started s t) {s' : Scanner} (found : s.removeKey? = some s') :
    ∃ t', t.removeKey? = some t' ∧ Along e started s' t' ∧ s'.cursor = s.cursor := by
  have levels := along.levels
  have keys := along.keys
  cases mine : s.keys with
  | nil => simp [mine] at levels
  | cons k rest =>
    rw [mine] at keys levels
    obtain ⟨l, others, key, later, theirs⟩ := List.forall₂_cons_left_iff.mp keys
    have required : (l.possible && l.required) = (k.possible && k.required) := by
      rw [key.possible]
      cases possible : k.possible with
      | false => rfl
      | true => rw [key.same possible]
    simp only [removeKey?, mine] at found
    simp only [removeKey?, theirs, required]
    split at found
    next => cases found
    next free =>
      rw [if_neg free]
      obtain rfl := Option.some.inj found
      have given : SimpleKey.Along e { k with possible := false } { l with possible := false } :=
        ⟨rfl, fun possible => by cases possible⟩
      exact ⟨_, rfl, { along with keys := .cons given later, levels := levels }, rfl⟩

theorem saveKey (along : Along e started s t) {s' : Scanner} (found : s.saveKey? = some s') :
    ∃ t', t.saveKey? = some t' ∧ Along e started s' t' ∧ s'.cursor = s.cursor := by
  simp only [saveKey?, along.keyAllowed] at found ⊢
  split at found
  next allowed =>
    rw [if_pos allowed]
    obtain ⟨u, removed, same⟩ := Option.bind_eq_some_iff.mp found
    obtain ⟨v, removedInside, uv, cursor⟩ := along.removeKey removed
    obtain rfl := Option.some.inj same
    rw [removedInside]
    refine ⟨_, rfl, uv.setKey _ _ ⟨rfl, fun _ => ?_⟩, cursor⟩
    simp only [uv.inFlow, uv.indent, uv.cursor, uv.count, Cursor.inside]
  next kept =>
    rw [if_neg kept]
    obtain rfl := Option.some.inj found
    exact ⟨t, rfl, along, rfl⟩

theorem stale (c : Cursor) (k l : SimpleKey) (key : k.Along e l) :
    isStale (c.inside e.toAround) l = isStale c k ∧
      (isStale (c.inside e.toAround) l && l.required) = (isStale c k && k.required) := by
  cases possible : k.possible with
  | false =>
    have unlikely : l.possible = false := key.possible.trans possible
    simp [isStale, possible, unlikely]
  | true =>
    rw [key.same possible]
    have line : k.line + e.line < c.line + e.line ↔ k.line < c.line := Nat.add_lt_add_iff_right
    have index : k.index + e.index + 1024 < c.index + e.index ↔ k.index + 1024 < c.index := by omega
    simp only [isStale, Cursor.inside, line, index]
    exact ⟨trivial, trivial⟩

theorem dropStale (along : Along e started s t) {s' : Scanner} (found : s.dropStale? = some s') :
    ∃ t', t.dropStale? = some t' ∧ Along e started s' t' ∧ s'.cursor = s.cursor := by
  have checked : (t.keys.any fun key => isStale (s.cursor.inside e.toAround) key && key.required) =
      s.keys.any fun key => isStale s.cursor key && key.required := by
    have keys := along.keys
    generalize s.keys = mine at keys
    generalize t.keys = theirs at keys
    induction keys with
    | nil => rfl
    | cons key _ ih => simp only [List.any_cons, ih, (stale s.cursor _ _ key).2]
  simp only [dropStale?, along.cursor, checked] at found ⊢
  split at found
  next => cases found
  next fresh =>
    rw [if_neg fresh]
    obtain rfl := Option.some.inj found
    refine ⟨_, rfl, { along with cursor := rfl, keys := ?_, levels := by rw [List.length_map]; exact along.levels }, rfl⟩
    rw [List.forall₂_map_left_iff, List.forall₂_map_right_iff]
    refine along.keys.imp ?_
    intro k l key
    rw [(stale s.cursor k l key).1]
    split
    · exact ⟨rfl, fun possible => by cases possible⟩
    · exact key

theorem toNext (along : Along e started s t) (n m : Nat) (wide : n ≤ m) (room : s.cursor.rest.length < n) :
    Along e started (Scanner.toNext n s) (Scanner.toNext m t) ∧
      (Scanner.toNext n s).cursor.at? isBreak = false := by
  induction n generalizing s t m with
  | zero => exact absurd room (Nat.not_lt_zero _)
  | succ n ih =>
    obtain ⟨m, rfl⟩ := Nat.exists_eq_add_one_of_ne_zero (show m ≠ 0 by omega)
    obtain ⟨same, first⟩ := Cursor.past_inside (a := e.toAround) (s.inFlow || !s.keyAllowed) along.whole
    have short := first.shorter
    rw [to_next_past, to_next_past, along.inFlow, along.keyAllowed, along.cursor, same, first.whole.at isBreak rfl]
    by_cases broken : (s.cursor.past (s.inFlow || !s.keyAllowed)).at? isBreak = true
    · obtain ⟨x, rest, here, -⟩ := Cursor.at_break broken
      have going := first.whole.ongoing (by rw [here]; exact List.cons_ne_nil x rest)
      have second := Cursor.skip_break_reaches first.whole broken
      have fewer := Cursor.skip_break_shorter broken
      rw [if_pos broken, if_pos broken, going.skip_break_inside]
      exact ih ((along.moveTo _ (first.trans second)).allow _) m (by omega)
        (show (s.cursor.past (s.inFlow || !s.keyAllowed)).skipBreak.rest.length < n by omega)
    · rw [if_neg broken, if_neg broken]
      exact ⟨{ along.moveTo _ first with keyAllowed := rfl }, Bool.eq_false_iff.mpr broken⟩

theorem moved (along : Along e started s t) (count : Nat) (left : s.cursor.rest ≠ [])
    (inner : ∀ x ∈ s.cursor.rest.take count, isBreak x = false) :
    Along e started (s.moved count) (t.moved count) := by
  obtain ⟨further, dropped⟩ := (along.whole.ongoing left).drop (a := e.toAround) count inner
  have moved := along.moveTo _ (Cursor.Leads.reaches ⟨further, Cursor.drop_shorter count⟩)
  rw [← dropped, ← along.cursor] at moved
  exact moved

theorem movedOne (along : Along e started s t) (left : s.cursor.rest ≠ [])
    (inner : s.cursor.at? isBreak = false) : Along e started (s.moved 1) (t.moved 1) := by
  refine along.moved 1 left ?_
  cases here : s.cursor.rest with
  | nil => exact absurd here left
  | cons x rest =>
    rw [Cursor.at_of_rest here] at inner
    simpa using inner

theorem leaveBlocks (along : Along e started s t) {s' : Scanner} (found : s.leaveBlocks? = some s') :
    ∃ t', t.leaveBlocks? = some t' ∧ Along e started s' t' ∧ s'.cursor = s.cursor := by
  obtain ⟨u, removed, same⟩ := Option.bind_eq_some_iff.mp found
  obtain ⟨v, removedInside, uv, cursor⟩ := (along.closeBlocks (-1)).removeKey removed
  obtain rfl := Option.some.inj same
  exact ⟨_, by rw [leaveBlocks?, removedInside]; rfl, uv.allow false, cursor.trans (close_cursor _ s)⟩

-- Where the text by itself goes on, the stream goes on along with it.
def Follows (e : Embedding) (started : Bool) (alone stream : Option Scanner) : Prop :=
  ∀ s', alone = some s' → ∃ t', stream = some t' ∧ Along e started s' t'

section Tokens

variable (left : s.cursor.rest ≠ []) (inner : s.cursor.at? isBreak = false)

include left inner

theorem flowStart (along : Along e started s t) (token : Token) (opens : ∀ d, token.depthAfter d = d + 1)
    (passed : token.Passed) :
    Follows e started (s.flowStart? token) (t.flowStart? token) := by
  intro s' found
  obtain ⟨u, saved, same⟩ := Option.bind_eq_some_iff.mp found
  obtain ⟨v, savedInside, uv, cursor⟩ := along.saveKey saved
  obtain rfl := Option.some.inj same
  have opened := uv.emitAt token ({} :: u.keys) ({} :: v.keys) (u.flow + 1) (v.flow + 1)
    (.cons ⟨rfl, fun possible => by cases possible⟩ uv.keys) (congrArg (· + 1) uv.levels) (opens _).symm
    (congrArg (· + 1) uv.flow) passed
  exact ⟨_, by rw [flowStart?, savedInside]; rfl, (opened.allow true).movedOne (cursor ▸ left) (cursor ▸ inner)⟩

theorem flowEnd (along : Along e started s t) (token : Token) (closes : ∀ d, token.depthAfter d = d - 1)
    (passed : token.Passed) :
    Follows e started (s.flowEnd? token) (t.flowEnd? token) := by
  intro s' found
  obtain ⟨u, removed, same⟩ := Option.bind_eq_some_iff.mp found
  obtain ⟨v, removedInside, uv, cursor⟩ := along.removeKey removed
  obtain rfl := Option.some.inj same
  refine ⟨_, by rw [flowEnd?, removedInside]; rfl, ?_⟩
  rw [uv.inFlow]
  by_cases inside : u.inFlow = true
  · have positive : 0 < u.flow := by simpa [Scanner.inFlow] using inside
    have levels : (u.keys.drop 1).length = u.flow - 1 + 1 := by
      rw [List.length_drop, uv.levels]
      omega
    have closed := uv.emitAt token (u.keys.drop 1) (v.keys.drop 1) (u.flow - 1) (v.flow - 1)
      (List.forall₂_drop 1 uv.keys) levels (closes _).symm (congrArg (· - 1) uv.flow) passed
    rw [if_pos inside, if_pos inside]
    exact (closed.allow false).movedOne (cursor ▸ left) (cursor ▸ inner)
  · have flat : u.flow = 0 := by simpa [Scanner.inFlow] using inside
    have closed := uv.emitAt token u.keys v.keys u.flow v.flow uv.keys uv.levels (by rw [closes, flat]) uv.flow passed
    rw [if_neg inside, if_neg inside]
    exact (closed.allow false).movedOne (cursor ▸ left) (cursor ▸ inner)

theorem flowEntry (along : Along e started s t) : Follows e started s.flowEntry? t.flowEntry? := by
  intro s' found
  obtain ⟨u, removed, same⟩ := Option.bind_eq_some_iff.mp found
  obtain ⟨v, removedInside, uv, cursor⟩ := along.removeKey removed
  obtain rfl := Option.some.inj same
  exact ⟨_, by rw [ flowEntry?, removedInside]; rfl,
    ((uv.allow true).movedOne (cursor ▸ left) (cursor ▸ inner)).emit _ (fun _ => rfl) trivial⟩

theorem blockEntry (along : Along e started s t) : Follows e started s.blockEntry? t.blockEntry? := by
  intro s' found
  simp only [ blockEntry?, along.inFlow, along.keyAllowed] at found ⊢
  split at found
  next => cases found
  next allowed =>
    rw [if_neg allowed]
    have opened := along.openBlock s.cursor.column .blockSequenceStart none none rfl (fun _ => rfl) trivial trivial
    obtain ⟨u, removed, same⟩ := Option.bind_eq_some_iff.mp found
    obtain ⟨v, removedInside, uv, cursor⟩ := opened.removeKey removed
    obtain rfl := Option.some.inj same
    have cursor := cursor.trans (open_cursor s _ _ _)
    rw [along.cursor, Cursor.inside_column, removedInside]
    exact ⟨_, rfl, ((uv.allow true).movedOne (cursor ▸ left) (cursor ▸ inner)).emit _ (fun _ => rfl) trivial⟩

theorem key (along : Along e started s t) : Follows e started s.key? t.key? := by
  intro s' found
  simp only [key?, along.inFlow, along.keyAllowed] at found ⊢
  split at found
  next => cases found
  next allowed =>
    rw [if_neg allowed]
    have opened := along.openBlock s.cursor.column .blockMappingStart none none rfl (fun _ => rfl) trivial trivial
    obtain ⟨u, removed, same⟩ := Option.bind_eq_some_iff.mp found
    obtain ⟨v, removedInside, uv, cursor⟩ := opened.removeKey removed
    obtain rfl := Option.some.inj same
    have cursor := cursor.trans (open_cursor s _ _ _)
    rw [along.cursor, Cursor.inside_column, removedInside, ← uv.inFlow]
    exact ⟨_, rfl, ((uv.allow (!v.inFlow)).movedOne (cursor ▸ left) (cursor ▸ inner)).emit _ (fun _ => rfl) trivial⟩

theorem value (along : Along e started s t) : Follows e started s.value? t.value? := by
  intro s' found
  have levels := along.levels
  have keys := along.keys
  cases mine : s.keys with
  | nil => simp [mine] at levels
  | cons k rest =>
    rw [mine] at keys
    obtain ⟨l, others, key, later, theirs⟩ := List.forall₂_cons_left_iff.mp keys
    simp only [value?, mine, theirs, List.headD_cons, key.possible, along.inFlow, along.keyAllowed] at found ⊢
    cases possible : k.possible with
    | true =>
      simp only [possible, if_true] at found ⊢
      obtain rfl := Option.some.inj found
      have shifted := key.same possible
      have inserted := along.insertAt k.number .key (fun _ => rfl) trivial trivial
      have opened := inserted.openBlock k.column .blockMappingStart (some k.number) (some (k.number + e.tokens.length)) rfl
        (fun _ => rfl) trivial trivial
      have given := (opened.setKey { k with possible := false } { l with possible := false }
        ⟨rfl, fun possible => by cases possible⟩).allow false
      have cursor : ((s.insertAt k.number .key).openBlock k.column .blockMappingStart (some k.number)).cursor = s.cursor :=
        open_cursor _ _ _ _
      have done := (given.movedOne (by exact cursor ▸ left) (by exact cursor ▸ inner)).emit .value (fun _ => rfl) trivial
      refine ⟨_, rfl, ?_⟩
      rw [shifted] at done ⊢
      exact done
    | false =>
      simp only [possible, Bool.false_eq_true, if_false] at found ⊢
      split at found
      next => cases found
      next free =>
        rw [if_neg free]
        obtain rfl := Option.some.inj found
        have opened := along.openBlock s.cursor.column .blockMappingStart none none rfl (fun _ => rfl) trivial trivial
        have still : (s.openBlock s.cursor.column .blockMappingStart none).cursor.rest ≠ [] := by
          rw [open_cursor]
          exact left
        have innerStill : (s.openBlock s.cursor.column .blockMappingStart none).cursor.at? isBreak = false := by
          rw [open_cursor]
          exact inner
        have allowed := opened.allow (!(s.openBlock s.cursor.column .blockMappingStart none).inFlow)
        rw [along.cursor, Cursor.inside_column, opened.inFlow]
        exact ⟨_, rfl, (allowed.movedOne still innerStill).emit .value (fun _ => rfl) trivial⟩

theorem named (along : Along e started s t) (token : String → Token)
    (even : ∀ name d, (token name).depthAfter d = d) (passed : ∀ name, (token name).Passed) :
    Follows e started (s.named? token) (t.named? token) := by
  intro s' found
  obtain ⟨u, saved, found⟩ := Option.bind_eq_some_iff.mp found
  obtain ⟨v, savedInside, uv, cursor⟩ := along.saveKey saved
  obtain ⟨⟨name, c⟩, read, same⟩ := Option.bind_eq_some_iff.mp found
  obtain rfl := Option.some.inj same
  obtain ⟨readInside, leads⟩ :=
    Mark.name_inside (a := e.toAround) (uv.whole.ongoing (cursor ▸ left)) (cursor ▸ inner) name read
  refine ⟨_, by rw [named?, savedInside, Option.bind_eq_bind, Option.bind_some, uv.cursor, readInside]; rfl, ?_⟩
  exact ((uv.moveTo c leads.reaches).allow false).emit _ (even name) (passed name)

theorem tag (along : Along e started s t) : Follows e started s.tag? t.tag? := by
  intro s' found
  obtain ⟨u, saved, found⟩ := Option.bind_eq_some_iff.mp found
  obtain ⟨v, savedInside, uv, cursor⟩ := along.saveKey saved
  obtain ⟨⟨token, c⟩, read, same⟩ := Option.bind_eq_some_iff.mp found
  obtain rfl := Option.some.inj same
  obtain ⟨readInside, leads, handle, suffix, rfl⟩ := Mark.tag_inside (a := e.toAround) u.bound v.bound uv.wide u.inFlow
    (uv.whole.ongoing (cursor ▸ left)) (cursor ▸ inner) uv.room token read
  refine ⟨_, by rw [tag?, savedInside, Option.bind_eq_bind, Option.bind_some, uv.cursor, uv.inFlow, readInside]; rfl, ?_⟩
  exact ((uv.moveTo c leads.reaches).allow false).emit _ (fun _ => rfl) trivial

theorem block (along : Along e started s t) (literal : Bool) :
    Follows e started (s.block? literal) (t.block? literal) := by
  intro s' found
  obtain ⟨u, removed, found⟩ := Option.bind_eq_some_iff.mp found
  obtain ⟨v, removedInside, uv, cursor⟩ := along.removeKey removed
  obtain ⟨⟨text, c⟩, read, same⟩ := Option.bind_eq_some_iff.mp found
  obtain rfl := Option.some.inj same
  obtain ⟨readInside, reaches⟩ := Scalar.block_inside (a := e.toAround) u.bound v.bound uv.wide literal u.indent
    (uv.whole.ongoing (cursor ▸ left)) (cursor ▸ inner) uv.room text read
  refine ⟨_, by
    rw [block?, removedInside, Option.bind_eq_bind, Option.bind_some, uv.cursor, uv.indent, readInside]
    rfl, ?_⟩
  exact ((uv.moveTo c reaches).allow true).emit _ (fun _ => rfl) trivial

theorem quoted (along : Along e started s t) (single : Bool) :
    Follows e started (s.quoted? single) (t.quoted? single) := by
  intro s' found
  obtain ⟨u, saved, found⟩ := Option.bind_eq_some_iff.mp found
  obtain ⟨v, savedInside, uv, cursor⟩ := along.saveKey saved
  obtain ⟨⟨text, c⟩, read, same⟩ := Option.bind_eq_some_iff.mp found
  obtain rfl := Option.some.inj same
  obtain ⟨readInside, leads⟩ := Scalar.quoted_inside (a := e.toAround) u.bound v.bound uv.wide single
    (uv.whole.ongoing (cursor ▸ left)) (cursor ▸ inner) uv.room text read
  refine ⟨_, by rw [quoted?, savedInside, Option.bind_eq_bind, Option.bind_some, uv.cursor, readInside]; rfl, ?_⟩
  exact ((uv.moveTo c leads.reaches).allow false).emit _ (fun _ => rfl) trivial

theorem directive (along : Along e started s t) : Follows e started s.directive? t.directive? := by
  intro s' found
  obtain ⟨u, ended, found⟩ := Option.bind_eq_some_iff.mp found
  obtain ⟨v, endedInside, uv, cursor⟩ := along.leaveBlocks ended
  obtain ⟨⟨token, c⟩, read, same⟩ := Option.bind_eq_some_iff.mp found
  obtain rfl := Option.some.inj same
  obtain ⟨readInside, reaches, directive⟩ := Mark.directive_inside (a := e.toAround) u.bound v.bound uv.wide
    (uv.whole.ongoing (cursor ▸ left)) (cursor ▸ inner) uv.room token read
  have even : (∀ d, token.depthAfter d = d) ∧ token.Passed := by
    cases token with
    | version major minor => exact ⟨fun _ => rfl, trivial⟩
    | tagDirective handle pfx => exact ⟨fun _ => rfl, trivial⟩
    | _ => exact absurd directive id
  refine ⟨_, by rw [directive?, endedInside, Option.bind_eq_bind, Option.bind_some, uv.cursor, readInside]; rfl, ?_⟩
  exact (uv.moveTo c reaches).emit _ even.1 even.2

omit inner

theorem documentMark (along : Along e started s t) (token : Token)
    (even : ∀ d, token.depthAfter d = d) (passed : token.Passed)
    (mark : ∀ x ∈ s.cursor.rest.take 3, isBreak x = false) :
    Follows e started (s.documentMark? token) (t.documentMark? token) := by
  intro s' found
  obtain ⟨u, ended, same⟩ := Option.bind_eq_some_iff.mp found
  obtain ⟨v, endedInside, uv, cursor⟩ := along.leaveBlocks ended
  obtain rfl := Option.some.inj same
  refine ⟨_, by rw [documentMark?, endedInside]; rfl, ?_⟩
  exact (uv.moved 3 (cursor ▸ left) (cursor ▸ mark)).emit _ even passed

omit left

theorem plain (along : Along e started s t) : Follows e started s.plain? t.plain? := by
  intro s' found
  obtain ⟨u, saved, found⟩ := Option.bind_eq_some_iff.mp found
  obtain ⟨v, savedInside, uv, cursor⟩ := along.saveKey saved
  obtain ⟨⟨text, c, broken⟩, read, same⟩ := Option.bind_eq_some_iff.mp found
  obtain rfl := Option.some.inj same
  obtain ⟨readInside, reaches⟩ := Scalar.plain_inside (a := e.toAround) u.bound v.bound uv.wide u.inFlow (u.indent + 1)
    uv.whole uv.room text broken read
  refine ⟨_, by
    rw [plain?, savedInside, Option.bind_eq_bind, Option.bind_some, uv.cursor, uv.inFlow, uv.indent, readInside]
    rfl, ?_⟩
  exact ((uv.moveTo c reaches).allow broken).emit _ (fun _ => rfl) trivial

end Tokens

theorem follows_ite {alone alone' stream stream' : Option Scanner} (c : Prop) [Decidable c]
    (yes : c → Follows e started alone stream) (no : Follows e started alone' stream') :
    Follows e started (if c then alone else alone') (if c then stream else stream') := by
  by_cases holds : c
  · rw [if_pos holds, if_pos holds]
    exact yes holds
  · rw [if_neg holds, if_neg holds]
    exact no

theorem mark_inner (c : Cursor) (x : Char) (inner : isBreak x = false) (mark : c.startsLineWith x = true) :
    ∀ y ∈ c.rest.take 3, isBreak y = false := by
  obtain ⟨rest, index, line, column⟩ := c
  simp only [Cursor.startsLineWith, Bool.and_eq_true, beq_iff_eq] at mark
  obtain ⟨-, mark⟩ := mark
  split at mark
  next y z w tail =>
    simp only [Bool.and_eq_true, beq_iff_eq] at mark
    obtain ⟨⟨⟨rfl, rfl⟩, rfl⟩, -⟩ := mark
    simp [inner]
  next => cases mark

theorem token (along : Along e started s t) (left : s.cursor.rest ≠ []) (inner : s.cursor.at? isBreak = false) :
    Follows e started s.token? t.token? := by
  have going := along.whole.ongoing left
  cases here : s.cursor.rest with
  | nil => exact absurd here left
  | cons d rest =>
    have isInner : isBreak d = false := by rwa [Cursor.at_of_rest here] at inner
    have next : (rest ++ e.after).head? = rest.head? :=
      Scalar.head_append (closed_open d rest (here ▸ going.closed) isInner)
    have there : (s.cursor.inside e.toAround).rest = d :: (rest ++ e.after) := by simp [Cursor.inside, here]
    unfold token?
    dsimp only
    rw [along.cursor, there, here]
    dsimp only
    rw [next, going.starts_line_inside '-' rfl, going.starts_line_inside '.' rfl, along.inFlow, Cursor.inside_column]
    refine follows_ite _ (fun _ => along.directive left inner) ?_
    refine follows_ite _ (fun mark => along.documentMark left _ (fun _ => rfl) trivial (mark_inner _ _ rfl mark)) ?_
    refine follows_ite _ (fun mark => along.documentMark left _ (fun _ => rfl) trivial (mark_inner _ _ rfl mark)) ?_
    refine follows_ite _ (fun _ => along.flowStart left inner _ (fun _ => rfl) trivial) ?_
    refine follows_ite _ (fun _ => along.flowStart left inner _ (fun _ => rfl) trivial) ?_
    refine follows_ite _ (fun _ => along.flowEnd left inner _ (fun _ => rfl) trivial) ?_
    refine follows_ite _ (fun _ => along.flowEnd left inner _ (fun _ => rfl) trivial) ?_
    refine follows_ite _ (fun _ => along.flowEntry left inner) ?_
    refine follows_ite _ (fun _ => along.blockEntry left inner) ?_
    refine follows_ite _ (fun _ => along.key left inner) ?_
    refine follows_ite _ (fun _ => along.value left inner) ?_
    refine follows_ite _ (fun _ => along.named left inner _ (fun _ _ => rfl) (fun _ => trivial)) ?_
    refine follows_ite _ (fun _ => along.named left inner _ (fun _ _ => rfl) (fun _ => trivial)) ?_
    refine follows_ite _ (fun _ => along.tag left inner) ?_
    refine follows_ite _ (fun _ => along.block left inner true) ?_
    refine follows_ite _ (fun _ => along.block left inner false) ?_
    refine follows_ite _ (fun _ => along.quoted left inner true) ?_
    refine follows_ite _ (fun _ => along.quoted left inner false) ?_
    refine follows_ite _ (fun _ => along.plain) ?_
    intro s' found
    cases found

end Along

end Scanner

end ManifestSecrets.Yaml
