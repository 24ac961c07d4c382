import ManifestSecrets.Yaml.Event
import ManifestSecrets.Proofs.Yaml.Tokens

set_option autoImplicit false

namespace ManifestSecrets.Yaml

def Token.depthFrom (depth : Nat) (tokens : List Token) : Nat := tokens.foldl (fun d token => token.depthAfter d) depth

theorem Token.depth_after_mono (token : Token) {a b : Nat} (le : a ≤ b) : token.depthAfter a ≤ token.depthAfter b := by
  cases token with
  | flowSequenceStart => exact Nat.add_le_add_right le 1
  | flowMappingStart => exact Nat.add_le_add_right le 1
  | flowSequenceEnd => exact Nat.sub_le_sub_right le 1
  | flowMappingEnd => exact Nat.sub_le_sub_right le 1
  | _ => exact le

theorem Token.depth_from_mono (tokens : List Token) {a b : Nat} (le : a ≤ b) :
    depthFrom a tokens ≤ depthFrom b tokens := by
  induction tokens generalizing a b with
  | nil => exact le
  | cons token rest ih => exact ih (token.depth_after_mono le)

namespace Expect

def flows : Expect → Nat
  | .flowSequenceEntry => 1
  | .flowPairKey => 1
  | .flowPairValue => 1
  | .flowPairEnd => 1
  | .flowMappingKey => 1
  | .flowMappingValue => 1
  | .flowMappingEmptyValue => 1
  | _ => 0

-- How many steps may follow that take no token, at most.
def weight : Expect → Nat
  | .firstDocument => 4
  | .documentContent => 2
  | .blockNode => 2
  | .documentEnd => 1
  | .blockSequenceFirst => 1
  | .indentlessEntry => 1
  | .blockMappingFirst => 1
  | .blockMappingValue => 1
  | .flowSequenceFirst => 1
  | .flowPairKey => 4
  | .flowPairValue => 2
  | .flowPairEnd => 1
  | .flowMappingFirst => 1
  | .flowMappingValue => 1
  | .flowMappingEmptyValue => 1
  | _ => 0

def opening? : Expect → Option Token
  | .blockSequenceFirst => some .blockSequenceStart
  | .blockMappingFirst => some .blockMappingStart
  | .flowSequenceFirst => some .flowSequenceStart
  | .flowMappingFirst => some .flowMappingStart
  | _ => none

def Inside : Expect → Prop
  | .firstDocument => False
  | .document => False
  | .documentEnd => False
  | .nothing => False
  | _ => True

def Returns : Expect → Prop
  | .blockSequenceEntry => True
  | .indentlessEntry => True
  | .blockMappingKey => True
  | .blockMappingValue => True
  | .flowSequenceEntry => True
  | .flowPairValue => True
  | .flowPairEnd => True
  | .flowMappingKey => True
  | .flowMappingValue => True
  | .flowMappingEmptyValue => True
  | _ => False

theorem opening_passed {e : Expect} {token : Token} (opens : e.opening? = some token) : token.Passed := by
  cases e <;> cases opens <;> trivial

theorem Returns.inside {e : Expect} (returns : e.Returns) : e.Inside ∧ e.opening? = none := by
  cases e <;> first | exact ⟨trivial, rfl⟩ | exact absurd returns id

end Expect

def Stacked : List Expect → Prop
  | [] => False
  | [e] => e = .documentEnd
  | e :: rest => e.Returns ∧ Stacked rest

theorem stacked_push (e : Expect) (stack : List Expect) (returns : e.Returns) (stacked : Stacked stack) :
    Stacked (e :: stack) := by
  cases stack with
  | nil => exact absurd stacked id
  | cons d rest => exact ⟨returns, stacked⟩

def flowsOf : List Expect → Nat
  | [] => 0
  | e :: rest => e.flows + flowsOf rest

def weightOf : List Expect → Nat
  | [] => 0
  | e :: rest => e.weight + weightOf rest

namespace Grammar

def level (g : Grammar) : Nat := g.expect.flows + flowsOf g.stack

def weight (g : Grammar) : Nat := 5 * g.tokens.length + weightOf g.stack + g.expect.weight

def depth (g : Grammar) : Nat := Token.depthFrom g.level g.tokens

inductive Settled (g : Grammar) : Prop
  | documentEnd (expect : g.expect = .documentEnd) (stack : g.stack = [])
  | document (expect : g.expect = .document) (stack : g.stack = [])
  | inside (expect : g.expect.Inside) (stack : Stacked g.stack)
      (opening : ∀ token, g.expect.opening? = some token → g.tokens.head? = some token)

end Grammar

-- Tokens of a text by itself, with its last one, and in a stream that goes on with `tail` in its place.
inductive Alike (last : Token) (tail : List Token) : List Token → List Token → Prop
  | ends : Alike last tail [last] tail
  | cons {ts us : List Token} (token : Token) (passed : token.Passed) (later : Alike last tail ts us) :
      Alike last tail (token :: ts) (token :: us)

inductive Meets : Token → List Token → Prop
  | fault : Meets .fault [.fault]
  | ended : Meets .streamEnd [.streamEnd]
  | next (more : List Token) : Meets .streamEnd (.documentStart :: more)

open Grammar

-- A step in a text and the same step in the stream, and how deep and how heavy what is left may be.
structure Next (last : Token) (tail : List Token) (depth weight : Nat) (stream : Option (Event × Grammar)) (event : Event)
    (g : Grammar) : Prop where
  stream : ∃ us, stream = some (event, { g with tokens := us }) ∧ Alike last tail g.tokens us
  settled : g.Settled
  depth : depth ≤ g.depth
  weight : g.weight < weight
  passed : event ≠ .streamEnd

section Nodes

variable {last : Token} {tail ts us : List Token} {stack : List Expect} {handles : List (String × String)}
  {expect expect' : Expect} {event : Event} {g : Grammar}

theorem pop_settled (stacked : Stacked stack) : Settled ⟨ts, stack.headD .nothing, stack.drop 1, handles⟩ := by
  rcases stack with - | ⟨e, - | ⟨d, rest⟩⟩
  · exact absurd stacked id
  · exact .documentEnd stacked rfl
  · obtain ⟨inside, read⟩ := stacked.1.inside
    refine .inside inside stacked.2 fun token opens => ?_
    cases read.symm.trans (show e.opening? = some token from opens)

theorem pop_level (stacked : Stacked stack) :
    (stack.headD .nothing).flows + flowsOf (stack.drop 1) = flowsOf stack ∧
      (stack.headD .nothing).weight + weightOf (stack.drop 1) = weightOf stack := by
  cases stack with
  | nil => exact absurd stacked id
  | cons e rest => exact ⟨rfl, rfl⟩

theorem next_pop (alike : Alike last tail ts us) (stacked : Stacked stack) {depth weight : Nat} {said : Event}
    (found : some (said, (⟨ts, stack.headD .nothing, stack.drop 1, handles⟩ : Grammar)) = some (event, g))
    (passed : said ≠ .streamEnd) (deep : depth ≤ Token.depthFrom (flowsOf stack) ts)
    (light : 5 * ts.length + weightOf stack < weight) :
    Next last tail depth weight (some (said, ⟨us, stack.headD .nothing, stack.drop 1, handles⟩)) event g := by
  obtain ⟨rfl, rfl⟩ := Prod.mk.inj (Option.some.inj found)
  obtain ⟨flows, weights⟩ := pop_level stacked
  refine ⟨⟨us, rfl, alike⟩, pop_settled stacked, ?_, ?_, passed⟩
  · rw [Grammar.depth, Grammar.level, flows]
    exact deep
  · simp only [Grammar.weight]
    omega

theorem next_goto (alike : Alike last tail ts us) (stacked : Stacked stack) (after : Expect) (inside : after.Inside)
    {depth weight : Nat} {said : Event} (found : some (said, (⟨ts, after, stack, handles⟩ : Grammar)) = some (event, g))
    (passed : said ≠ .streamEnd) (opening : ∀ token, after.opening? = some token → ts.head? = some token)
    (deep : depth ≤ Token.depthFrom (after.flows + flowsOf stack) ts)
    (light : 5 * ts.length + weightOf stack + after.weight < weight) :
    Next last tail depth weight (some (said, ⟨us, after, stack, handles⟩)) event g := by
  obtain ⟨rfl, rfl⟩ := Prod.mk.inj (Option.some.inj found)
  exact ⟨⟨us, rfl, alike⟩, .inside inside stacked opening, deep, light, passed⟩

theorem Next.from {depth depth' weight weight' : Nat} {stream : Option (Event × Grammar)}
    (next : Next last tail depth weight stream event g) (deep : depth' ≤ depth) (light : weight ≤ weight') :
    Next last tail depth' weight' stream event g :=
  { next with depth := Nat.le_trans deep next.depth, weight := Nat.lt_of_lt_of_le next.weight light }

theorem next_opens (opens : Expect) (token : Token) (passedToken : token.Passed) (later : Alike last tail ts us)
    (stacked : Stacked stack) (inside : opens.Inside) (opening : opens.opening? = some token) (flows : opens.flows = 0)
    (light : opens.weight = 1) {said : Event}
    (found : some (said, (⟨token :: ts, opens, stack, handles⟩ : Grammar)) = some (event, g))
    (passed : said ≠ .streamEnd) :
    Next last tail (Token.depthFrom (flowsOf stack) (token :: ts)) (5 * (token :: ts).length + weightOf stack + 2)
      (some (said, ⟨token :: us, opens, stack, handles⟩)) event g := by
  refine next_goto (.cons token passedToken later) stacked opens inside found passed (fun other read => ?_)
    (Nat.le_of_eq ?_) ?_
  · exact opening.symm.trans read
  · rw [flows, Nat.zero_add]
  · omega

theorem content_next (meets : Meets last tail) (alike : Alike last tail ts us) (stacked : Stacked stack)
    (p : Properties) (block indentless : Bool)
    (found : content? ⟨ts, expect, stack, handles⟩ p block indentless = some (event, g)) :
    Next last tail (Token.depthFrom (flowsOf stack) ts) (5 * ts.length + weightOf stack + 2)
      (content? ⟨us, expect', stack, handles⟩ p block indentless) event g := by
  have empty : ∀ {ts us}, Alike last tail ts us → content?.empty? ⟨ts, expect, stack, handles⟩ p = some (event, g) →
      Next last tail (Token.depthFrom (flowsOf stack) ts) (5 * ts.length + weightOf stack + 2)
        (content?.empty? ⟨us, expect', stack, handles⟩ p) event g := by
    intro ts us alike found
    unfold content?.empty? at found ⊢
    split at found
    next explicit =>
      rw [if_pos explicit]
      exact next_pop alike stacked found (by simp) (Nat.le_refl _) (by omega)
    next => cases found
  cases alike with
  | ends =>
    cases meets with
    | fault => cases found
    | ended => exact empty .ends found
    | next more => exact empty .ends found
  | cons token passed later =>
    cases token with
    | fault => exact absurd passed id
    | blockEntry =>
      cases indentless with
      | true =>
        refine next_goto (.cons _ passed later) stacked .indentlessEntry trivial found (by simp) ?_ ?_ ?_
        · exact fun _ read => by cases read
        · simp [Expect.flows]
        · simp only [Expect.weight]
          omega
      | false => exact empty (.cons _ passed later) found
    | scalar plain text =>
      exact next_pop later stacked found (by simp) (Nat.le_refl _) (by rw [List.length_cons]; omega)
    | flowSequenceStart =>
      exact next_opens .flowSequenceFirst _ passed later stacked trivial rfl rfl rfl found (by simp)
    | flowMappingStart =>
      exact next_opens .flowMappingFirst _ passed later stacked trivial rfl rfl rfl found (by simp)
    | blockSequenceStart =>
      cases block with
      | true => exact next_opens .blockSequenceFirst _ passed later stacked trivial rfl rfl rfl found (by simp)
      | false => exact empty (.cons _ passed later) found
    | blockMappingStart =>
      cases block with
      | true => exact next_opens .blockMappingFirst _ passed later stacked trivial rfl rfl rfl found (by simp)
      | false => exact empty (.cons _ passed later) found
    | _ => exact empty (.cons _ passed later) found

theorem properties_alike (meets : Meets last tail) (alike : Alike last tail ts us) (p : Properties)
    (found : properties? ⟨ts, expect, stack, handles⟩ = some (p, g)) :
    ∃ ts' us', g = ⟨ts', expect, stack, handles⟩ ∧
      properties? ⟨us, expect', stack, handles⟩ = some (p, ⟨us', expect', stack, handles⟩) ∧ Alike last tail ts' us' ∧
      ts'.length ≤ ts.length ∧ ∀ d, Token.depthFrom d ts = Token.depthFrom d ts' := by
  cases alike with
  | ends =>
    cases meets with
    | _ =>
      obtain ⟨rfl, rfl⟩ := Prod.mk.inj (Option.some.inj found)
      exact ⟨_, _, rfl, rfl, .ends, Nat.le_refl _, fun _ => rfl⟩
  | @cons rest restInside token passed later =>
    have two : ∀ {ts : List Token} {second : Token}, ts.length ≤ (token :: second :: ts).length :=
      Nat.le_add_right _ 2
    cases token with
    | anchor name =>
      cases later with
      | ends =>
        cases meets with
        | _ =>
          obtain ⟨rfl, rfl⟩ := Prod.mk.inj (Option.some.inj found)
          exact ⟨_, _, rfl, rfl, .ends, Nat.le_succ _, fun _ => rfl⟩
      | cons second passedSecond rest =>
        cases second with
        | tag handle suffix =>
          obtain ⟨tag, read, same⟩ := Option.bind_eq_some_iff.mp found
          obtain ⟨rfl, rfl⟩ := Prod.mk.inj (Option.some.inj same)
          exact ⟨_, _, rfl, Option.bind_eq_some_iff.mpr ⟨tag, read, rfl⟩, rest, two, fun _ => rfl⟩
        | _ =>
          obtain ⟨rfl, rfl⟩ := Prod.mk.inj (Option.some.inj found)
          exact ⟨_, _, rfl, rfl, .cons _ passedSecond rest, Nat.le_succ _, fun _ => rfl⟩
    | tag handle suffix =>
      cases later with
      | ends =>
        cases meets with
        | _ =>
          obtain ⟨tag, read, same⟩ := Option.bind_eq_some_iff.mp found
          obtain ⟨rfl, rfl⟩ := Prod.mk.inj (Option.some.inj same)
          exact ⟨_, _, rfl, Option.bind_eq_some_iff.mpr ⟨tag, read, rfl⟩, .ends, Nat.le_succ _, fun _ => rfl⟩
      | cons second passedSecond rest =>
        cases second with
        | anchor name =>
          obtain ⟨tag, read, same⟩ := Option.bind_eq_some_iff.mp found
          obtain ⟨rfl, rfl⟩ := Prod.mk.inj (Option.some.inj same)
          exact ⟨_, _, rfl, Option.bind_eq_some_iff.mpr ⟨tag, read, rfl⟩, rest, two, fun _ => rfl⟩
        | _ =>
          obtain ⟨tag, read, same⟩ := Option.bind_eq_some_iff.mp found
          obtain ⟨rfl, rfl⟩ := Prod.mk.inj (Option.some.inj same)
          refine ⟨_, _, rfl, Option.bind_eq_some_iff.mpr ⟨tag, read, rfl⟩, .cons _ passedSecond rest, Nat.le_succ _, ?_⟩
          exact fun _ => rfl
    | _ =>
      obtain ⟨rfl, rfl⟩ := Prod.mk.inj (Option.some.inj found)
      exact ⟨_, _, rfl, rfl, .cons _ passed later, Nat.le_refl _, fun _ => rfl⟩

theorem node_next (meets : Meets last tail) (alike : Alike last tail ts us) (stacked : Stacked stack)
    (block indentless : Bool) (found : node? ⟨ts, expect, stack, handles⟩ block indentless = some (event, g)) :
    Next last tail (Token.depthFrom (flowsOf stack) ts) (5 * ts.length + weightOf stack + 2)
      (node? ⟨us, expect', stack, handles⟩ block indentless) event g := by
  have content : ∀ {ts us}, Alike last tail ts us →
      ((properties? ⟨ts, expect, stack, handles⟩).bind fun read => read.2.content? read.1 block indentless) =
        some (event, g) →
      Next last tail (Token.depthFrom (flowsOf stack) ts) (5 * ts.length + weightOf stack + 2)
        ((properties? ⟨us, expect', stack, handles⟩).bind fun read => read.2.content? read.1 block indentless)
        event g := by
    intro ts us alike found
    obtain ⟨⟨p, after⟩, read, later⟩ := Option.bind_eq_some_iff.mp found
    obtain ⟨ts', us', rfl, same, alike', shorter, level⟩ := properties_alike meets alike p read
    rw [same]
    exact (content_next meets alike' stacked p block indentless later).from (Nat.le_of_eq (level _)) (by omega)
  cases alike with
  | ends =>
    cases meets with
    | _ => exact content .ends found
  | cons token passed later =>
    cases token with
    | «alias» name =>
      exact next_pop later stacked found (by simp) (Nat.le_refl _) (by rw [List.length_cons]; omega)
    | _ => exact content (.cons _ passed later) found

theorem pushed_next (meets : Meets last tail) (alike : Alike last tail ts us) (stacked : Stacked stack) (after : Expect)
    (returns : after.Returns) (block indentless : Bool)
    (found : node? ⟨ts, expect, after :: stack, handles⟩ block indentless = some (event, g)) {weight : Nat}
    (light : 5 * ts.length + weightOf stack + after.weight + 2 ≤ weight) :
    Next last tail (Token.depthFrom (after.flows + flowsOf stack) ts) weight
      (node? ⟨us, expect', after :: stack, handles⟩ block indentless) event g := by
  refine (node_next meets alike (stacked_push after stack returns stacked) block indentless found).from (Nat.le_refl _) ?_
  rw [weightOf]
  omega

theorem node_or_other {block indentless : Bool} {ends : List Token} {after : Expect} {token : Token}
    (whole : token ≠ .fault) (other : token ∉ ends) :
    nodeOr? ⟨token :: ts, expect, stack, handles⟩ ends block indentless after =
      node? ⟨token :: ts, expect, after :: stack, handles⟩ block indentless := by
  simp [nodeOr?, head, push, whole, other]

theorem node_or_empty {block indentless : Bool} {ends : List Token} {after : Expect} {token : Token}
    (whole : token ≠ .fault) (here : token ∈ ends) :
    nodeOr? ⟨token :: ts, expect, stack, handles⟩ ends block indentless after =
      some (emptyScalar, ⟨token :: ts, after, stack, handles⟩) := by
  simp [nodeOr?, head, goto, whole, here]

theorem node_or_next (meets : Meets last tail) (alike : Alike last tail ts us) (stacked : Stacked stack)
    (ends : List Token) (ended : .streamEnd ∉ ends) (next : .documentStart ∉ ends) (block indentless : Bool)
    (after : Expect) (returns : after.Returns)
    (found : nodeOr? ⟨ts, expect, stack, handles⟩ ends block indentless after = some (event, g)) :
    Next last tail (Token.depthFrom (after.flows + flowsOf stack) ts) (5 * ts.length + weightOf stack + after.weight + 2)
      (nodeOr? ⟨us, expect', stack, handles⟩ ends block indentless after) event g := by
  cases alike with
  | ends =>
    cases met : meets with
    | fault => cases found
    | ended =>
      rw [node_or_other (by decide) ended] at found ⊢
      exact pushed_next meets .ends stacked after returns _ _ found (Nat.le_refl _)
    | next more =>
      rw [node_or_other (by decide) ended] at found
      rw [node_or_other (by decide) next]
      exact pushed_next meets .ends stacked after returns _ _ found (Nat.le_refl _)
  | cons token passed later =>
    have whole : token ≠ .fault := by
      rintro rfl
      exact passed
    by_cases here : token ∈ ends
    · rw [node_or_empty whole here] at found ⊢
      obtain ⟨inside, read⟩ := returns.inside
      refine next_goto (.cons token passed later) stacked after inside found (by simp [emptyScalar]) (fun _ opens => ?_)
        (Nat.le_refl _) (by omega)
      cases read.symm.trans opens
    · rw [node_or_other whole here] at found ⊢
      exact pushed_next meets (.cons token passed later) stacked after returns _ _ found (Nat.le_refl _)

theorem node_or_taken (meets : Meets last tail) (alike : Alike last tail ts us) (stacked : Stacked stack) (token : Token)
    (even : ∀ d, token.depthAfter d = d) {ends : List Token} {block indentless : Bool} {after : Expect}
    (found : nodeOr? ⟨ts, expect, stack, handles⟩ ends block indentless after = some (event, g))
    (ended : .streamEnd ∉ ends) (next : .documentStart ∉ ends) (returns : after.Returns) (light : after.weight ≤ 3)
    {weight : Nat} (enough : 5 * (token :: ts).length + weightOf stack ≤ weight) :
    Next last tail (Token.depthFrom (after.flows + flowsOf stack) (token :: ts)) weight
      (nodeOr? ⟨us, expect', stack, handles⟩ ends block indentless after) event g := by
  refine (node_or_next meets alike stacked ends ended next block indentless after returns found).from ?_ ?_
  · exact Nat.le_of_eq (congrArg (Token.depthFrom · ts) (even _))
  · rw [List.length_cons] at enough
    omega

theorem next_close (later : Alike last tail ts us) (stacked : Stacked stack) (token : Token) (flows : Nat)
    (closes : ∀ d, token.depthAfter (flows + d) = d) {said : Event}
    (found : some (said, (⟨ts, stack.headD .nothing, stack.drop 1, handles⟩ : Grammar)) = some (event, g))
    (passed : said ≠ .streamEnd) {weight : Nat} (light : 5 * ts.length + weightOf stack < weight) :
    Next last tail (Token.depthFrom (flows + flowsOf stack) (token :: ts)) weight
      (some (said, ⟨us, stack.headD .nothing, stack.drop 1, handles⟩)) event g :=
  next_pop later stacked found passed (Nat.le_of_eq (congrArg (Token.depthFrom · ts) (closes _))) light

theorem lighter (n : Nat) {token : Token} : 5 * ts.length + n < 5 * (token :: ts).length + n := by
  rw [List.length_cons]
  omega

theorem block_sequence_next (meets : Meets last tail) (alike : Alike last tail ts us) (stacked : Stacked stack)
    (found : blockSequenceEntry? ⟨ts, expect, stack, handles⟩ = some (event, g)) :
    Next last tail (depth ⟨ts, .blockSequenceEntry, stack, handles⟩) (weight ⟨ts, .blockSequenceEntry, stack, handles⟩)
      ( blockSequenceEntry? ⟨us, expect', stack, handles⟩) event g := by
  cases alike with
  | ends =>
    cases meets with
    | _ => cases found
  | cons token passed later =>
    cases token with
    | blockEntry =>
      exact node_or_taken meets later stacked .blockEntry (fun _ => rfl) found (by decide) (by decide) trivial (by decide)
        (Nat.le_refl _)
    | blockEnd => exact next_close later stacked .blockEnd 0 Nat.zero_add found (by simp) (lighter _)
    | _ => cases found

theorem block_key_next (meets : Meets last tail) (alike : Alike last tail ts us) (stacked : Stacked stack)
    (found : blockMappingKey? ⟨ts, expect, stack, handles⟩ = some (event, g)) :
    Next last tail (depth ⟨ts, .blockMappingKey, stack, handles⟩) (weight ⟨ts, .blockMappingKey, stack, handles⟩)
      (blockMappingKey? ⟨us, expect', stack, handles⟩) event g := by
  cases alike with
  | ends =>
    cases meets with
    | _ => cases found
  | cons token passed later =>
    cases token with
    | key =>
      exact node_or_taken meets later stacked .key (fun _ => rfl) found (by decide) (by decide) trivial (by decide)
        (Nat.le_refl _)
    | blockEnd => exact next_close later stacked .blockEnd 0 Nat.zero_add found (by simp) (lighter _)
    | _ => cases found

-- Whatever follows, a state that takes no token of it either leaves the collection or goes on inside of it.
theorem indentless_next (meets : Meets last tail) (alike : Alike last tail ts us) (stacked : Stacked stack)
    (found : indentlessEntry? ⟨ts, expect, stack, handles⟩ = some (event, g)) :
    Next last tail (depth ⟨ts, .indentlessEntry, stack, handles⟩) (weight ⟨ts, .indentlessEntry, stack, handles⟩)
      ( indentlessEntry? ⟨us, expect', stack, handles⟩) event g := by
  have ends : ∀ {ts us}, Alike last tail ts us →
      some (Event.sequenceEnd, (⟨ts, stack.headD .nothing, stack.drop 1, handles⟩ : Grammar)) = some (event, g) →
      Next last tail (depth ⟨ts, .indentlessEntry, stack, handles⟩) (weight ⟨ts, .indentlessEntry, stack, handles⟩)
        (some (.sequenceEnd, ⟨us, stack.headD .nothing, stack.drop 1, handles⟩)) event g := fun alike found =>
    next_pop alike stacked found (by simp) (Nat.le_of_eq (congrArg (Token.depthFrom · _) (Nat.zero_add _)))
      (Nat.lt_succ_self _)
  cases alike with
  | ends =>
    cases meets with
    | fault => cases found
    | ended => exact ends .ends found
    | next more => exact ends .ends found
  | cons token passed later =>
    cases token with
    | fault => exact absurd passed id
    | blockEntry =>
      exact node_or_taken meets later stacked .blockEntry (fun _ => rfl) found (by decide) (by decide) trivial (by decide)
        (Nat.le_succ _)
    | _ => exact ends (.cons _ passed later) found

theorem empty_next (alike : Alike last tail ts us) (stacked : Stacked stack) (here after : Expect)
    (returns : after.Returns) (same : here.flows = after.flows) (light : after.weight < here.weight)
    (found : some (emptyScalar, (⟨ts, after, stack, handles⟩ : Grammar)) = some (event, g)) :
    Next last tail (depth ⟨ts, here, stack, handles⟩) (weight ⟨ts, here, stack, handles⟩)
      (some (emptyScalar, ⟨us, after, stack, handles⟩)) event g := by
  obtain ⟨inside, closed⟩ := returns.inside
  refine next_goto alike stacked after inside found (by simp [emptyScalar]) (fun _ opens => ?_) ?_ ?_
  · cases closed.symm.trans opens
  · rw [← same]
    exact Nat.le_refl _
  · exact Nat.add_lt_add_left light _

def Grammar.valueOr? (g : Grammar) (ends : List Token) (block indentless : Bool) (after : Expect) :
    Option (Event × Grammar) :=
  match g.head with
  | .value => g.next.nodeOr? ends block indentless after
  | .fault => none
  | _ => some (emptyScalar, g.goto after)

theorem value_next (meets : Meets last tail) (alike : Alike last tail ts us) (stacked : Stacked stack)
    (here : Expect) {after : Expect} {ends : List Token} {block indentless : Bool}
    (found : valueOr? ⟨ts, expect, stack, handles⟩ ends block indentless after = some (event, g))
    (ended : .streamEnd ∉ ends) (next : .documentStart ∉ ends) (returns : after.Returns) (same : here.flows = after.flows)
    (light : after.weight < here.weight) (few : here.weight ≤ 2) :
    Next last tail (depth ⟨ts, here, stack, handles⟩) (weight ⟨ts, here, stack, handles⟩)
      (valueOr? ⟨us, expect', stack, handles⟩ ends block indentless after) event g := by
  cases alike with
  | ends =>
    cases meets with
    | fault => cases found
    | ended => exact empty_next .ends stacked here after returns same light found
    | next more => exact empty_next .ends stacked here after returns same light found
  | cons token passed later =>
    cases token with
    | fault => exact absurd passed id
    | value =>
      refine (node_or_taken meets later stacked .value (fun _ => rfl) found ended next returns (by omega)
        (Nat.le_refl _)).from ?_ (Nat.le_add_right _ _)
      rw [← same]
      exact Nat.le_refl _
    | _ => exact empty_next (.cons _ passed later) stacked here after returns same light found

theorem empty_value_next (meets : Meets last tail) (alike : Alike last tail ts us) (stacked : Stacked stack)
    (found : flowMappingEmptyValue? ⟨ts, expect, stack, handles⟩ = some (event, g)) :
    Next last tail (depth ⟨ts, .flowMappingEmptyValue, stack, handles⟩)
      (weight ⟨ts, .flowMappingEmptyValue, stack, handles⟩) (flowMappingEmptyValue? ⟨us, expect', stack, handles⟩) event
      g := by
  have empty : ∀ {ts us}, Alike last tail ts us → some (emptyScalar, ⟨ts, _, stack, handles⟩) = some (event, g) → _ :=
    fun alike found => empty_next alike stacked .flowMappingEmptyValue .flowMappingKey trivial rfl Nat.one_pos found
  cases alike with
  | ends =>
    cases meets with
    | fault => cases found
    | ended => exact empty .ends found
    | next more => exact empty .ends found
  | cons token passed later =>
    cases token with
    | fault => exact absurd passed id
    | _ => exact empty (.cons _ passed later) found

theorem pair_key_next (meets : Meets last tail) (alike : Alike last tail ts us) (stacked : Stacked stack)
    (found : flowPairKey? ⟨ts, expect, stack, handles⟩ = some (event, g)) :
    Next last tail (depth ⟨ts, .flowPairKey, stack, handles⟩) (weight ⟨ts, .flowPairKey, stack, handles⟩)
      (flowPairKey? ⟨us, expect', stack, handles⟩) event g := by
  have empty : ∀ {ts us} (token : Token), Alike last tail ts us → (∀ d, token.depthAfter d ≤ d) →
      some (emptyScalar, ⟨ts, .flowPairValue, stack, handles⟩) = some (event, g) →
      Next last tail (depth ⟨token :: ts, .flowPairKey, stack, handles⟩)
        (weight ⟨token :: ts, .flowPairKey, stack, handles⟩) (some (emptyScalar, ⟨us, .flowPairValue, stack, handles⟩))
        event g := by
    intro ts us token alike closes found
    refine next_goto alike stacked .flowPairValue trivial found (by simp [emptyScalar]) (fun _ opens => by cases opens)
      (Token.depth_from_mono ts (closes _)) ?_
    simp only [weight, Expect.weight, List.length_cons]
    omega
  cases alike with
  | ends =>
    cases meets with
    | _ => cases found
  | cons token passed later =>
    cases token with
    | value => exact empty .value later (fun _ => Nat.le_refl _) found
    | flowEntry => exact empty .flowEntry later (fun _ => Nat.le_refl _) found
    | flowSequenceEnd => exact empty .flowSequenceEnd later (fun _ => Nat.sub_le _ _) found
    | _ => exact pushed_next meets (.cons _ passed later) stacked .flowPairValue trivial false false found (Nat.le_refl _)

theorem flow_sequence_next (meets : Meets last tail) (alike : Alike last tail ts us) (stacked : Stacked stack)
    (found : flowSequenceEntry? ⟨ts, expect, stack, handles⟩ true = some (event, g)) :
    Next last tail (depth ⟨ts, .flowSequenceEntry, stack, handles⟩) (5 * ts.length + weightOf stack + 2)
      ( flowSequenceEntry? ⟨us, expect', stack, handles⟩ true) event g := by
  cases alike with
  | ends =>
    cases meets with
    | _ => cases found
  | cons token passed later =>
    cases token with
    | flowSequenceEnd =>
      exact next_close later stacked .flowSequenceEnd 1 (Nat.add_sub_cancel_left 1) found (by simp)
        (Nat.lt_of_lt_of_le (lighter _) (Nat.le_add_right _ 2))
    | key =>
      refine next_goto later stacked .flowPairKey trivial found (by simp) (fun _ opens => by cases opens)
        (Nat.le_refl _) ?_
      simp only [Expect.weight, List.length_cons]
      omega
    | _ =>
      first
      | exact pushed_next meets (.cons _ passed later) stacked .flowSequenceEntry trivial false false found
          (Nat.le_refl _)
      | cases found

theorem flow_mapping_next (meets : Meets last tail) (alike : Alike last tail ts us) (stacked : Stacked stack)
    (found : flowMappingKey? ⟨ts, expect, stack, handles⟩ true = some (event, g)) :
    Next last tail (depth ⟨ts, .flowMappingKey, stack, handles⟩) (5 * ts.length + weightOf stack + 3)
      (flowMappingKey? ⟨us, expect', stack, handles⟩ true) event g := by
  cases alike with
  | ends =>
    cases meets with
    | _ => cases found
  | cons token passed later =>
    cases token with
    | flowMappingEnd =>
      exact next_close later stacked .flowMappingEnd 1 (Nat.add_sub_cancel_left 1) found (by simp)
        (Nat.lt_of_lt_of_le (lighter _) (Nat.le_add_right _ 3))
    | key =>
      exact node_or_taken meets later stacked .key (fun _ => rfl) found (by decide) (by decide) trivial (by decide)
        (Nat.le_add_right _ 3)
    | _ =>
      first
      | exact pushed_next meets (.cons _ passed later) stacked .flowMappingEmptyValue trivial false false found
          (Nat.le_refl _)
      | cases found

theorem flow_sequence_later_next (meets : Meets last tail) (alike : Alike last tail ts us) (stacked : Stacked stack)
    (found : flowSequenceEntry? ⟨ts, expect, stack, handles⟩ false = some (event, g)) :
    Next last tail (depth ⟨ts, .flowSequenceEntry, stack, handles⟩) (weight ⟨ts, .flowSequenceEntry, stack, handles⟩)
      ( flowSequenceEntry? ⟨us, expect', stack, handles⟩ false) event g := by
  cases alike with
  | ends =>
    cases meets with
    | _ => cases found
  | cons token passed later =>
    cases token with
    | flowEntry =>
      refine (flow_sequence_next meets later stacked found).from (Nat.le_refl _) ?_
      simp only [weight, Expect.weight, List.length_cons]
      omega
    | flowSequenceEnd =>
      exact next_close later stacked .flowSequenceEnd 1 (Nat.add_sub_cancel_left 1) found (by simp) (lighter _)
    | _ => cases found

theorem flow_mapping_later_next (meets : Meets last tail) (alike : Alike last tail ts us) (stacked : Stacked stack)
    (found : flowMappingKey? ⟨ts, expect, stack, handles⟩ false = some (event, g)) :
    Next last tail (depth ⟨ts, .flowMappingKey, stack, handles⟩) (weight ⟨ts, .flowMappingKey, stack, handles⟩)
      (flowMappingKey? ⟨us, expect', stack, handles⟩ false) event g := by
  cases alike with
  | ends =>
    cases meets with
    | _ => cases found
  | cons token passed later =>
    cases token with
    | flowEntry =>
      refine (flow_mapping_next meets later stacked found).from (Nat.le_refl _) ?_
      simp only [weight, Expect.weight, List.length_cons]
      omega
    | flowMappingEnd =>
      exact next_close later stacked .flowMappingEnd 1 (Nat.add_sub_cancel_left 1) found (by simp) (lighter _)
    | _ => cases found

theorem document_content_next (meets : Meets last tail) (alike : Alike last tail ts us) (stacked : Stacked stack)
    (found : documentContent? ⟨ts, expect, stack, handles⟩ = some (event, g)) :
    Next last tail (depth ⟨ts, .documentContent, stack, handles⟩) (weight ⟨ts, .documentContent, stack, handles⟩)
      (documentContent? ⟨us, expect', stack, handles⟩) event g := by
  have deep : ∀ ts, depth ⟨ts, .documentContent, stack, handles⟩ ≤ Token.depthFrom (flowsOf stack) ts := fun ts =>
    Nat.le_of_eq (congrArg (Token.depthFrom · ts) (Nat.zero_add _))
  have empty : ∀ ts : List Token, 5 * ts.length + weightOf stack < weight ⟨ts, .documentContent, stack, handles⟩ :=
    fun ts => Nat.lt_add_of_pos_right Nat.two_pos
  cases alike with
  | ends =>
    cases meets with
    | fault => cases found
    | ended => exact next_pop .ends stacked found (by simp [emptyScalar]) (deep _) (empty _)
    | next more => exact next_pop .ends stacked found (by simp [emptyScalar]) (deep _) (empty _)
  | cons token passed later =>
    have alike := Alike.cons token passed later
    cases token with
    | version major minor => exact next_pop alike stacked found (by simp [emptyScalar]) (deep _) (empty _)
    | tagDirective handle value => exact next_pop alike stacked found (by simp [emptyScalar]) (deep _) (empty _)
    | documentStart => exact next_pop alike stacked found (by simp [emptyScalar]) (deep _) (empty _)
    | documentEnd => exact next_pop alike stacked found (by simp [emptyScalar]) (deep _) (empty _)
    | streamEnd => exact absurd passed id
    | _ => exact (node_next meets alike stacked true false found).from (deep _) (Nat.le_refl _)

theorem document_end_next (meets : Meets last tail) (alike : Alike last tail ts us)
    (found : documentEnd? ⟨ts, expect, [], handles⟩ = some (event, g)) :
    Next last tail (depth ⟨ts, .documentEnd, [], handles⟩) (weight ⟨ts, .documentEnd, [], handles⟩)
      (documentEnd? ⟨us, expect', [], handles⟩) event g := by
  cases alike with
  | ends =>
    cases meets with
    | fault => cases found
    | _ =>
      obtain ⟨rfl, rfl⟩ := Prod.mk.inj (Option.some.inj found)
      exact ⟨⟨_, rfl, .ends⟩, .document rfl rfl, Nat.le_refl _, Nat.lt_succ_self _, by simp⟩
  | cons token passed later =>
    cases token with
    | fault => exact absurd passed id
    | documentEnd =>
      obtain ⟨rfl, rfl⟩ := Prod.mk.inj (Option.some.inj found)
      exact ⟨⟨_, rfl, later⟩, .document rfl rfl, Nat.le_refl _, Nat.lt_succ_of_lt (lighter _), by simp⟩
    | _ =>
      obtain ⟨rfl, rfl⟩ := Prod.mk.inj (Option.some.inj found)
      exact ⟨⟨_, rfl, .cons _ passed later⟩, .document rfl rfl, Nat.le_refl _, Nat.lt_succ_self _, by simp⟩

theorem drop_ends_alike (meets : Meets last tail) (alike : Alike last tail ts us) :
    Alike last tail (ts.dropWhile (· == .documentEnd)) (us.dropWhile (· == .documentEnd)) ∧
      (ts.dropWhile (· == .documentEnd)).length ≤ ts.length ∧
      ∀ d, Token.depthFrom d ts = Token.depthFrom d (ts.dropWhile (· == .documentEnd)) := by
  induction alike with
  | ends =>
    cases meets with
    | _ => exact ⟨.ends, Nat.le_refl _, fun _ => rfl⟩
  | cons token passed later ih =>
    by_cases ended : token = .documentEnd
    · subst ended
      exact ⟨ih.1, Nat.le_succ_of_le ih.2.1, ih.2.2⟩
    · have kept : ∀ rest, (token :: rest).dropWhile (· == .documentEnd) = token :: rest := fun rest =>
        List.dropWhile_cons_of_neg (by simp [ended])
      rw [kept, kept]
      exact ⟨.cons token passed later, Nat.le_refl _, fun _ => rfl⟩

theorem directives_alike (meets : Meets last tail) (alike : Alike last tail ts us) (seen : Bool) {ts' : List Token}
    {handles' : List (String × String)} (found : directives? ts seen handles = some (ts', handles')) :
    ∃ us', directives? us seen handles = some (us', handles') ∧ Alike last tail ts' us' ∧ ts'.length ≤ ts.length ∧
      ∀ d, Token.depthFrom d ts = Token.depthFrom d ts' := by
  induction alike generalizing seen handles with
  | ends =>
    cases meets with
    | _ =>
      obtain ⟨rfl, rfl⟩ := Prod.mk.inj (Option.some.inj found)
      exact ⟨_, rfl, .ends, Nat.le_refl _, fun _ => rfl⟩
  | cons token passed later ih =>
    cases token with
    | version major minor =>
      rw [directives?] at found ⊢
      split at found
      next => cases found
      next fine =>
        rw [if_neg fine]
        obtain ⟨us', same, alike, shorter, deep⟩ := ih true found
        exact ⟨us', same, alike, Nat.le_succ_of_le shorter, deep⟩
    | tagDirective handle value =>
      rw [directives?] at found ⊢
      split at found
      next => cases found
      next fine =>
        rw [if_neg fine]
        obtain ⟨us', same, alike, shorter, deep⟩ := ih seen found
        exact ⟨us', same, alike, Nat.le_succ_of_le shorter, deep⟩
    | _ =>
      obtain ⟨rfl, rfl⟩ := Prod.mk.inj (Option.some.inj found)
      exact ⟨_, rfl, .cons _ passed later, Nat.le_refl _, fun _ => rfl⟩

structure Ends (last : Token) (tail ts us : List Token) : Prop where
  last : last = .streamEnd
  here : ts.dropWhile (· == .documentEnd) = [.streamEnd]
  stream : us.dropWhile (· == .documentEnd) = tail

def Grammar.start? (g : Grammar) : Option (Event × Grammar) :=
  match g.tokens with
  | .documentStart :: rest =>
      some (.documentStart, { g with tokens := rest, expect := .documentContent, stack := .documentEnd :: g.stack })
  | _ => none

def Grammar.directed? (g : Grammar) : Option (Event × Grammar) :=
  (directives? g.tokens false []).bind fun (tokens, handles) => start? { g with tokens, handles }

theorem explicit_directed {token : Token} (other : token ≠ .streamEnd) :
    explicitDocument? ⟨token :: ts, expect, stack, handles⟩ = directed? ⟨token :: ts, expect, stack, handles⟩ := by
  unfold explicitDocument?
  split
  next ended => exact absurd ended other
  next => rfl

theorem directed_next (meets : Meets last tail) (alike : Alike last tail ts us)
    (found : directed? ⟨ts, expect, [], handles⟩ = some (event, g)) :
    Next last tail (Token.depthFrom 0 ts) (5 * ts.length) (directed? ⟨us, expect', [], handles⟩) event g := by
  obtain ⟨⟨tokens, handles'⟩, read, starts⟩ := Option.bind_eq_some_iff.mp found
  obtain ⟨us', same, alike, shorter, level⟩ := directives_alike meets alike false read
  rw [directed?, same]
  cases alike with
  | ends =>
    cases meets with
    | _ => cases starts
  | cons token passed later =>
    cases token with
    | documentStart =>
      obtain ⟨rfl, rfl⟩ := Prod.mk.inj (Option.some.inj starts)
      refine ⟨⟨_, rfl, later⟩, .inside trivial rfl (fun _ opens => by cases opens), Nat.le_of_eq (level 0), ?_, by simp⟩
      rw [List.length_cons] at shorter
      simp only [weight, weightOf, Expect.weight]
      omega
    | _ => cases starts

theorem document_next (meets : Meets last tail) (alike : Alike last tail ts us)
    (found : document? ⟨ts, .document, [], handles⟩ false = some (event, g)) :
    Next last tail (depth ⟨ts, .document, [], handles⟩) (weight ⟨ts, .document, [], handles⟩)
        (document? ⟨us, .document, [], handles⟩ false) event g ∨
      event = .streamEnd ∧ Ends last tail ts us := by
  obtain ⟨left, shorter, level⟩ := drop_ends_alike meets alike
  have found : explicitDocument? ⟨ts.dropWhile (· == .documentEnd), .document, [], handles⟩ = some (event, g) := found
  have stream : document? ⟨us, .document, [], handles⟩ false =
      explicitDocument? ⟨us.dropWhile (· == .documentEnd), .document, [], handles⟩ := rfl
  rw [stream]
  generalize here : ts.dropWhile (· == .documentEnd) = ts' at left found shorter level
  generalize there : us.dropWhile (· == .documentEnd) = us' at left ⊢
  cases left with
  | ends =>
    cases meets with
    | fault => cases found
    | ended =>
      obtain ⟨rfl, -⟩ := Prod.mk.inj (Option.some.inj found)
      exact .inr ⟨rfl, rfl, here, there⟩
    | next more =>
      obtain ⟨rfl, -⟩ := Prod.mk.inj (Option.some.inj found)
      exact .inr ⟨rfl, rfl, here, there⟩
  | cons token passed later =>
    have other : token ≠ .streamEnd := by
      rintro rfl
      exact passed
    rw [explicit_directed other] at found ⊢
    refine .inl ((directed_next meets (.cons token passed later) found).from (Nat.le_of_eq (level 0)) ?_)
    simp only [weight, weightOf, Expect.weight]
    omega

theorem step_next (meets : Meets last tail) (alike : Alike last tail g.tokens us) (settled : g.Settled) {g' : Grammar}
    (found : g.step? = some (event, g')) :
    Next last tail g.depth g.weight (step? { g with tokens := us }) event g' ∨
      event = .streamEnd ∧ g.expect = .document ∧ g.stack = [] ∧ Ends last tail g.tokens us := by
  obtain ⟨ts, expect, stack, handles⟩ := g
  cases settled with
  | documentEnd here none =>
    obtain rfl : expect = .documentEnd := here
    obtain rfl : stack = [] := none
    exact .inl (document_end_next meets alike found)
  | document here none =>
    obtain rfl : expect = .document := here
    obtain rfl : stack = [] := none
    exact (document_next meets alike found).imp id fun ⟨ended, ends⟩ => ⟨ended, rfl, rfl, ends⟩
  | inside here stacked opening =>
    refine .inl ?_
    have opened : ∀ token, expect.opening? = some token → ∃ rest inner, ts = token :: rest ∧ us = token :: inner ∧
        Alike last tail rest inner := by
      intro token opens
      have first : ts.head? = some token := opening token opens
      have passed := Expect.opening_passed opens
      cases alike with
      | ends =>
        obtain rfl := Option.some.inj first
        cases meets with
        | _ => exact absurd passed id
      | cons other _ later =>
        obtain rfl := Option.some.inj first
        exact ⟨_, _, rfl, rfl, later⟩
    have level : ∀ rest, Token.depthFrom (0 + flowsOf stack + 1) rest ≤ Token.depthFrom (1 + flowsOf stack) rest :=
      fun rest => Nat.le_of_eq (congrArg (Token.depthFrom · rest) (by omega))
    cases expect with
    | firstDocument => exact absurd here id
    | document => exact absurd here id
    | documentEnd => exact absurd here id
    | nothing => exact absurd here id
    | documentContent => exact document_content_next meets alike stacked found
    | blockNode =>
      refine (node_next meets alike stacked true false found).from (Nat.le_of_eq ?_) (Nat.le_refl _)
      exact congrArg (Token.depthFrom · ts) (Nat.zero_add _)
    | blockSequenceFirst =>
      obtain ⟨rest, inner, rfl, rfl, later⟩ := opened _ rfl
      refine (block_sequence_next meets later stacked found).from (Nat.le_refl _) ?_
      simp only [weight, Expect.weight, List.length_cons]
      omega
    | blockSequenceEntry => exact block_sequence_next meets alike stacked found
    | indentlessEntry => exact indentless_next meets alike stacked found
    | blockMappingFirst =>
      obtain ⟨rest, inner, rfl, rfl, later⟩ := opened _ rfl
      refine (block_key_next meets later stacked found).from (Nat.le_refl _) ?_
      simp only [weight, Expect.weight, List.length_cons]
      omega
    | blockMappingKey => exact block_key_next meets alike stacked found
    | blockMappingValue =>
      exact value_next meets alike stacked .blockMappingValue found (by decide) (by decide) trivial rfl (by decide)
        (by decide)
    | flowSequenceFirst =>
      obtain ⟨rest, inner, rfl, rfl, later⟩ := opened _ rfl
      refine (flow_sequence_next meets later stacked found).from (level rest) ?_
      simp only [weight, Expect.weight, List.length_cons]
      omega
    | flowSequenceEntry => exact flow_sequence_later_next meets alike stacked found
    | flowPairKey => exact pair_key_next meets alike stacked found
    | flowPairValue =>
      exact value_next meets alike stacked .flowPairValue found (by decide) (by decide) trivial rfl (by decide)
        (by decide)
    | flowPairEnd =>
      exact next_goto alike stacked .flowSequenceEntry trivial found (by simp) (fun _ opens => by cases opens)
        (Nat.le_refl _) (Nat.lt_succ_self _)
    | flowMappingFirst =>
      obtain ⟨rest, inner, rfl, rfl, later⟩ := opened _ rfl
      refine (flow_mapping_next meets later stacked found).from (level rest) ?_
      simp only [weight, Expect.weight, List.length_cons]
      omega
    | flowMappingKey => exact flow_mapping_later_next meets alike stacked found
    | flowMappingValue =>
      exact value_next meets alike stacked .flowMappingValue found (by decide) (by decide) trivial rfl (by decide)
        (by decide)
    | flowMappingEmptyValue => exact empty_value_next meets alike stacked found

end Nodes

end ManifestSecrets.Yaml
