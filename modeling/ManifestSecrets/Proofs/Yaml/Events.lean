import ManifestSecrets.Proofs.Yaml.Grammar

set_option autoImplicit false

namespace ManifestSecrets.Yaml

namespace Grammar

variable {last : Token} {tail us : List Token} {g g' : Grammar} {event : Event}

theorem run_after (n : Nat) (g : Grammar) (events : List Event) : run n g events = events.reverse ++ run n g [] := by
  induction n generalizing g events with
  | zero => simp [run]
  | succ n ih =>
    cases found : g.step? with
    | none => simp [run, found]
    | some next =>
      obtain ⟨event, g'⟩ := next
      by_cases ended : event = .streamEnd
      · simp [run, found, ended]
      · simp only [run, found]
        rw [ih g' (event :: events), ih g' [event]]
        simp

theorem run_fault (n : Nat) (stuck : g.step? = none) : .fault ∈ run (n + 1) g [] := by
  simp [run, stuck]

theorem run_ended (n : Nat) (found : g.step? = some (.streamEnd, g')) : run (n + 1) g [] = [.streamEnd] := by
  simp [run, found]

theorem run_goes (n : Nat) (found : g.step? = some (event, g')) (goes : event ≠ .streamEnd) :
    run (n + 1) g [] = event :: run n g' [] := by
  simp only [run, found]
  rw [run_after]
  rfl

theorem run_ends (n : Nat) (g : Grammar) : ∃ events last, run n g [] = events ++ [last] ∧ .streamEnd ∉ events ∧
    (last = .fault ∨ last = .streamEnd) := by
  induction n generalizing g with
  | zero => exact ⟨[], .fault, rfl, List.not_mem_nil, .inl rfl⟩
  | succ n ih =>
    cases found : g.step? with
    | none => exact ⟨[], .fault, by simp [run, found], List.not_mem_nil, .inl rfl⟩
    | some after =>
      obtain ⟨event, g'⟩ := after
      by_cases ended : event = .streamEnd
      · subst ended
        exact ⟨[], .streamEnd, run_ended n found, List.not_mem_nil, .inr rfl⟩
      · obtain ⟨events, last, same, passed, kind⟩ := ih g'
        refine ⟨event :: events, last, by rw [run_goes n found ended, same, List.cons_append], ?_, kind⟩
        exact List.not_mem_cons_of_ne_of_not_mem (Ne.symm ended) passed

-- Once a text is complete the stream stands before its tail, between two documents.
structure Completes (tail : List Token) (n : Nat) (g stream : Grammar) (events : List Event) : Prop where
  alone : run n g [] = events ++ [.streamEnd]
  passed : .streamEnd ∉ events
  short : events.length + 5 ≤ g.weight
  flat : g.depth = 0
  stream : ∃ us handles, us.dropWhile (· == .documentEnd) = tail ∧
    ∀ m, run (m + events.length) stream [] = events ++ run m ⟨us, .document, [], handles⟩ []

theorem completes_next {stream : Grammar} (found : g.step? = some (event, g'))
    (next : Next last tail g.depth g.weight stream.step? event g') (n : Nat)
    (rest : ∀ us, Alike last tail g'.tokens us → ∃ events, Completes tail n g' { g' with tokens := us } events ∧
      last = .streamEnd) :
    ∃ events, Completes tail (n + 1) g stream events ∧ last = .streamEnd := by
  obtain ⟨us, step, alike⟩ := next.stream
  obtain ⟨events, completes, ended⟩ := rest us alike
  obtain ⟨left, handles, here, goes⟩ := completes.stream
  refine ⟨event :: events, ⟨?_, ?_, ?_, ?_, left, handles, here, fun m => ?_⟩, ended⟩
  · rw [run_goes n found next.passed, completes.alone, List.cons_append]
  · exact List.not_mem_cons_of_ne_of_not_mem next.passed.symm completes.passed
  · have short := completes.short
    have lighter := next.weight
    rw [List.length_cons]
    omega
  · exact Nat.eq_zero_of_le_zero (completes.flat ▸ next.depth)
  · rw [List.length_cons, ← Nat.add_assoc, run_goes _ step next.passed, goes, List.cons_append]

-- The induction is on the steps of the text by itself.
theorem run_alike (meets : Meets last tail) (alike : Alike last tail g.tokens us) (settled : g.Settled) (n : Nat)
    (read : .fault ∉ run n g []) : ∃ events, Completes tail n g { g with tokens := us } events ∧ last = .streamEnd := by
  induction n generalizing g us with
  | zero => simp [run] at read
  | succ n ih =>
    cases found : g.step? with
    | none => exact absurd (run_fault n found) read
    | some after =>
      obtain ⟨event, g'⟩ := after
      rcases step_next meets alike settled found with next | ⟨rfl, expect, stack, ends⟩
      · refine completes_next found next n fun us alike => ih alike next.settled ?_
        rw [run_goes n found next.passed] at read
        exact fun member => read (List.mem_cons_of_mem _ member)
      · obtain ⟨-, shorter, level⟩ := drop_ends_alike meets alike
        rw [ends.here] at shorter level
        refine ⟨[], ⟨run_ended n found, List.not_mem_nil, ?_, ?_, us, g.handles, ends.stream, fun m => ?_⟩, ends.last⟩
        · simp only [weight, List.length_cons, List.length_nil] at shorter ⊢
          omega
        · rw [depth, Grammar.level, expect, stack, level]
          rfl
        · rw [← expect, ← stack]
          rfl

theorem alike_append {content : List Token} (passed : ∀ token ∈ content, token.Passed) :
    Alike last tail (content ++ [last]) (content ++ tail) := by
  induction content with
  | nil => exact .ends
  | cons token rest ih =>
    obtain ⟨here, later⟩ := List.forall_mem_cons.mp passed
    exact .cons token here (ih later)

-- The tokens of a document are read as its events, wherever in a stream it stands.
structure Document (content : List Token) (events : List Event) : Prop where
  passed : .streamEnd ∉ events
  short : events.length ≤ 5 * content.length + 3
  reads : ∀ tail, Meets .streamEnd tail → ∀ expect, expect = .blockNode ∨ expect = .documentContent →
    ∃ us handles, us.dropWhile (· == .documentEnd) = tail ∧
      ∀ m, run (m + events.length) ⟨content ++ tail, expect, [.documentEnd], []⟩ [] =
        events ++ run m ⟨us, .document, [], handles⟩ []

theorem content_alike (meets : Meets last tail) {first : Token} {rest : List Token} (begins : first.Begins)
    (passed : ∀ token ∈ first :: rest, token.Passed) (n : Nat)
    (read : .fault ∉ run n ⟨first :: rest ++ [last], .blockNode, [.documentEnd], []⟩ []) :
    ∃ events, Completes tail n ⟨first :: rest ++ [last], .blockNode, [.documentEnd], []⟩
      ⟨first :: rest ++ tail, .documentContent, [.documentEnd], []⟩ events ∧ last = .streamEnd := by
  cases n with
  | zero => simp [run] at read
  | succ n =>
    cases found : step? ⟨first :: rest ++ [last], .blockNode, [.documentEnd], []⟩ with
    | none => exact absurd (run_fault n found) read
    | some after =>
      obtain ⟨event, g'⟩ := after
      have stacked : Stacked [.documentEnd] := rfl
      have same : step? ⟨first :: rest ++ tail, .documentContent, [.documentEnd], []⟩ =
          node? ⟨first :: rest ++ tail, .documentContent, [.documentEnd], []⟩ true false := by
        cases first <;> first | rfl | exact absurd begins id
      have next : Next last tail (depth ⟨first :: rest ++ [last], .blockNode, [.documentEnd], []⟩)
          (weight ⟨first :: rest ++ [last], .blockNode, [.documentEnd], []⟩)
          (step? ⟨first :: rest ++ tail, .documentContent, [.documentEnd], []⟩) event g' := by
        rw [same]
        exact (node_next meets (alike_append passed) stacked true false found).from (Nat.le_refl _) (Nat.le_refl _)
      refine completes_next found next n fun us alike => run_alike meets alike next.settled n ?_
      rw [run_goes n found next.passed] at read
      exact fun member => read (List.mem_cons_of_mem _ member)

theorem document_read {first : Token} {rest : List Token} (kind : last = .fault ∨ last = .streamEnd)
    (begins : first.Begins) (passed : ∀ token ∈ first :: rest, token.Passed) (n : Nat)
    (read : .fault ∉ run n ⟨first :: rest ++ [last], .blockNode, [.documentEnd], []⟩ []) :
    ∃ events, last = .streamEnd ∧
      run n ⟨first :: rest ++ [last], .blockNode, [.documentEnd], []⟩ [] = events ++ [.streamEnd] ∧
      Token.depthFrom 0 (first :: rest) = 0 ∧ Document (first :: rest) events := by
  have settled : ∀ tail, Settled ⟨first :: rest ++ tail, .blockNode, [.documentEnd], []⟩ := fun tail =>
    .inside trivial rfl fun _ opens => by cases opens
  have alone : Meets last [last] := by
    rcases kind with rfl | rfl
    · exact .fault
    · exact .ended
  obtain ⟨events, completes, rfl⟩ := run_alike alone (alike_append passed) (settled [last]) n read
  have level := completes.flat
  have short := completes.short
  refine ⟨events, rfl, completes.alone, ?_, completes.passed, ?_, fun tail meets expect expects => ?_⟩
  · rw [depth, Token.depthFrom, List.foldl_append] at level
    exact level
  · simp only [weight, weightOf, Expect.weight, List.length_append, List.length_cons, List.length_nil] at short ⊢
    omega
  · have other : ∃ events, Completes tail n ⟨first :: rest ++ [.streamEnd], .blockNode, [.documentEnd], []⟩
        ⟨first :: rest ++ tail, expect, [.documentEnd], []⟩ events ∧ Token.streamEnd = .streamEnd := by
      rcases expects with rfl | rfl
      · exact run_alike meets (alike_append passed) (settled [.streamEnd]) n read
      · exact content_alike meets begins passed n read
    obtain ⟨events', completes', -⟩ := other
    obtain rfl := List.append_cancel_right (completes.alone.symm.trans completes'.alone)
    exact completes'.stream

theorem first_step {content : List Token} (begins : ∃ first rest, content = first :: rest ∧ first.Begins)
    (tail : List Token) :
    step? { tokens := content ++ tail } = some (.documentStart, ⟨content ++ tail, .blockNode, [.documentEnd], []⟩) := by
  obtain ⟨first, rest, rfl, begins⟩ := begins
  cases first <;> first | rfl | exact absurd begins id

def starting (contents : List (List Token)) : List Token := contents.flatMap (.documentStart :: ·) ++ [.streamEnd]

def spoken (events : List (List Event)) : List Event := events.flatMap (.documentStart :: ·) ++ [.streamEnd]

theorem spoken_short {contents : List (List Token)} {events : List (List Event)}
    (documents : List.Forall₂ Document contents events) : (spoken events).length ≤ 5 * (starting contents).length := by
  induction documents with
  | nil => exact Nat.le_add_left 1 4
  | cons document _ ih =>
    have short := document.short
    simp only [spoken, starting, List.flatMap_cons, List.length_append, List.length_cons] at ih ⊢
    omega

theorem starting_meets (contents : List (List Token)) : Meets .streamEnd (starting contents) := by
  cases contents with
  | nil => exact .ended
  | cons content rest => exact .next _

theorem marked_step (tokens us : List Token) (handles : List (String × String))
    (here : us.dropWhile (· == .documentEnd) = .documentStart :: tokens) :
    step? ⟨us, .document, [], handles⟩ = some (.documentStart, ⟨tokens, .documentContent, [.documentEnd], []⟩) := by
  have explicit : step? ⟨us, .document, [], handles⟩ =
      explicitDocument? ⟨us.dropWhile (· == .documentEnd), .document, [], handles⟩ := rfl
  rw [explicit, here]
  rfl

theorem ended_step (us : List Token) (handles : List (String × String))
    (here : us.dropWhile (· == .documentEnd) = [.streamEnd]) :
    ∃ g, step? ⟨us, .document, [], handles⟩ = some (.streamEnd, g) := by
  have explicit : step? ⟨us, .document, [], handles⟩ =
      explicitDocument? ⟨us.dropWhile (· == .documentEnd), .document, [], handles⟩ := rfl
  rw [explicit, here]
  exact ⟨_, rfl⟩

theorem run_documents {contents : List (List Token)} {events : List (List Event)}
    (documents : List.Forall₂ Document contents events) (us : List Token) (handles : List (String × String))
    (here : us.dropWhile (· == .documentEnd) = starting contents) (n : Nat) (enough : (spoken events).length ≤ n) :
    run n ⟨us, .document, [], handles⟩ [] = spoken events := by
  induction documents generalizing us handles n with
  | nil =>
    obtain ⟨g, found⟩ := ended_step us handles here
    obtain ⟨n, rfl⟩ := Nat.exists_eq_add_one_of_ne_zero (Nat.ne_of_gt enough)
    exact run_ended n found
  | @cons content event contents events document _ ih =>
    have more : (spoken (event :: events)).length = event.length + 1 + (spoken events).length := by
      simp only [spoken, List.flatMap_cons, List.length_append, List.length_cons]
      omega
    have split : n = n - event.length - 1 + event.length + 1 := by omega
    have found := marked_step (content ++ starting contents) us handles (by rw [here]; simp [starting])
    obtain ⟨us', handles', there, goes⟩ := document.reads _ (starting_meets contents) .documentContent (.inr rfl)
    rw [split, run_goes _ found (by simp), goes, ih us' handles' there _ (by omega)]
    simp [spoken]

end Grammar

open Grammar Scanner

theorem Event.of_text_run (s : String) :
    Event.ofText s = run (5 * (Token.ofText s).length + 4 + 1) { tokens := Token.ofText s } [] := rfl

theorem Event.of_text_document (s : String) {content : List Token} {last : Token}
    (ended : Ended (Token.ofText s) content last) (read : .fault ∉ Event.ofText s) :
    ∃ events, last = .streamEnd ∧ Event.ofText s = spoken [events] ∧
      Token.depthFrom 0 content = 0 ∧ Document content events := by
  rw [Event.of_text_run, ended.tokens] at read ⊢
  rcases ended.begins with begins | ⟨rfl, rfl⟩
  · have started := first_step begins [last]
    rw [run_goes _ started (by simp)] at read ⊢
    obtain ⟨first, rest, rfl, begins⟩ := begins
    obtain ⟨events, ended, alone, level, document⟩ := document_read ended.kind begins ended.passed _
      (fun member => read (List.mem_cons_of_mem _ member))
    exact ⟨events, ended, by rw [alone]; simp [spoken], level, document⟩
  · exact absurd (run_fault _ rfl) read

theorem Event.of_text_stream (s : String) {content : List Token} {contents : List (List Token)} {events : List Event}
    {others : List (List Event)} (tokens : Token.ofText s = content ++ starting contents)
    (begins : ∃ first rest, content = first :: rest ∧ first.Begins) (document : Document content events)
    (documents : List.Forall₂ Document contents others) : Event.ofText s = spoken (events :: others) := by
  obtain ⟨us, handles, there, goes⟩ := document.reads _ (starting_meets contents) .blockNode (.inl rfl)
  have enough : events.length + (spoken others).length ≤ 5 * (content ++ starting contents).length + 4 := by
    have few := spoken_short documents
    have short := document.short
    rw [List.length_append]
    omega
  have split : 5 * (content ++ starting contents).length + 4 =
      5 * (content ++ starting contents).length + 4 - events.length + events.length := by omega
  rw [Event.of_text_run, tokens, run_goes _ (first_step begins (starting contents)) (by simp), split, goes,
    run_documents documents us handles there _ (by omega)]
  simp [spoken]

end ManifestSecrets.Yaml
