import Mathlib.Data.List.Forall2
import ManifestSecrets.Yaml.Stream
import ManifestSecrets.Proofs.Document
import ManifestSecrets.Proofs.Yaml.Events

set_option autoImplicit false

namespace ManifestSecrets.Yaml

-- Whatever comes after the events, the documents of them are found before its own.
def Adds (events : List Event) (c c' : Composer) (found : List Composed) : Prop :=
  ∀ rest seen, composeAll (events ++ rest) c seen = composeAll rest c' ((found.map some).reverse ++ seen)

def Fails (events : List Event) (c : Composer) : Prop := ∀ rest seen, none ∈ composeAll (events ++ rest) c seen

theorem Adds.append {first second : List Event} {a b c : Composer} {found later : List Composed}
    (adds : Adds first a b found) (more : Adds second b c later) : Adds (first ++ second) a c (found ++ later) := by
  intro rest seen
  rw [List.append_assoc, adds, more]
  simp

theorem Adds.fails {first second : List Event} {a b : Composer} {found : List Composed} (adds : Adds first a b found)
    (fails : Fails second b) : Fails (first ++ second) a := by
  intro rest seen
  rw [List.append_assoc, adds]
  exact fails rest _

theorem compose_taken (event : Event) (whole : event ≠ .fault) (c : Composer)
    (takes : ∀ rest seen, composeAll (event :: rest) c seen =
      match c.take? event with
      | some c => composeAll rest c seen
      | none => (none :: seen).reverse) :
    (event ≠ .fault ∧ ∃ c' found, Adds [event] c c' found) ∨ Fails [event] c := by
  cases taken : c.take? event with
  | none => exact .inr fun rest seen => by simp [takes, taken]
  | some c' => exact .inl ⟨whole, c', [], fun rest seen => by simp [takes, taken]⟩

theorem compose_event (event : Event) (other : event ≠ .streamEnd) (c : Composer) :
    (event ≠ .fault ∧ ∃ c' found, Adds [event] c c' found) ∨ Fails [event] c := by
  cases event with
  | streamEnd => exact absurd rfl other
  | fault => exact .inr fun rest seen => by simp [composeAll]
  | documentStart => exact .inl ⟨by simp, {}, [], fun _ _ => rfl⟩
  | documentEnd => exact .inl ⟨by simp, {}, [c.finish], fun _ _ => rfl⟩
  | _ => exact compose_taken _ (by simp) c fun _ _ => rfl

theorem compose_events (events : List Event) (passed : .streamEnd ∉ events) (c : Composer) :
    (.fault ∉ events ∧ ∃ c' found, Adds events c c' found) ∨ Fails events c := by
  induction events generalizing c with
  | nil => exact .inl ⟨List.not_mem_nil, c, [], fun _ _ => rfl⟩
  | cons event events ih =>
    obtain ⟨here, later⟩ := List.ne_and_not_mem_of_not_mem_cons passed
    rcases compose_event event here.symm c with ⟨whole, c', found, adds⟩ | fails
    · refine (ih later c').imp (fun ⟨clean, c'', more, also⟩ => ⟨?_, c'', found ++ more, adds.append also⟩) adds.fails
      exact List.not_mem_cons_of_ne_of_not_mem whole.symm clean
    · exact .inr fun rest seen => fails (events ++ rest) seen

def Reads (document : Option Composed) (value : Yaml) : Prop := document.bind Composed.value? = some value

theorem read_from_ok_iff (index : Nat) (documents : List (Option Composed)) (values : List Yaml) :
    readFrom index documents = .ok values ↔ List.Forall₂ Reads documents values := by
  induction documents generalizing index values with
  | nil =>
    rw [List.forall₂_nil_left_iff, readFrom, Except.ok.injEq, eq_comm]
  | cons document rest ih =>
    rw [List.forall₂_cons_left_iff, readFrom]
    cases found : document.bind Composed.value? with
    | none => simp [Reads, found]
    | some value =>
      rw [bind_ok_iff]
      constructor
      · rintro ⟨later, read, same⟩
        exact ⟨value, later, found, (ih _ _).mp read, (Except.ok.inj same).symm⟩
      · rintro ⟨other, later, here, read, rfl⟩
        obtain rfl := Option.some.inj (found.symm.trans here)
        exact ⟨later, (ih _ _).mpr read, rfl⟩

theorem none_unread (documents : List (Option Composed)) (fails : none ∈ documents) (values : List Yaml) :
    ¬ List.Forall₂ Reads documents values := by
  intro reads
  induction reads with
  | nil => cases fails
  | cons here _ ih =>
    rcases List.mem_cons.mp fails with rfl | later
    · cases here
    · exact ih later

open Grammar Scanner

theorem read_all_ok_iff (s : String) (values : List Yaml) :
    readAll s = .ok values ↔ List.Forall₂ Reads (composeAll (Event.ofText s) {} []) values :=
  read_from_ok_iff 0 _ values

theorem events_whole (s : String) (values : List Yaml) (read : readAll s = .ok values) : .fault ∉ Event.ofText s := by
  rw [read_all_ok_iff, Event.of_text_run] at read
  rw [Event.of_text_run]
  obtain ⟨events, last, same, passed, kind⟩ :=
    Grammar.run_ends (5 * (Token.ofText s).length + 4 + 1) { tokens := Token.ofText s }
  rw [same] at read ⊢
  rcases compose_events events passed {} with ⟨clean, c', found, adds⟩ | fails
  · rcases kind with rfl | rfl
    · rw [adds] at read
      exact absurd read (none_unread _ (by simp [composeAll]) values)
    · simpa using clean
  · exact absurd read (none_unread _ (fails [last] []) values)

structure Single (s : String) (value : Yaml) : Prop where
  starts : ∃ x rest, s.toList = x :: rest ∧ x.isAlpha = true
  closed : Closed s.toList
  read : readAll s = .ok [value]
  present : value.isNull = false

def AddsOne (events : List Event) (document : Composed) : Prop :=
  ∃ c', ∀ c, Adds (.documentStart :: events) c c' [document]

theorem compose_end (c : Composer) (document : Composed) (more : List Composed) :
    composeAll [.streamEnd] c ((List.map some (document :: more)).reverse ++ []) = some document :: more.map some := by
  simp [composeAll]

theorem adds_one (events : List Event) (passed : .streamEnd ∉ events) (value : Yaml) (present : value.isNull = false)
    (read : List.Forall₂ Reads (composeAll (spoken [events]) {} []) [value]) :
    ∃ document, AddsOne events document ∧ Reads document value := by
  have same : composeAll (spoken [events]) {} [] = composeAll (events ++ [.streamEnd]) {} [] := by
    simp [spoken, composeAll]
  rw [same] at read
  rcases compose_events events passed {} with ⟨-, c', found, adds⟩ | fails
  · rw [adds] at read
    cases found with
    | nil =>
      -- A stream without a document is null.
      obtain ⟨void, -⟩ := List.forall₂_cons.mp read
      cases show Option.some Yaml.null = _ from void
      cases present
    | cons document more =>
      rw [compose_end] at read
      obtain ⟨reads, unread⟩ := List.forall₂_cons.mp read
      obtain rfl := List.map_eq_nil_iff.mp (List.forall₂_nil_right_iff.mp unread)
      exact ⟨document, ⟨c', fun c rest seen => adds rest seen⟩, reads⟩
  · exact absurd read (none_unread _ (fails _ _) _)

theorem balanced_reverse (content : List Token) : Token.depth content.reverse = Token.depthFrom 0 content :=
  List.foldr_reverse

theorem Single.document {s : String} {value : Yaml} (single : Single s value) :
    ∃ content events document, Part s.toList content ∧ (∃ first rest, content = first :: rest ∧ first.Begins) ∧
      Grammar.Document content events ∧ AddsOne events document ∧ Reads document value := by
  have whole := events_whole s [value] single.read
  obtain ⟨content, last, ended⟩ := Token.of_text_ends s single.closed single.starts
  obtain ⟨events, rfl, spoken, level, document⟩ := Event.of_text_document s ended whole
  have read := (read_all_ok_iff s [value]).mp single.read
  rw [spoken] at read
  obtain ⟨found, adds, reads⟩ := adds_one events document.passed value single.present read
  have part : Part s.toList content := Token.of_text_part s content ended.tokens (fun member => ended.passed _ member)
    (by rw [balanced_reverse, level]) single.closed single.starts
  exact ⟨content, events, found, part, ended.begins.resolve_right (by simp), document, adds, reads⟩

theorem adds_all {events : List (List Event)} {documents : List Composed}
    (adds : List.Forall₂ AddsOne events documents) (c : Composer) :
    ∃ c', Adds (events.flatMap (.documentStart :: ·)) c c' documents := by
  induction adds generalizing c with
  | nil => exact ⟨c, fun _ _ => rfl⟩
  | cons here _ ih =>
    obtain ⟨c', one⟩ := here
    obtain ⟨c'', others⟩ := ih c'
    exact ⟨c'', (one c).append others⟩

theorem singles_documents {texts : List String} {values : List Yaml} (singles : List.Forall₂ Single texts values) :
    ∃ contents events documents, List.Forall₂ Part (texts.map String.toList) contents ∧
      List.Forall₂ Grammar.Document contents events ∧ List.Forall₂ AddsOne events documents ∧
      List.Forall₂ Reads (documents.map some) values := by
  induction singles with
  | nil => exact ⟨[], [], [], .nil, .nil, .nil, .nil⟩
  | cons single _ ih =>
    obtain ⟨content, event, document, part, -, spoken, adds, reads⟩ := single.document
    obtain ⟨contents, events, documents, parts, others, more, later⟩ := ih
    exact ⟨content :: contents, event :: events, document :: documents, .cons part parts, .cons spoken others,
      .cons adds more, .cons reads later⟩

theorem intercalate_marked (first : String) (later : List String) :
    ("---\n".intercalate (first :: later)).toList = first.toList ++ marked (later.map String.toList) := by
  rw [String.toList_intercalate, List.map_cons]
  generalize first.toList = text
  induction later generalizing text with
  | nil => simp [marked]
  | cons other rest ih =>
    rw [List.map_cons, List.intercalate_cons_cons, ih]
    simp [marked]

theorem read_all_stream {texts : List String} {values : List Yaml} (singles : List.Forall₂ Single texts values)
    (filled : texts ≠ []) : readAll ("---\n".intercalate texts) = .ok values := by
  cases singles with
  | nil => exact absurd rfl filled
  | @cons text value texts values single others =>
    obtain ⟨content, event, document, part, begins, spoken, adds, reads⟩ := single.document
    obtain ⟨contents, events, documents, parts, others, more, later⟩ := singles_documents others
    have tokens := Token.of_text_stream _ (intercalate_marked text texts) part parts
    rw [List.append_assoc] at tokens
    rw [read_all_ok_iff, Event.of_text_stream _ tokens begins spoken others]
    obtain ⟨c', all⟩ := adds_all (.cons adds more) {}
    rw [Grammar.spoken, all, compose_end]
    exact .cons reads later

end ManifestSecrets.Yaml
