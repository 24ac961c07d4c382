import ManifestSecrets.Environment.File
import ManifestSecrets.Proofs.Text.Utf8

set_option autoImplicit false

namespace ManifestSecrets.Environment

theorem text_of_texts (texts : String → Option String) (name : String) : (ofTexts texts).text? name = texts name := by
  rw [text?, ofTexts]
  cases texts name with
  | none => rfl
  | some value => exact Text.of_utf8_utf8 value

theorem text_offer (environment : Environment) (added value : String) :
    (environment.offer added value).text? added = some ((environment.text? added).getD value) := by
  rw [text?, offer, if_pos rfl]
  exact Text.of_utf8_utf8 _

theorem text_offer_other (environment : Environment) (added value name : String) (other : name ≠ added) :
    (environment.offer added value).text? name = environment.text? name := by
  rw [text?, offer, if_neg other, text?]

theorem offer_kept (environment : Environment) (added value name old : String)
    (set : environment.text? name = some old) : (environment.offer added value).text? name = some old := by
  by_cases same : name = added
  · subst same
    rw [text_offer, set, Option.getD_some]
  · rw [environment.text_offer_other added value name same, set]

theorem read_lines_kept (environment : Environment) (before : KeyMap String) (lines : List (List Char))
    (name old : String) (set : environment.text? name = some old) :
    (readLines environment before lines).text? name = some old := by
  induction lines generalizing environment before with
  | nil => exact set
  | cons line rest ih =>
    rw [readLines]
    rcases readLine? (valueOf environment before) line with _ | _ | ⟨added, value⟩
    · exact set
    · exact ih environment before set
    · exact ih _ _ (environment.offer_kept added value name old set)

section Alike

variable {one other : String → String} (alike : ∀ name, one name = "" ↔ other name = "")

include alike

-- A value is empty or not by how it is written and by which of the values that it refers to are empty.
theorem step_value_alike (state : ValueState) (c : Char) :
    (stepValue? one state c).map (fun r => (r.1, decide (r.2 = []))) =
      (stepValue? other state c).map (fun r => (r.1, decide (r.2 = []))) := by
  cases state with
  | name quoted letters =>
    simp only [stepValue?]
    split
    · rfl
    · split
      · rfl
      · split <;> simp [alike]
  | braced quoted letters =>
    simp only [stepValue?]
    split <;> simp [alike]
  | _ => rfl

theorem read_value_alike (state : ValueState) (cs : List Char) :
    (readValue? one state cs).map (fun value => decide (value = [])) =
      (readValue? other state cs).map (fun value => decide (value = [])) := by
  induction cs generalizing state with
  | nil =>
    cases state with
    | name quoted letters => cases quoted <;> simp [readValue?, endValue?, alike]
    | _ => rfl
  | cons c rest ih =>
    have steps := step_value_alike alike state c
    simp only [readValue?]
    rcases first : stepValue? one state c with _ | ⟨after, added⟩ <;>
      rcases second : stepValue? other state c with _ | ⟨_, added'⟩ <;> simp [first, second] at steps
    · rfl
    · obtain ⟨rfl, empty⟩ := steps
      have rests := ih after
      rcases read : readValue? one after rest with _ | value <;>
        rcases read' : readValue? other after rest with _ | value' <;> simp [read, read'] at rests
      · simp [read, read']
      · simp [read, read', empty, rests]

theorem read_line_alike (line : List Char) :
    (readLine? one line).map (Option.map fun r => (r.1, decide (r.2 = ""))) =
      (readLine? other line).map (Option.map fun r => (r.1, decide (r.2 = ""))) := by
  simp only [readLine?]
  split
  · rfl
  · rcases splitAssignment? (Text.trimBy Text.isBlank line) with _ | ⟨name, text⟩
    · rfl
    · have values := read_value_alike alike (.bare false) text
      simp only [Option.bind_eq_bind, Option.bind_some]
      split
      · rfl
      · rcases read : readValue? one (.bare false) text with _ | value <;>
          rcases read' : readValue? other (.bare false) text with _ | value' <;> simp [read, read'] at values
        · rfl
        · simp [values]

end Alike

-- Alike but for the texts of these names, which are there, and empty, in both or in neither.
structure AlikeBut (names : List String) (a b : Environment) : Prop where
  texts : ∀ name ∈ names,
    (a.text? name).map (fun text => decide (text = "")) = (b.text? name).map (fun text => decide (text = ""))
  same : ∀ name, name ∉ names → a name = b name

def Covers (environment : Environment) (before : KeyMap String) : Prop :=
  ∀ name, environment.text? name = none → KeyMap.find? name before = none

theorem covers_offer (environment : Environment) (before : KeyMap String) (added value : String)
    (covers : environment.Covers before) :
    (environment.offer added value).Covers (KeyMap.insert added value before) := by
  intro name unset
  have other : name ≠ added := by
    rintro rfl
    simp [text_offer] at unset
  rw [KeyMap.find_insert_other added name value before other]
  rw [environment.text_offer_other added value name other] at unset
  exact covers name unset

theorem value_of_covered (environment : Environment) (before : KeyMap String) (covers : environment.Covers before)
    (name : String) : valueOf environment before name = if name = "" then "" else (environment.text? name).getD "" := by
  rw [valueOf]
  cases set : environment.text? name with
  | none => rw [covers name set]; rfl
  | some value => rfl

section AlikeBut

variable {names : List String} {a b : Environment}

theorem AlikeBut.text (alike : AlikeBut names a b) (name : String) :
    (a.text? name).map (fun text => decide (text = "")) = (b.text? name).map (fun text => decide (text = "")) := by
  by_cases member : name ∈ names
  · exact alike.texts name member
  · rw [text?, text?, alike.same name member]

theorem AlikeBut.get_text (alike : AlikeBut names a b) (name x y : String) (empty : x = "" ↔ y = "") :
    (a.text? name).getD x = "" ↔ (b.text? name).getD y = "" := by
  have texts := alike.text name
  rcases first : a.text? name with _ | s <;> rcases second : b.text? name with _ | t <;> simp [first, second] at texts
  · exact empty
  · exact texts

theorem AlikeBut.value (alike : AlikeBut names a b) (before before' : KeyMap String) (covers : a.Covers before)
    (covers' : b.Covers before') (name : String) : valueOf a before name = "" ↔ valueOf b before' name = "" := by
  rw [value_of_covered a before covers, value_of_covered b before' covers']
  split
  · exact Iff.rfl
  · exact alike.get_text name "" "" Iff.rfl

-- What is offered for a name that is not one of them is the same, since the environments are the same in the end.
theorem AlikeBut.offer (alike : AlikeBut names a b) (added x y : String) (empty : x = "" ↔ y = "")
    (agree : added ∉ names → a.text? added = none → x = y) : AlikeBut names (a.offer added x) (b.offer added y) where
  texts name member := by
    by_cases same : name = added
    · subst same
      simp only [text_offer, Option.map_some, alike.get_text name x y empty]
    · rw [a.text_offer_other added x name same, b.text_offer_other added y name same]
      exact alike.texts name member
  same name other := by
    simp only [Environment.offer]
    split
    · next same =>
      subst same
      have texts : a.text? name = b.text? name := by rw [text?, text?, alike.same name other]
      cases unset : a.text? name with
      | none => rw [← texts, unset, agree other unset]
      | some old => rw [← texts, unset]; rfl
    · exact alike.same name other

theorem read_lines_alike (alike : AlikeBut names a b) (before before' : KeyMap String) (covers : a.Covers before)
    (covers' : b.Covers before') (lines : List (List Char))
    (added : ∀ name, name ∉ names → readLines a before lines name = readLines b before' lines name) :
    AlikeBut names (readLines a before lines) (readLines b before' lines) := by
  induction lines generalizing a b before before' with
  | nil => exact alike
  | cons line rest ih =>
    have reads := read_line_alike (alike.value before before' covers covers') line
    simp only [readLines] at added ⊢
    rcases first : readLine? (valueOf a before) line with _ | _ | ⟨name, x⟩ <;>
      rcases second : readLine? (valueOf b before') line with _ | _ | ⟨_, y⟩ <;>
      simp [first, second] at reads added ⊢
    · exact alike
    · exact ih alike before before' covers covers' added
    · obtain ⟨rfl, empty⟩ := reads
      have agree : name ∉ names → a.text? name = none → x = y := by
        intro other unset
        have unset' : b.text? name = none := by
          rw [text?, ← alike.same name other]
          exact unset
        have one := read_lines_kept _ (KeyMap.insert name x before) rest name x (by rw [a.text_offer name x, unset]; rfl)
        have two := read_lines_kept _ (KeyMap.insert name y before') rest name y (by rw [b.text_offer name y, unset']; rfl)
        rw [text?, added name other, ← text?, two] at one
        exact (Option.some.inj one).symm
      exact ih (alike.offer name x y empty agree) _ _ (a.covers_offer before name x covers)
        (b.covers_offer before' name y covers') added

theorem with_file_alike (alike : AlikeBut names a b) (files : FileTree)
    (added : ∀ name, name ∉ names → a.withFile files name = b.withFile files name) :
    AlikeBut names (a.withFile files) (b.withFile files) := by
  simp only [withFile] at added ⊢
  split
  · next found =>
    simp only [found] at added
    exact read_lines_alike alike [] [] (fun _ _ => rfl) (fun _ _ => rfl) _ added
  · exact alike

end AlikeBut

end ManifestSecrets.Environment
