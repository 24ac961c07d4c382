import ManifestSecrets.Command.Arguments
import ManifestSecrets.Proofs.Document
import ManifestSecrets.Proofs.KeyMap

/-!
What accepted arguments come to, next to a plain scan of them. The reader looks at a value late and has a state
between two arguments; the scan only pairs each option with its value. Of arguments that are accepted, both give
every option the same text.
-/

set_option autoImplicit false

namespace ManifestSecrets

namespace Given

def held (g : Given) : List (String × String) :=
  g.texts ++ match g.last with
    | some ⟨slot, some text⟩ => [(slot.name, text)]
    | _ => []

def awaited? (g : Given) : Option Slot :=
  match g.last with
  | some ⟨slot, none⟩ => some slot
  | _ => none

variable (g : Given)

theorem waiting_iff : g.isWaiting = true ↔ g.awaited?.isSome = true := by
  unfold isWaiting awaited?
  rcases g.last with _ | ⟨slot, _ | text⟩ <;> simp

theorem settle_ok (settled : Given) (ok : g.settle = .ok settled) : g.awaited? = none ∧ settled = ⟨g.held, none⟩ := by
  obtain ⟨texts, last⟩ := g
  unfold settle at ok
  rcases last with _ | ⟨slot, _ | text⟩
  · simp [awaited?, held, ← Except.ok.inj ok]
  · cases ok
  · simp only at ok
    split at ok
    · cases ok
    · split at ok
      · cases ok
      · simp [awaited?, held, ← Except.ok.inj ok]

theorem open_ok (slot : Slot) (text : Option String) (opened : Given) (ok : g.open? slot text = .ok opened) :
    g.awaited? = none ∧ opened = ⟨g.held, some ⟨slot, text⟩⟩ := by
  obtain ⟨settled, settles, ok⟩ := bind_ok ok
  obtain ⟨free, rfl⟩ := g.settle_ok settled settles
  exact ⟨free, (Except.ok.inj ok).symm⟩

theorem settle_waiting (waits : g.isWaiting = true) : g.settle = .error .valueMissing := by
  obtain ⟨texts, last⟩ := g
  unfold isWaiting at waits
  rcases last with _ | ⟨slot, _ | text⟩
  · cases waits
  · rfl
  · cases waits

theorem open_waiting (waits : g.isWaiting = true) (slot : Slot) (text : Option String) :
    g.open? slot text = .error .valueMissing := by
  rw [open?, g.settle_waiting waits]
  rfl

theorem fill_held (slot : Slot) (text : String) (waits : g.awaited? = some slot) :
    (g.fill text).held = g.held ++ [(slot.name, text)] ∧ (g.fill text).awaited? = none := by
  obtain ⟨texts, last⟩ := g
  rcases last with _ | ⟨other, _ | value⟩
  · simp [awaited?] at waits
  · obtain rfl : other = slot := by simpa [awaited?] using waits
    simp [fill, held, awaited?]
  · simp [awaited?] at waits

end Given

namespace Form

theorem give_ok (g : Given) (slot : Slot) (value : Option String) (next : Given) (ok : give g slot value = .ok next) :
    g.awaited? = none ∧ next.held = g.held ++ (value.map fun text => (slot.name, text)).toList ∧
      next.awaited? = if value.isNone then some slot else none := by
  cases value with
  | none =>
    obtain ⟨free, rfl⟩ := g.open_ok slot none next ok
    exact ⟨free, by simp [Given.held], rfl⟩
  | some text =>
    obtain ⟨opened, opens, settles⟩ := bind_ok ok
    obtain ⟨free, rfl⟩ := g.open_ok slot (some text) opened opens
    obtain ⟨-, rfl⟩ := Given.settle_ok _ next settles
    exact ⟨free, by simp [Given.held], rfl⟩

theorem ask_failed (g : Given) (fault : ArgumentFault) : ∃ reason, ask g fault = .error reason := by
  unfold ask
  cases g.settle with
  | error reason => exact ⟨reason, rfl⟩
  | ok settled => exact ⟨fault, rfl⟩

variable (form : Form) (environment : Environment)

def option? (arg : String) : Option (Slot × Option String) :=
  match Argument.ofText arg with
  | .long name value => (form.optionNamed? name).map fun slot => (slot, value)
  | .short letter value => (form.optionLettered? letter).map fun slot => (slot, value)
  | _ => none

-- The options that arguments spell, each with its value, which may be the next argument. Two dashes end them.
def spelled : Option Slot → List String → List (String × String)
  | _, [] => []
  | some slot, text :: rest => (slot.name, text) :: spelled none rest
  | none, arg :: rest =>
      if arg = "--" then []
      else
        match form.option? arg with
        | some (slot, some text) => (slot.name, text) :: spelled none rest
        | some (slot, none) => spelled (some slot) rest
        | none => spelled none rest

theorem option_of_long (arg name : String) (value : Option String) (shape : Argument.ofText arg = .long name value)
    (slot : Slot) (named : form.optionNamed? name = some slot) : form.option? arg = some (slot, value) := by
  simp [option?, shape, named]

theorem option_of_short (arg : String) (letter : Char) (value : Option String)
    (shape : Argument.ofText arg = .short letter value) (slot : Slot)
    (lettered : form.optionLettered? letter = some slot) : form.option? arg = some (slot, value) := by
  simp [option?, shape, lettered]

theorem option_of_plain (arg : String) (shape : Argument.ofText arg = .plain) : form.option? arg = none := by
  simp [option?, shape]

theorem read_long_ok (g next : Given) (name : String) (value : Option String)
    (ok : form.readLong g name value = .ok next) :
    ∃ slot, form.optionNamed? name = some slot ∧ give g slot value = .ok next := by
  unfold readLong at ok
  cases named : form.optionNamed? name with
  | some slot => exact ⟨slot, rfl, by simpa only [named] using ok⟩
  | none =>
    simp only [named] at ok
    split at ok
    next fault asked =>
      obtain ⟨reason, failed⟩ := ask_failed g fault
      rw [failed] at ok
      split at ok <;> cases ok
    next => cases ok

theorem read_short_ok (g next : Given) (letter : Char) (value : Option String)
    (ok : form.readShort g letter value = .ok next) :
    ∃ slot, form.optionLettered? letter = some slot ∧ give g slot value = .ok next := by
  unfold readShort at ok
  cases lettered : form.optionLettered? letter with
  | some slot => exact ⟨slot, rfl, by simpa only [lettered] using ok⟩
  | none =>
    simp only [lettered] at ok
    split at ok
    next fault asked =>
      obtain ⟨reason, failed⟩ := ask_failed g fault
      rw [failed] at ok
      cases ok
    next => cases ok

theorem finish_ok (g : Given) (command : Option (String × Matched)) (m : Matched)
    (ok : form.finish environment g command = .ok m) :
    g.awaited? = none ∧ ∃ found, fromEnvironment environment ⟨g.held, none⟩ form.options = .ok found ∧
      m = .mk (g.held ++ found) command := by
  obtain ⟨settled, settles, ok⟩ := bind_ok ok
  obtain ⟨free, rfl⟩ := g.settle_ok settled settles
  by_cases commandless : (command.isNone && !form.commands.isEmpty) = true
  · rw [if_pos commandless] at ok
    cases ok
  · rw [if_neg commandless] at ok
    obtain ⟨found, looked, ok⟩ := bind_ok ok
    split at ok
    · cases ok
    · exact ⟨free, found, looked, (Except.ok.inj ok).symm⟩

theorem command_of_leaf (leaf : form.commands = []) (name : String) : form.command? name = none := by
  simp [command?, leaf, KeyMap.find?]

theorem read_command (g : Given) (free : g.isWaiting = false) (slots : List Slot) (arg : String) (rest : List String)
    (sub : Form) (isCommand : form.command? arg = some sub) (known : arg ≠ "help") :
    form.read environment g slots (arg :: rest) =
      (sub.read environment {} sub.operands rest >>= fun inner => form.finish environment g (some (arg, inner))) := by
  simp only [read, free, isCommand, if_neg known, Bool.false_eq_true, if_false]

theorem finish_without_command (g : Given) (parent : form.commands.isEmpty = false) (m : Matched) :
    form.finish environment g none ≠ .ok m := by
  intro ok
  obtain ⟨settled, -, ok⟩ := bind_ok ok
  simp only [parent, Option.isNone_none, Bool.not_false, Bool.and_self, if_true] at ok
  cases ok

theorem read_dispatch_ok (bare : form.options = []) (parent : form.commands.isEmpty = false) (args : List String)
    (m : Matched) (ok : form.read environment {} [] args = .ok m) :
    ∃ name sub rest inner, args = name :: rest ∧ form.command? name = some sub ∧
      sub.read environment {} sub.operands rest = .ok inner ∧ m.command? = some (name, inner) := by
  have unnamed (name : String) : form.optionNamed? name = none := by simp [optionNamed?, bare]
  have unlettered (letter : Char) : form.optionLettered? letter = none := by simp [optionLettered?, bare]
  cases args with
  | nil =>
    simp only [read] at ok
    exact absurd ok (form.finish_without_command environment {} parent m)
  | cons arg rest =>
    cases command : form.command? arg with
    | some sub =>
      by_cases help : arg = "help"
      · simp only [read, Given.isWaiting, command, if_pos help, Bool.false_eq_true, if_false] at ok
        cases ok
      · rw [form.read_command environment {} rfl [] arg rest sub command help] at ok
        obtain ⟨inner, accepted, ok⟩ := bind_ok ok
        obtain ⟨-, found, -, rfl⟩ := form.finish_ok environment {} _ m ok
        exact ⟨arg, sub, rest, inner, rfl, command, accepted, rfl⟩
    | none =>
      simp only [read, Given.isWaiting, command, Bool.false_eq_true, if_false] at ok
      cases shape : Argument.ofText arg with
      | rest =>
        simp only [shape] at ok
        cases rest with
        | nil =>
          rw [readRest] at ok
          exact absurd ok (form.finish_without_command environment {} parent m)
        | cons next rest => cases ok
      | long name value =>
        simp only [shape] at ok
        obtain ⟨next, given, -⟩ := bind_ok ok
        obtain ⟨slot, found, -⟩ := form.read_long_ok {} next name value given
        simp [unnamed] at found
      | short letter value =>
        simp only [shape] at ok
        obtain ⟨next, given, -⟩ := bind_ok ok
        obtain ⟨slot, found, -⟩ := form.read_short_ok {} next letter value given
        simp [unlettered] at found
      | plain =>
        simp only [shape] at ok
        cases ok

theorem read_cons_ok (leaf : form.commands = []) (g : Given) (slots : List Slot) (arg : String) (rest : List String)
    (m : Matched) (ok : form.read environment g slots (arg :: rest) = .ok m) :
    (∃ slot, g.awaited? = some slot ∧ form.read environment (g.fill arg) slots rest = .ok m) ∨
    (Argument.ofText arg = .rest ∧ form.readRest environment g slots rest = .ok m) ∨
    (∃ slot value next, Argument.ofText arg ≠ .rest ∧ form.option? arg = some (slot, value) ∧
      give g slot value = .ok next ∧ form.read environment next slots rest = .ok m) ∨
    (∃ slot others next, Argument.ofText arg = .plain ∧ slots = slot :: others ∧
      g.open? slot (some arg) = .ok next ∧ form.read environment next others rest = .ok m) := by
  simp only [read, command_of_leaf form leaf arg, ite_self] at ok
  cases shape : Argument.ofText arg with
  | rest => exact .inr (.inl ⟨rfl, by simpa only [shape] using ok⟩)
  | long name value =>
    simp only [shape] at ok
    obtain ⟨next, given, ok⟩ := bind_ok ok
    obtain ⟨slot, named, gives⟩ := form.read_long_ok g next name value given
    exact .inr (.inr (.inl
      ⟨slot, value, next, by simp, form.option_of_long arg name value shape slot named, gives, ok⟩))
  | short letter value =>
    simp only [shape] at ok
    obtain ⟨next, given, ok⟩ := bind_ok ok
    obtain ⟨slot, lettered, gives⟩ := form.read_short_ok g next letter value given
    exact .inr (.inr (.inl
      ⟨slot, value, next, by simp, form.option_of_short arg letter value shape slot lettered, gives, ok⟩))
  | plain =>
    simp only [shape] at ok
    by_cases waits : g.isWaiting = true
    · rw [if_pos waits] at ok
      exact .inl ⟨_, (Option.some_get ((g.waiting_iff).mp waits)).symm, ok⟩
    · rw [if_neg waits] at ok
      cases slots with
      | nil => cases ok
      | cons slot others =>
        obtain ⟨next, opened, ok⟩ := bind_ok ok
        exact .inr (.inr (.inr ⟨slot, others, next, rfl, rfl, opened, ok⟩))

def ambient? (name : String) : Option String :=
  (form.optionNamed? name).bind fun slot => slot.variableName.bind environment.text?

theorem from_environment_cons (g : Given) (letter : Char) (slot : Slot) (rest : List (Char × Slot))
    (found : List (String × String)) (ok : fromEnvironment environment g ((letter, slot) :: rest) = .ok found) :
    ∃ others, fromEnvironment environment g rest = .ok others ∧
      found = (if (g.text? slot.name).isSome then none else slot.variableName.bind environment.text?).elim others
        fun text => (slot.name, text) :: others := by
  obtain ⟨others, looked, ok⟩ := bind_ok ok
  refine ⟨others, looked, ?_⟩
  have texts : slot.variableName.bind environment.text? = (slot.variableName.bind environment).bind Text.ofUtf8? := by
    cases slot.variableName <;> rfl
  rw [texts]
  cases given : g.text? slot.name with
  | some text =>
    simp only [given] at ok
    exact (Except.ok.inj ok).symm
  | none =>
    cases set : slot.variableName.bind environment with
    | none =>
      simp only [given, set] at ok
      exact (Except.ok.inj ok).symm
    | some value =>
      simp only [given, set] at ok
      rw [Option.bind_some]
      cases read : Text.ofUtf8? value with
      | none =>
        simp only [read] at ok
        cases ok
      | some text =>
        simp only [read] at ok
        exact (Except.ok.inj ok).symm

theorem find_from_environment (distinct : (form.options.map fun o => o.2.name).Nodup) (g : Given)
    (found : List (String × String)) (ok : fromEnvironment environment g form.options = .ok found) (name : String)
    (absent : g.text? name = none) : KeyMap.find? name found = form.ambient? environment name := by
  rw [ambient?, optionNamed?]
  generalize form.options = options at distinct ok
  induction options generalizing found with
  | nil =>
    obtain rfl := Except.ok.inj ok
    rfl
  | cons option rest ih =>
    obtain ⟨letter, slot⟩ := option
    obtain ⟨others, looked, rfl⟩ := from_environment_cons environment g letter slot rest found ok
    simp only [List.map_cons, List.nodup_cons] at distinct
    have later := ih others distinct.2 looked
    by_cases here : slot.name = name
    · subst here
      have unnamed : rest.find? (fun o => o.2.name == slot.name) = none := by
        simp only [List.find?_eq_none, beq_iff_eq]
        exact fun o member same => distinct.1 (List.mem_map.mpr ⟨o, member, same⟩)
      rw [unnamed] at later
      cases set : slot.variableName.bind environment.text? with
      | none => simpa [absent, set] using later
      | some text => simp [absent, set, KeyMap.find?]
    · have passed : KeyMap.find? name ((if (g.text? slot.name).isSome then none
          else slot.variableName.bind environment.text?).elim others fun text => (slot.name, text) :: others) =
          KeyMap.find? name others := by
        cases (if (g.text? slot.name).isSome then none else slot.variableName.bind environment.text?) with
        | none => rfl
        | some text => simp [KeyMap.find?, Ne.symm here]
      rw [passed, later]
      simp [here]

theorem finish_text (distinct : (form.options.map fun o => o.2.name).Nodup) (g : Given)
    (command : Option (String × Matched)) (m : Matched) (ok : form.finish environment g command = .ok m)
    (name : String) : m.text? name = (KeyMap.find? name g.held <|> form.ambient? environment name) := by
  obtain ⟨-, found, looked, rfl⟩ := form.finish_ok environment g command m ok
  rw [Matched.text?, KeyMap.find_append_or]
  cases held : KeyMap.find? name g.held with
  | some text => rfl
  | none => rw [form.find_from_environment environment distinct _ found looked name held]

theorem of_text_rest (arg : String) (shape : Argument.ofText arg = .rest) : arg = "--" := by
  unfold Argument.ofText at shape
  split at shape
  next chars => exact String.toList_injective chars
  all_goals cases shape

theorem read_rest_text (distinct : (form.options.map fun o => o.2.name).Nodup) (g : Given) (slots : List Slot)
    (args : List String) (m : Matched) (ok : form.readRest environment g slots args = .ok m) (name : String)
    (apart : ∀ slot ∈ slots, slot.name ≠ name) :
    g.awaited? = none ∧ m.text? name = (KeyMap.find? name g.held <|> form.ambient? environment name) := by
  induction args generalizing g slots with
  | nil =>
    rw [readRest] at ok
    exact ⟨(form.finish_ok environment g none m ok).1, form.finish_text environment distinct g none m ok name⟩
  | cons arg rest ih =>
    cases slots with
    | nil => cases ok
    | cons slot others =>
      obtain ⟨next, opened, ok⟩ := bind_ok ok
      obtain ⟨free, rfl⟩ := g.open_ok slot (some arg) next opened
      obtain ⟨-, text⟩ := ih _ others ok fun other member => apart other (List.mem_cons_of_mem _ member)
      refine ⟨free, ?_⟩
      rw [text, Given.held, KeyMap.find_append_or]
      simp [KeyMap.find?, Ne.symm (apart slot List.mem_cons_self)]

-- The induction is on the arguments; what the reader holds so far goes in front of what the scan still finds.
theorem read_text (leaf : form.commands = []) (distinct : (form.options.map fun o => o.2.name).Nodup) (g : Given)
    (slots : List Slot) (args : List String) (m : Matched) (ok : form.read environment g slots args = .ok m)
    (name : String) (apart : ∀ slot ∈ slots, slot.name ≠ name) :
    m.text? name =
      (KeyMap.find? name (g.held ++ form.spelled g.awaited? args) <|> form.ambient? environment name) := by
  induction args generalizing g slots with
  | nil =>
    have text := form.finish_text environment distinct g none m ok name
    simpa [spelled] using text
  | cons arg rest ih =>
    rcases form.read_cons_ok environment leaf g slots arg rest m ok with
      ⟨slot, waits, ok⟩ | ⟨shape, ok⟩ | ⟨slot, value, next, shape, option, gives, ok⟩ |
      ⟨slot, others, next, shape, rfl, opened, ok⟩
    · obtain ⟨held, free⟩ := g.fill_held slot arg waits
      rw [ih _ slots ok apart, held, free, waits, spelled, List.append_assoc, List.singleton_append]
    · obtain ⟨free, text⟩ := form.read_rest_text environment distinct g slots rest m ok name apart
      simp [text, free, spelled, of_text_rest arg shape]
    · obtain ⟨free, held, awaits⟩ := give_ok g slot value next gives
      have dashed : arg ≠ "--" := fun dashes => shape (by subst dashes; rfl)
      rw [ih next slots ok apart, held, awaits, free, spelled, if_neg dashed, option]
      cases value with
      | none => simp
      | some text => simp
    · obtain ⟨free, rfl⟩ := g.open_ok slot (some arg) next opened
      have dashed : arg ≠ "--" := by
        rintro rfl
        cases shape
      have other := Ne.symm (apart slot List.mem_cons_self)
      rw [ih _ others ok fun other member => apart other (List.mem_cons_of_mem _ member), free, spelled,
        if_neg dashed, form.option_of_plain arg shape]
      simp [Given.held, Given.awaited?, KeyMap.find_append_or, KeyMap.find?, other]

theorem give_waiting (g : Given) (waits : g.isWaiting = true) (slot : Slot) (value : Option String) :
    give g slot value = .error .valueMissing := by
  cases value with
  | none => exact g.open_waiting waits slot none
  | some text =>
    rw [give, Given.take, g.open_waiting waits slot (some text)]
    rfl

theorem read_long_waiting (g : Given) (waits : g.isWaiting = true) (name : String) (value : Option String) :
    ∃ fault, form.readLong g name value = .error fault ∧ fault.exitCode = 2 := by
  unfold readLong
  split
  next slot found => exact ⟨.valueMissing, give_waiting g waits slot value, rfl⟩
  next =>
    split
    next fault asked =>
      cases value with
      | none => exact ⟨.valueMissing, by simp [ask, g.settle_waiting waits, bind, Except.bind], rfl⟩
      | some text => exact ⟨.valueUnexpected, rfl, rfl⟩
    next => exact ⟨.unknownArgument, rfl, rfl⟩

theorem read_short_waiting (g : Given) (waits : g.isWaiting = true) (letter : Char) (value : Option String) :
    ∃ fault, form.readShort g letter value = .error fault ∧ fault.exitCode = 2 := by
  unfold readShort
  split
  next slot found => exact ⟨.valueMissing, give_waiting g waits slot value, rfl⟩
  next =>
    split
    next fault asked => exact ⟨.valueMissing, by simp [ask, g.settle_waiting waits, bind, Except.bind], rfl⟩
    next => exact ⟨.unknownArgument, rfl, rfl⟩

theorem surplus_code (afterDashes : Bool) (arg : String) : (form.surplus afterDashes arg).exitCode = 2 := by
  unfold surplus
  split <;> rfl

theorem read_rest_waiting (g : Given) (waits : g.isWaiting = true) (slots : List Slot) (args : List String) :
    ∃ fault, form.readRest environment g slots args = .error fault ∧ fault.exitCode = 2 := by
  cases args with
  | nil => exact ⟨.valueMissing, by simp [readRest, finish, g.settle_waiting waits, bind, Except.bind], rfl⟩
  | cons arg rest =>
    cases slots with
    | nil => exact ⟨_, rfl, form.surplus_code true arg⟩
    | cons slot others =>
      exact ⟨.valueMissing, by simp [readRest, g.open_waiting waits, bind, Except.bind], rfl⟩

theorem read_value (g : Given) (waits : g.isWaiting = true) (slots : List Slot) (arg : String) (rest : List String)
    (plain : Argument.ofText arg = .plain) :
    form.read environment g slots (arg :: rest) = form.read environment (g.fill arg) slots rest := by
  simp only [read, waits, plain, if_true]

theorem read_no_value (g : Given) (waits : g.isWaiting = true) (slots : List Slot) (arg : String) (rest : List String)
    (other : Argument.ofText arg ≠ .plain) :
    ∃ fault, form.read environment g slots (arg :: rest) = .error fault ∧ fault.exitCode = 2 := by
  simp only [read, waits, if_true]
  cases shape : Argument.ofText arg with
  | rest => exact form.read_rest_waiting environment g waits slots rest
  | long name value =>
    obtain ⟨fault, failed, code⟩ := form.read_long_waiting g waits name value
    exact ⟨fault, by simp only [failed, bind, Except.bind], code⟩
  | short letter value =>
    obtain ⟨fault, failed, code⟩ := form.read_short_waiting g waits letter value
    exact ⟨fault, by simp only [failed, bind, Except.bind], code⟩
  | plain => exact absurd shape other

end Form

end ManifestSecrets
