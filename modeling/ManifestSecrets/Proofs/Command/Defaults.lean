import ManifestSecrets.Proofs.Command.Arguments
import ManifestSecrets.Command.Basic

set_option autoImplicit false

namespace ManifestSecrets

namespace Form

variable (form : Form) (a b : Environment)

def SameDefaults : Prop := ∀ o ∈ form.options, o.2.variableName.bind a = o.2.variableName.bind b

theorem from_environment_same (same : form.SameDefaults a b) (g : Given) :
    fromEnvironment a g form.options = fromEnvironment b g form.options := by
  unfold SameDefaults at same
  generalize form.options = options at same
  induction options with
  | nil => rfl
  | cons option rest ih =>
    obtain ⟨agree, later⟩ := List.forall_mem_cons.mp same
    simp only [fromEnvironment, ih later, agree]

theorem finish_same (same : form.SameDefaults a b) (g : Given) (command : Option (String × Matched)) :
    form.finish a g command = form.finish b g command := by
  simp only [finish, form.from_environment_same a b same]

theorem read_rest_same (same : form.SameDefaults a b) (g : Given) (slots : List Slot) (args : List String) :
    form.readRest a g slots args = form.readRest b g slots args := by
  induction args generalizing g slots with
  | nil =>
    rw [readRest, readRest]
    exact form.finish_same a b same g none
  | cons arg rest ih =>
    cases slots with
    | nil => rfl
    | cons slot others => simp only [readRest, ih]

-- The induction is on the arguments of one form; those of a command under it are read by that command's own form.
theorem read_same (same : form.SameDefaults a b)
    (below : ∀ name sub, form.command? name = some sub →
      ∀ args, sub.read a {} sub.operands args = sub.read b {} sub.operands args)
    (g : Given) (slots : List Slot) (args : List String) :
    form.read a g slots args = form.read b g slots args := by
  induction args generalizing g slots with
  | nil =>
    simp only [read]
    exact form.finish_same a b same g none
  | cons arg rest ih =>
    simp only [read, ih, form.finish_same a b same, form.read_rest_same a b same]
    split
    next sub command =>
      split at command
      · cases command
      · simp only [below arg sub command rest]
    next => rfl

theorem read_leaf_same (leaf : form.commands = []) (same : form.SameDefaults a b) (args : List String) :
    form.read a {} form.operands args = form.read b {} form.operands args := by
  refine form.read_same a b same (fun name sub found => ?_) {} form.operands args
  simp [form.command_of_leaf leaf name] at found

theorem command_among (name : String) (sub : Form) (found : form.command? name = some sub) :
    sub ∈ form.commands.map Prod.snd ∨ sub = helpCommand := by
  unfold command? at found
  split at found
  next listed =>
    obtain rfl := Option.some.inj found
    exact .inl (List.mem_map.mpr ⟨_, KeyMap.find_mem listed, rfl⟩)
  next =>
    split at found
    · exact .inr (Option.some.inj found).symm
    · cases found

end Form

namespace Command

variable (a b : Environment)

theorem bare_same (args : List String) : bare.read a {} bare.operands args = bare.read b {} bare.operands args :=
  bare.read_leaf_same a b rfl (List.forall_mem_nil _) args

theorem settings_form_same (args : List String) :
    settingsForm.read a {} settingsForm.operands args = settingsForm.read b {} settingsForm.operands args := by
  refine settingsForm.read_same a b (List.forall_mem_singleton.mpr rfl) (fun name sub found => ?_) {} _ args
  rcases settingsForm.command_among name sub found with listed | rfl
  · obtain rfl : sub = bare := by simpa [settingsForm, Form.commands, SettingsAction.names] using listed
    exact bare_same a b
  · exact bare_same a b

theorem generate_form_same (same : a Variable.pathPrefix.name = b Variable.pathPrefix.name) (args : List String) :
    generateForm.read a {} generateForm.operands args = generateForm.read b {} generateForm.operands args := by
  refine generateForm.read_leaf_same a b rfl ?_ args
  simp only [Form.SameDefaults, generateForm, Form.options, List.forall_mem_cons]
  exact ⟨rfl, rfl, same, List.forall_mem_nil _⟩

theorem parse_same (same : a Variable.pathPrefix.name = b Variable.pathPrefix.name) (args : List String) :
    parse a args = parse b args := by
  have matched : form.matchAll a args = form.matchAll b args := by
    refine form.read_same a b (List.forall_mem_nil _) (fun name sub found => ?_) {} _ args
    rcases form.command_among name sub found with listed | rfl
    · have among : sub = generateForm ∨ sub = settingsForm ∨ sub = bare := by
        simpa [form, Form.commands] using listed
      rcases among with rfl | rfl | rfl
      · exact generate_form_same a b same
      · exact settings_form_same a b
      · exact bare_same a b
    · exact bare_same a b
  rw [parse, parse, matched]

end Command

end ManifestSecrets
