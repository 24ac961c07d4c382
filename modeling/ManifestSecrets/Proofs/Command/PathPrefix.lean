import ManifestSecrets.Proofs.Command.Arguments
import ManifestSecrets.Proofs.Command.Generate
import ManifestSecrets.Proofs.Settings.Layers

/-!
The path prefix that a generation validates and asks for: of the arguments, else of the environment, else of the
file. A variable that is set to nothing counts as the prefix of the arguments, though it overrides nothing else.
-/

set_option autoImplicit false

namespace ManifestSecrets

namespace Settings

theorem path_prefix_overridden (s : Settings) (environment : Environment) :
    (s.override environment).settings.vault.pathPrefix =
      (Variable.pathPrefix.text? environment <|> s.vault.pathPrefix) := by
  have field : (s.override environment).settings.vault.pathPrefix =
      (Variable.pathPrefix.given? environment).getD s.vault.pathPrefix := s.field_override environment .pathPrefix
  rw [field, Variable.given?]
  cases Variable.pathPrefix.text? environment <;> rfl

def ofFile (files : FileTree) (path : Option FilePath) : Except Failure Settings :=
  (path <|> candidates.find? files.has).elim (.ok {}) (read files)

theorem load_of_file (files : FileTree) (environment : Environment) (path : Option FilePath) :
    load files environment path = (ofFile files path).map fun s =>
      ⟨(s.override environment).settings, path <|> candidates.find? files.has, (s.override environment).ignored⟩ := by
  change (ofFile files path >>= _) = _
  cases ofFile files path <;> rfl

theorem prefix_problem_iff (naming : Url.Naming) (s : Settings) :
    .noPathPrefix ∈ s.problems naming ↔ VaultSettings.isBlankText (s.vault.pathPrefix.getD "") = true := by
  have address : .noPathPrefix ∉ s.vault.addressProblems naming := by
    unfold VaultSettings.addressProblems
    split
    · simp
    · split
      · split <;> simp
      · simp
  have auth : .noPathPrefix ∉ VaultSettings.authProblems s.vault.auth := by
    unfold VaultSettings.authProblems
    split
    · split <;> split <;> simp
    · split <;> simp
  have timeout : .noPathPrefix ∉ (if s.vault.timeoutSecs = 0 then [Problem.noTimeout] else []) := by
    split <;> simp
  simp only [problems, VaultSettings.problems, List.mem_append, address, auth, timeout, false_or, or_false]
  cases s.vault.pathPrefix with
  | none => simp [VaultSettings.isBlankText, Text.trim, Text.trimBy]
  | some text => simp

end Settings

namespace Command

theorem parse_generate (environment : Environment) (args : List String) (options : GenerateOptions)
    (parsed : parse environment args = .ok (.generate options)) :
    ∃ rest inner, args = "generate" :: rest ∧ generateForm.read environment {} [pathSlot] rest = .ok inner ∧
      options.pathPrefix = inner.text? prefixSlot.name := by
  obtain ⟨m, matched, ok⟩ := bind_ok parsed
  obtain ⟨name, sub, rest, inner, rfl, command, accepted, inside⟩ :=
    form.read_dispatch_ok environment rfl rfl args m matched
  unfold ofMatched at ok
  rw [inside] at ok
  split at ok
  next same =>
    obtain ⟨rfl, rfl⟩ := Prod.mk.inj (Option.some.inj same)
    obtain rfl : generateForm = sub := Option.some.inj command
    unfold ofGenerate at ok
    split at ok
    · obtain rfl := Command.generate.inj (Except.ok.inj ok)
      exact ⟨rest, inner, rfl, accepted, rfl⟩
    · cases ok
  next =>
    unfold ofSettings at ok
    split at ok <;> cases ok
  next => cases ok
  next => cases ok

def givenPrefix (args : List String) : Option String :=
  KeyMap.find? prefixSlot.name (generateForm.spelled none args.tail)

theorem path_prefix_parsed (environment : Environment) (args : List String) (options : GenerateOptions)
    (parsed : parse environment args = .ok (.generate options)) :
    options.pathPrefix = (givenPrefix args <|> environment.text? Variable.pathPrefix.name) := by
  obtain ⟨rest, inner, rfl, accepted, text⟩ := parse_generate environment args options parsed
  have distinct : (generateForm.options.map fun o => o.2.name).Nodup := by decide
  have apart : ∀ slot ∈ [pathSlot], slot.name ≠ prefixSlot.name := by decide
  rw [text, generateForm.read_text environment rfl distinct {} [pathSlot] rest inner accepted _ apart]
  rfl

theorem load_settings_result (w : World) (file : Option String) :
    (loadSettings w file).result =
      (Settings.ofFile w.files (file.map Text.utf8)).map fun s => (s.override w.environment).settings := by
  rw [loadSettings, Run.bind_result]
  change (Settings.load w.files w.environment (file.map Text.utf8) >>= _) = _
  rw [Settings.load_of_file]
  cases Settings.ofFile w.files (file.map Text.utf8) <;> rfl

def chosen (w : World) (options : GenerateOptions) (fromFile : Settings) : Settings :=
  withPrefix (fromFile.override w.environment).settings options.pathPrefix

theorem run_generate_chosen (w : World) (options : GenerateOptions) (fromFile : Settings)
    (read : Settings.ofFile w.files (options.settingsFile.map Text.utf8) = .ok fromFile) :
    (runGenerate w options).result =
      (storeFor w (chosen w options fromFile) options.secretsFile >>= fun store =>
        (Manifest.generate w.files w.input options.path store ((chosen w options fromFile).vault.pathPrefix.getD "")
          { server := w.server, web := w.web }).run).result := by
  rw [runGenerate, Run.bind_result, load_settings_result, read]
  rfl

theorem path_prefix_chosen (w : World) (args : List String) (options : GenerateOptions) (fromFile : Settings)
    (parsed : parse w.environment args = .ok (.generate options)) :
    (chosen w options fromFile).vault.pathPrefix =
      (givenPrefix args <|> w.environment.text? Variable.pathPrefix.name <|> fromFile.vault.pathPrefix) := by
  rw [chosen, withPrefix, path_prefix_parsed _ args options parsed, Settings.path_prefix_overridden, Variable.text?]
  cases givenPrefix args <;> cases w.environment.text? Variable.pathPrefix.name <;> simp

-- A variable that is set to nothing is no override: the prefix stays that of the file.
def settledPrefix (w : World) (args : List String) (fromFile : Settings) : Option String :=
  givenPrefix args <|> Variable.pathPrefix.text? w.environment <|> fromFile.vault.pathPrefix

theorem path_prefix_settled_iff (w : World) (args : List String) (options : GenerateOptions) (fromFile : Settings)
    (parsed : parse w.environment args = .ok (.generate options)) :
    (chosen w options fromFile).vault.pathPrefix.getD "" = (settledPrefix w args fromFile).getD "" ↔
      (givenPrefix args).isSome = true ∨ w.environment.text? Variable.pathPrefix.name ≠ some "" ∨
        fromFile.vault.pathPrefix.getD "" = "" := by
  rw [path_prefix_chosen w args options fromFile parsed, settledPrefix, Variable.text?]
  cases givenPrefix args with
  | some text => simp
  | none =>
    cases w.environment.text? Variable.pathPrefix.name with
    | none => simp
    | some text =>
      by_cases empty : text = ""
      · simp [empty, Option.filter_some, @eq_comm _ ""]
      · simp [empty, Option.filter_some]

theorem path_prefix_of_generation (w : World) (args : List String) (options : GenerateOptions) (fromFile : Settings)
    (parsed : parse (ready w).environment args = .ok (.generate options))
    (read : Settings.ofFile w.files (options.settingsFile.map Text.utf8) = .ok fromFile) :
    let settings := chosen (ready w) options fromFile
    runArguments w args = ended (ready w) failing (runGenerate (ready w) options) ∧
      (runGenerate (ready w) options).result =
        (storeFor (ready w) settings options.secretsFile >>= fun store =>
          (Manifest.generate w.files w.input options.path store (settings.vault.pathPrefix.getD "")
            { server := w.server, web := w.web }).run).result ∧
      (.noPathPrefix ∈ settings.problems w.web.naming ↔
        VaultSettings.isBlankText (settings.vault.pathPrefix.getD "") = true) ∧
      settings.vault.pathPrefix =
        (givenPrefix args <|> (ready w).environment.text? Variable.pathPrefix.name <|> fromFile.vault.pathPrefix) ∧
      (settings.vault.pathPrefix.getD "" = (settledPrefix (ready w) args fromFile).getD "" ↔
        (givenPrefix args).isSome = true ∨ (ready w).environment.text? Variable.pathPrefix.name ≠ some "" ∨
          fromFile.vault.pathPrefix.getD "" = "") :=
  ⟨run_arguments_ready w args _ parsed, run_generate_chosen (ready w) options fromFile read,
    Settings.prefix_problem_iff _ _, path_prefix_chosen (ready w) args options fromFile parsed,
    path_prefix_settled_iff (ready w) args options fromFile parsed⟩

def appFile : String :=
  "\x7b\"vault\":\x7b\"address\":\"http://vault\",\"pathPrefix\":\"secret/app\",\"auth\":\x7b\"method\":\"token\",\"token\":\"t\"\x7d\x7d\x7d"

def appSettings : Settings where
  vault := {
    address := some "http://vault", pathPrefix := some "secret/app", auth := { method := .token, token := some "t" } }

-- The file has a prefix, and the variable is set to nothing.
def emptyVariable : World where
  files := { entries := [(["c.json"], .ofText appFile)] }
  input := .directory
  environment := .ofTexts fun name => if name = "VAULT_PATH_PREFIX" then some "" else none
  server := .unreachable "no connection"
  web := .usual

theorem app_file_read : Settings.ofFile emptyVariable.files (some (Text.utf8 "c.json")) = .ok appSettings :=
  ok_of_to_option (by decide +kernel)

theorem path_prefix_of_generation_team :
    parse (ready emptyVariable).environment ["generate", "m.yaml", "-c", "c.json", "-p", "team/a"] =
        .ok (.generate ⟨"m.yaml", some "c.json", none, some "team/a"⟩) ∧
      Settings.ofFile emptyVariable.files (some (Text.utf8 "c.json")) = .ok appSettings ∧
      (chosen (ready emptyVariable) ⟨"m.yaml", some "c.json", none, some "team/a"⟩ appSettings).vault.pathPrefix =
        some "team/a" := by
  have parsed : parse (ready emptyVariable).environment ["generate", "m.yaml", "-c", "c.json", "-p", "team/a"] =
      .ok (.generate ⟨"m.yaml", some "c.json", none, some "team/a"⟩) := ok_of_to_option (by decide)
  have given : givenPrefix ["generate", "m.yaml", "-c", "c.json", "-p", "team/a"] = some "team/a" := by decide
  obtain ⟨-, -, -, text, -⟩ := path_prefix_of_generation emptyVariable _ _ appSettings parsed app_file_read
  rw [given] at text
  exact ⟨parsed, app_file_read, text⟩

theorem empty_variable_overrides :
    parse (ready emptyVariable).environment ["generate", "m.yaml", "-c", "c.json"] =
        .ok (.generate ⟨"m.yaml", some "c.json", none, some ""⟩) ∧
      Settings.ofFile emptyVariable.files (some (Text.utf8 "c.json")) = .ok appSettings ∧
      settledPrefix (ready emptyVariable) ["generate", "m.yaml", "-c", "c.json"] appSettings = some "secret/app" ∧
      (chosen (ready emptyVariable) ⟨"m.yaml", some "c.json", none, some ""⟩ appSettings).vault.pathPrefix = some "" ∧
      (runArguments emptyVariable ["generate", "m.yaml", "-c", "c.json"]).exitCode = 1 ∧
      (runArguments emptyVariable ["generate", "m.yaml", "-c", "c.json"]).report =
        "Error: Configuration validation failed:\nvault.pathPrefix: Secret path prefix is required (VAULT_PATH_PREFIX)\n" :=
  ⟨ok_of_to_option (by decide +kernel), app_file_read, by decide +kernel, by decide +kernel, by decide +kernel,
    by decide +kernel⟩

end Command

end ManifestSecrets
