import ManifestSecrets.Proofs.Command.Defaults
import ManifestSecrets.Proofs.Command.PathPrefix
import ManifestSecrets.Proofs.Environment.File
import ManifestSecrets.Proofs.Settings.Redacted

/-!
The command that displays settings. It says the same for an environment and for that environment with its credentials
masked, so it never tells one credential from another. Only the file of variables can bring them into its output, by
copying one into another variable, and a credential that is no text counts as none.
-/

set_option autoImplicit false

namespace ManifestSecrets

namespace Settings

def Loaded.redacted (l : Loaded) : Loaded := { l with settings := l.settings.redacted }

theorem load_masked (files : FileTree) (environment : Environment) (path : Option FilePath) :
    (load files environment.masked path).map Loaded.redacted = (load files environment path).map Loaded.redacted := by
  have masked (s : Settings) := s.override_masked environment
  simp only [Overridden.redacted, Overridden.mk.injEq] at masked
  rw [load_of_file, load_of_file]
  cases ofFile files path with
  | error f => rfl
  | ok s => simp only [Except.map, Loaded.redacted, masked s]

end Settings

namespace Command

def displayed (loaded : Except Failure Settings.Loaded) : Run Failure String :=
  match loaded with
  | .ok l => ⟨l.logs, .ok (l.settings.redacted.toYaml ++ "\n")⟩
  | .error f => ⟨[], .error f⟩

theorem run_display_loaded (w : World) (file : Option String) :
    runDisplay w file = displayed (Settings.load w.files w.environment (file.map Text.utf8)) := by
  change Run.andThen (Run.andThen ⟨[], Settings.load w.files w.environment (file.map Text.utf8)⟩ _) _ = _
  cases Settings.load w.files w.environment (file.map Text.utf8) with
  | error f => rfl
  | ok l => simp [Run.andThen, displayed, pure]

theorem displayed_redacted (loaded : Except Failure Settings.Loaded) :
    displayed (loaded.map Settings.Loaded.redacted) = displayed loaded := by
  cases loaded with
  | error f => rfl
  | ok l =>
    simp only [displayed, Except.map, Settings.Loaded.redacted, Settings.redacted_redacted]
    rfl

theorem run_display_masked (w : World) (other : Environment) (same : other.masked = w.environment.masked)
    (file : Option String) : runDisplay { w with environment := other } file = runDisplay w file := by
  have masks (e : Environment) :
      displayed (Settings.load w.files e.masked (file.map Text.utf8)) =
        displayed (Settings.load w.files e (file.map Text.utf8)) := by
    rw [← displayed_redacted, Settings.load_masked, displayed_redacted]
  rw [run_display_loaded, run_display_loaded, ← masks other, ← masks w.environment, same]

theorem run_display_alike (w : World) (other : Environment)
    (alike : w.environment.AlikeBut Variable.credentialNames other) (file : Option String) :
    run { w with environment := other } (.settings file .display) = run w (.settings file .display) := by
  have displays := run_display_masked w other (Environment.masked_alike _ _ alike).symm file
  simp only [run, displays]
  rfl

theorem display_discreet (w : World) (other : Environment)
    (differ : w.environment.DifferIn Variable.credentialNames other) :
    (∀ file, run { w with environment := other } (.settings file .display) = run w (.settings file .display)) ∧
      ((∀ name, name ∉ Variable.credentialNames →
          w.environment.withFile w.files name = other.withFile w.files name) →
        ∀ args file, parse (ready w).environment args = .ok (.settings file .display) →
          runArguments { w with environment := other } args = runArguments w args) ∧
      ∀ s t : Settings, s.Alike t → s.redacted.toYaml = t.redacted.toYaml := by
  refine ⟨run_display_alike w other differ.alike, fun added args file parsed => ?_, fun s t same => ?_⟩
  · have readied := Environment.with_file_alike differ.alike w.files added
    have prefixes : (ready w).environment Variable.pathPrefix.name = other.withFile w.files Variable.pathPrefix.name :=
      added _ (by decide)
    have reads : parse (other.withFile w.files) args = .ok (.settings file .display) := by
      rw [← parse_same _ _ prefixes args, parsed]
    rw [run_arguments_ready w args _ parsed, run_arguments_ready { w with environment := other } args _ reads]
    exact run_display_alike (ready w) _ readied file
  · rw [(s.redacted_eq_iff t).mpr same]

def credentialed (secretId token : String) : Environment := .ofTexts fun name =>
  if name = "AVP_SECRET_ID" then some secretId else if name = "VAULT_TOKEN" then some token else none

theorem credentialed_differ (x y x' y' : String) (filled : x ≠ "" ∧ y ≠ "" ∧ x' ≠ "" ∧ y' ≠ "") :
    (credentialed x y).DifferIn Variable.credentialNames (credentialed x' y') := by
  have bytes (text : String) (filled : text ≠ "") : Text.utf8 text ≠ [] := by
    intro empty
    have same := Text.of_utf8_utf8 text
    rw [empty] at same
    exact filled (Option.some.inj same).symm
  have names (name : String) : name ∈ Variable.credentialNames ↔ name = "AVP_SECRET_ID" ∨ name = "VAULT_TOKEN" := by
    simp [Variable.credentialNames, Variable.credentials, Variable.name]
  refine ⟨fun name credential => ?_, fun name credential => ?_, fun name other => ?_⟩
  · rcases (names name).mp credential with rfl | rfl
    · exact ⟨_, _, rfl, bytes x filled.1, rfl, bytes x' filled.2.2.1⟩
    · exact ⟨_, _, rfl, bytes y filled.2.1, rfl, bytes y' filled.2.2.2⟩
  · rcases (names name).mp credential with rfl | rfl
    · rw [credentialed, credentialed, Environment.text_of_texts, Environment.text_of_texts]
      rfl
    · rw [credentialed, credentialed, Environment.text_of_texts, Environment.text_of_texts]
      rfl
  · obtain ⟨noSecret, noToken⟩ := not_or.mp (mt (names name).mpr other)
    simp only [credentialed, Environment.ofTexts, if_neg noSecret, if_neg noToken]

def addressed : FileTree :=
  { entries := [([".env"], .ofText "VAULT_ADDR=http://dot\n"), (["c.json"], .ofText appFile)] }

theorem addressed_offers (environment : Environment) :
    environment.withFile addressed = environment.offer "VAULT_ADDR" "http://dot" := by
  rfl

def displayArguments : List String := ["config", "-c", "c.json", "show"]

def displayWorld (files : FileTree) (environment : Environment) : World where
  files := files
  input := .directory
  environment := environment
  server := .unreachable "no connection"
  web := .usual

theorem display_discreet_addressed :
    (credentialed "id-1" "s.one").DifferIn Variable.credentialNames (credentialed "id-2" "s.two") ∧
      (∀ name, name ∉ Variable.credentialNames →
        (credentialed "id-1" "s.one").withFile addressed name =
          (credentialed "id-2" "s.two").withFile addressed name) ∧
      parse (ready (displayWorld addressed (credentialed "id-1" "s.one"))).environment displayArguments =
        .ok (.settings (some "c.json") .display) ∧
      runArguments (displayWorld addressed (credentialed "id-2" "s.two")) displayArguments =
        runArguments (displayWorld addressed (credentialed "id-1" "s.one")) displayArguments ∧
      (runArguments (displayWorld addressed (credentialed "id-1" "s.one")) displayArguments).output =
        Text.utf8 ("vault:\n  address: http://dot\n  pathPrefix: secret/app\n  kvVersion: 1\n  timeoutSecs: 30\n  auth:\n"
          ++ "    method: token\n    secretId: '***'\n    token: '***'\nlogging:\n  format: text\n\n") ∧
      (({} : Settings).withCredentials (some "id-1") none).Alike (({} : Settings).withCredentials (some "id-2") none) ∧
      (({} : Settings).withCredentials (some "id-1") none).redacted.toYaml =
        (({} : Settings).withCredentials (some "id-2") none).redacted.toYaml := by
  have differ := credentialed_differ "id-1" "s.one" "id-2" "s.two" (by decide)
  have added : ∀ name, name ∉ Variable.credentialNames →
      (credentialed "id-1" "s.one").withFile addressed name =
        (credentialed "id-2" "s.two").withFile addressed name := by
    intro name other
    rw [addressed_offers, addressed_offers]
    have unset : (credentialed "id-1" "s.one").text? "VAULT_ADDR" = none ∧
        (credentialed "id-2" "s.two").text? "VAULT_ADDR" = none := by decide
    simp only [Environment.offer, unset.1, unset.2, differ.same name other]
  have parsed : parse (ready (displayWorld addressed (credentialed "id-1" "s.one"))).environment displayArguments =
      .ok (.settings (some "c.json") .display) := ok_of_to_option (by decide +kernel)
  have alike : (({} : Settings).withCredentials (some "id-1") none).Alike
      (({} : Settings).withCredentials (some "id-2") none) := ⟨rfl, rfl, rfl⟩
  obtain ⟨-, runs, texts⟩ := display_discreet (displayWorld addressed (credentialed "id-1" "s.one")) _ differ
  exact ⟨differ, added, parsed, runs added displayArguments _ parsed, by decide +kernel, alike, texts _ _ alike⟩

-- The file of variables writes the token into another variable, which is no credential.
def copying : FileTree := { entries := [([".env"], .ofText "VAULT_NAMESPACE=$\x7bVAULT_TOKEN\x7d\n")] }

def shown (address token : String) : String :=
  "vault:\n" ++ address ++ "  kvVersion: 1\n  timeoutSecs: 30\n  auth:\n    method: approle\n    secretId: '***'\n"
    ++ token ++ "logging:\n  format: text\n\n"

def unreadable : Environment := fun name =>
  if name = "VAULT_TOKEN" then some [0xFF] else credentialed "id" "s.one" name

def displayedWith (files : FileTree) (environment : Environment) : List UInt8 :=
  (runArguments (displayWorld files environment) ["config", "show"]).output

-- A token that is copied is shown, and one that is no text is not even hidden.
theorem credentials_displayed :
    ((credentialed "id" "s.one").DifferIn Variable.credentialNames (credentialed "id" "s.two") ∧
      displayedWith copying (credentialed "id" "s.one") = Text.utf8 (shown "  namespace: s.one\n" "    token: '***'\n") ∧
      displayedWith copying (credentialed "id" "s.two") = Text.utf8 (shown "  namespace: s.two\n" "    token: '***'\n") ∧
      displayedWith copying (credentialed "id" "s.one") ≠ displayedWith copying (credentialed "id" "s.two")) ∧
    (∃ x y, credentialed "id" "s.one" "VAULT_TOKEN" = some x ∧ x ≠ [] ∧ unreadable "VAULT_TOKEN" = some y ∧ y ≠ []) ∧
      (∀ name, name ≠ "VAULT_TOKEN" → credentialed "id" "s.one" name = unreadable name) ∧
      displayedWith { entries := [] } (credentialed "id" "s.one") = Text.utf8 (shown "" "    token: '***'\n") ∧
      displayedWith { entries := [] } unreadable = Text.utf8 (shown "" "") ∧
      displayedWith { entries := [] } (credentialed "id" "s.one") ≠ displayedWith { entries := [] } unreadable := by
  have first : displayedWith copying (credentialed "id" "s.one") =
      Text.utf8 (shown "  namespace: s.one\n" "    token: '***'\n") := by decide +kernel
  have second : displayedWith copying (credentialed "id" "s.two") =
      Text.utf8 (shown "  namespace: s.two\n" "    token: '***'\n") := by decide +kernel
  have hidden : displayedWith { entries := [] } (credentialed "id" "s.one") =
      Text.utf8 (shown "" "    token: '***'\n") := by decide +kernel
  have dropped : displayedWith { entries := [] } unreadable = Text.utf8 (shown "" "") := by decide +kernel
  refine ⟨⟨credentialed_differ "id" "s.one" "id" "s.two" (by decide), first, second, ?_⟩,
    ⟨Text.utf8 "s.one", [0xFF], by rfl, by decide, by rfl, by decide⟩, fun name other => ?_, hidden, dropped, ?_⟩
  · rw [first, second]
    decide
  · simp only [unreadable, if_neg other]
  · rw [hidden, dropped]
    decide

end Command

end ManifestSecrets
