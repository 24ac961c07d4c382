import ManifestSecrets.Proofs.Command.PathPrefix
import ManifestSecrets.Proofs.Settings.File

set_option autoImplicit false

namespace ManifestSecrets

namespace Settings

theorem override_unset (s : Settings) (environment : Environment)
    (unset : ∀ v : Variable, v.text? environment = none) : s.override environment = ⟨s, []⟩ := by
  simp [override, Variable.all, overrideBy, unset]

theorem load_of_read (files : FileTree) (environment : Environment) (path : FilePath) (s : Settings)
    (fromFile : read files path = .ok s) : load files environment (some path) =
      .ok ⟨(s.override environment).settings, some path, (s.override environment).ignored⟩ := by
  change (read files path >>= _) = _
  rw [fromFile]
  rfl

theorem load_unread (files : FileTree) (environment : Environment) (path : FilePath) (f : Failure)
    (failed : read files path = .error f) : load files environment (some path) = .error f := by
  change (read files path >>= _) = _
  rw [failed]
  rfl

theorem load_unset_iff (files : FileTree) (environment : Environment) (unset : ∀ v : Variable, v.text? environment = none)
    (path : FilePath) (s : Settings) :
    load files environment (some path) = .ok ⟨s, some path, []⟩ ↔ read files path = .ok s := by
  cases fromFile : read files path with
  | error f => simp [load_unread files environment path f fromFile]
  | ok found => simp [load_of_read files environment path found fromFile, override_unset found environment unset]

theorem read_missing (files : FileTree) (path : FilePath) (fault : FileFault)
    (missing : files.look path = .error fault) :
    read files path = .error ⟨.file fault, ["Cannot stat config file" ++ FileTree.inQuotes path]⟩ := by
  have text : files.readText noun path = .error ⟨.file fault, ["Cannot stat config file" ++ FileTree.inQuotes path]⟩ := by
    rw [FileTree.readText, missing]
    rfl
  rw [read, readValue, text]
  rfl

theorem readable_of_read (files : FileTree) (path : FilePath) (s : Settings) (ok : read files path = .ok s)
    (content : ByteArray) (access : Access) (here : files.look path = .ok (.file content access)) :
    access.reading = none := by
  by_contra closed
  obtain ⟨fault, reading⟩ := Option.ne_none_iff_exists'.mp closed
  have unread : (FileEntry.file content access).text = .error fault := by
    simp only [FileEntry.text, FileEntry.bytes, FileEntry.access, reading]
    rfl
  have failed : ∃ f, files.readText noun path = .error f := by
    rw [FileTree.readText, here]
    simp only [unread]
    split
    · exact ⟨_, rfl⟩
    · exact ⟨_, rfl⟩
  obtain ⟨f, failed⟩ := failed
  rw [read, readValue, failed] at ok
  cases ok

end Settings

namespace Command

open Form

def createArguments (path : String) : List String := ["config", "--config", path, "init"]

def named : Given := { last := some ⟨configSlot, none⟩ }

theorem match_create (environment : Environment) (path : String) :
    form.matchAll environment (createArguments path) =
      (settingsForm.read environment named [] [path, "init"] >>= fun inner =>
        form.finish environment {} (some ("config", inner))) := by
  rw [matchAll, createArguments]
  change form.read environment {} [] _ = _
  rw [form.read_command environment {} rfl [] "config" _ settingsForm rfl (by decide)]
  rfl

theorem parse_create (environment : Environment) (path : String) (plain : Argument.ofText path = .plain) :
    parse environment (createArguments path) = .ok (.settings (some path) .create) := by
  have inner : bare.read environment {} bare.operands [] = .ok (.mk [] none) := by rfl
  have settled : (named.fill path).settle = .ok ⟨[("config", path)], none⟩ := by
    simp [named, Given.fill, Given.settle, Given.text?, KeyMap.find?, configSlot]
  have matched : settingsForm.read environment named [] [path, "init"] =
      .ok (.mk [("config", path)] (some ("init", .mk [] none))) := by
    rw [settingsForm.read_value environment named rfl [] path ["init"] plain,
      settingsForm.read_command environment _ rfl [] "init" [] bare rfl (by decide), inner]
    change settingsForm.finish environment _ _ = _
    rw [finish, settled]
    rfl
  rw [parse, match_create, matched]
  rfl

theorem parse_create_refused (environment : Environment) (path : String) (option : Argument.ofText path ≠ .plain) :
    ∃ fault, parse environment (createArguments path) = .error fault ∧ fault.exitCode = 2 := by
  obtain ⟨fault, failed, code⟩ := settingsForm.read_no_value environment named rfl [] path ["init"] option
  exact ⟨fault, by rw [parse, match_create, failed]; rfl, code⟩

theorem run_create_ok_iff (w : World) (path : String) (after : FileTree) :
    (runCreate w (some path)).result = .ok after ↔
      (∃ s, Settings.read w.files path = .ok s) ∧ ({} : Settings).writeFile w.files path = .ok after := by
  have loads : (∃ s, (loadSettings w (some path)).result = .ok s) ↔ ∃ s, Settings.read w.files path = .ok s := by
    rw [load_settings_result]
    change (∃ s, Except.map _ (Settings.read w.files (Text.utf8 path)) = .ok s) ↔ _
    cases Settings.read w.files (Text.utf8 path) <;> simp [Except.map]
  rw [runCreate, Run.bind_ok_iff, ← loads]
  constructor
  · rintro ⟨s, loaded, ok⟩
    obtain ⟨files, wrote, ok⟩ := (Run.bind_ok_iff _ _ _).mp ok
    obtain rfl : files = after := Except.ok.inj ok
    exact ⟨⟨s, loaded⟩, wrote⟩
  · rintro ⟨⟨s, loaded⟩, wrote⟩
    exact ⟨s, loaded, (Run.bind_ok_iff _ _ _).mpr ⟨after, wrote, rfl⟩⟩

theorem created_ok (w : World) (path : String) (r : Run Failure FileTree) (after : FileTree)
    (ok : r.result = .ok after) :
    created w path r = ⟨0, [], "", r.logs, after, some (path, ({} : Settings).toYaml)⟩ := by
  rw [created, ok]

theorem created_failed (w : World) (path : String) (r : Run Failure FileTree) (f : Failure)
    (failed : r.result = .error f) : created w path r = ⟨1, [], f.report, r.logs, w.files, none⟩ := by
  rw [created, failed]

theorem created_exit_iff (w : World) (path : String) (r : Run Failure FileTree) :
    (created w path r).exitCode = 0 ↔ ∃ after, r.result = .ok after := by
  cases result : r.result with
  | ok after => simp [created_ok w path r after result]
  | error f => simp [created_failed w path r f result]

theorem run_create_missing (w : World) (path : String) (fault : FileFault)
    (missing : w.files.look path = .error fault) :
    runCreate w (some path) =
      ⟨[], .error ⟨.file fault, ["Cannot stat config file" ++ FileTree.inQuotes path]⟩⟩ := by
  have unread := Settings.load_unread w.files w.environment path _ (Settings.read_missing w.files path fault missing)
  have loads : loadSettings w (some path) =
      ⟨[], .error ⟨.file fault, ["Cannot stat config file" ++ FileTree.inQuotes path]⟩⟩ := by
    rw [loadSettings, Option.map_some, unread]
    rfl
  rw [runCreate, loads]
  rfl

-- Default settings that were written are read again from a file. A device keeps nothing, so what was read from it before
-- is read again.
theorem default_read_iff (files after : FileTree) (path : FilePath)
    (yaml : FilePath.extension? path ≠ some (Text.utf8 "json")) (before : Settings)
    (read : Settings.read files path = .ok before) (wrote : ({} : Settings).writeFile files path = .ok after) :
    Settings.read after path = .ok {} ↔ (∃ content access, files.look path = .ok (.file content access)) ∨ before = {} := by
  cases Settings.write_file_look {} files after path wrote with
  | replaced old access there found =>
    have readable := Settings.readable_of_read files path before read old access there
    exact iff_of_true (Settings.read_written_yaml {} after path access found Settings.default_small
      Settings.default_read_back readable yaml) (.inl ⟨old, access, there⟩)
  | new missing found =>
    rw [Settings.read_missing files path .missing missing] at read
    cases read
  | device old access there same =>
    subst same
    rw [read, there]
    simp

theorem creation_at_path (w : World) (path : String) (yaml : FilePath.extension? path ≠ some (Text.utf8 "json"))
    (environment : Environment) (unset : ∀ v : Variable, v.text? environment = none) :
    let outcome := runArguments w (createArguments path)
    ((outcome.exitCode = 0 ∧ Settings.load outcome.files environment (some path) = .ok ⟨{}, some path, []⟩) ↔
      Argument.ofText path = .plain ∧
        (∃ s, Settings.read w.files path = .ok s ∧
          ((∃ content access, w.files.look path = .ok (.file content access)) ∨ s = {})) ∧
        ∃ after, ({} : Settings).writeFile w.files path = .ok after) ∧
    ∀ fault, w.files.look path = .error fault →
      outcome.exitCode ≠ 0 ∧ outcome.files = w.files ∧ outcome.written = none ∧
        (Argument.ofText path = .plain →
          outcome.report = (⟨.file fault, ["Cannot stat config file" ++ FileTree.inQuotes path]⟩ : Failure).report) := by
  intro outcome
  by_cases plain : Argument.ofText path = .plain
  · have runs : outcome = created (ready w) path (runCreate (ready w) (some path)) :=
      run_arguments_ready w _ _ (parse_create _ path plain)
    have loads (after : FileTree) := Settings.load_unset_iff after environment unset path {}
    constructor
    · rw [runs, created_exit_iff]
      constructor
      · rintro ⟨⟨after, ok⟩, loaded⟩
        obtain ⟨⟨s, read⟩, wrote⟩ := (run_create_ok_iff (ready w) path after).mp ok
        rw [created_ok _ _ _ after ok, loads] at loaded
        exact ⟨plain, ⟨s, read, (default_read_iff _ after path yaml s read wrote).mp loaded⟩, after, wrote⟩
      · rintro ⟨-, ⟨s, read, kept⟩, after, wrote⟩
        have ok := (run_create_ok_iff (ready w) path after).mpr ⟨⟨s, read⟩, wrote⟩
        refine ⟨⟨after, ok⟩, ?_⟩
        rw [created_ok _ _ _ after ok, loads]
        exact (default_read_iff _ after path yaml s read wrote).mpr kept
    · intro fault missing
      rw [runs, run_create_missing (ready w) path fault missing]
      exact ⟨Nat.one_ne_zero, rfl, rfl, fun _ => rfl⟩
  · obtain ⟨fault, refuses, code⟩ := parse_create_refused (ready w).environment path plain
    have runs : outcome = refused (ready w) fault := run_arguments_refused w _ fault refuses
    have exit : outcome.exitCode ≠ 0 := by
      rw [runs]
      change fault.exitCode ≠ 0
      rw [code]
      decide
    refine ⟨iff_of_false (fun ok => exit ok.1) (fun ok => plain ok.1), fun _ _ => ⟨exit, ?_, ?_, ?_⟩⟩
    · rw [runs]
      rfl
    · rw [runs]
      rfl
    · exact fun same => absurd same plain

def quietWorld (entries : List (List FilePath × FileEntry)) : World where
  files := { entries }
  input := .directory
  environment := fun _ => none
  server := .unreachable "no connection"
  web := .usual

def debugWorld : World := quietWorld [(["vault.yml"], .ofText "logging:\n  level: debug\n")]

theorem creation_at_path_replaced :
    FilePath.extension? "vault.yml" ≠ some (Text.utf8 "json") ∧ (∀ v : Variable, v.text? (fun _ => none) = none) ∧
      (∃ s, Settings.read debugWorld.files "vault.yml" = .ok s) ∧
      (runArguments debugWorld (createArguments "vault.yml")).exitCode = 0 ∧
      Settings.load (runArguments debugWorld (createArguments "vault.yml")).files (fun _ => none)
          (some (Text.utf8 "vault.yml")) =
        .ok ⟨{}, some (Text.utf8 "vault.yml"), []⟩ := by
  have yaml : FilePath.extension? "vault.yml" ≠ some (Text.utf8 "json") := by decide
  have unset : ∀ v : Variable, v.text? (fun _ => none) = none := fun _ => rfl
  have plain : Argument.ofText "vault.yml" = .plain := by rfl
  have read : Settings.read debugWorld.files "vault.yml" = .ok { logging := { level := some "debug" } } :=
    ok_of_to_option (by decide)
  have regular : debugWorld.files.look "vault.yml" = .ok (.ofText "logging:\n  level: debug\n") := by rfl
  have wrote : ({} : Settings).writeFile debugWorld.files "vault.yml" =
      .ok { entries := [(["vault.yml"], .ofText ({} : Settings).toYaml)] } := by rfl
  have created := (creation_at_path debugWorld "vault.yml" yaml _ unset).1.mpr
    ⟨plain, ⟨_, read, .inl ⟨_, _, regular⟩⟩, ⟨_, wrote⟩⟩
  exact ⟨yaml, unset, ⟨_, read⟩, created⟩

theorem new_file_uncreated :
    (quietWorld []).files.look "new.yaml" = .error .missing ∧
      ({} : Settings).writeFile (quietWorld []).files "new.yaml" =
        .ok { entries := [(["new.yaml"], .ofText ({} : Settings).toYaml)] } ∧
      (runArguments (quietWorld []) (createArguments "new.yaml")).exitCode = 1 ∧
      (runArguments (quietWorld []) (createArguments "new.yaml")).report =
        "Error: Cannot stat config file 'new.yaml'\n\nCaused by:\n    No such file or directory (os error 2)\n" ∧
      (runArguments (quietWorld []) (createArguments "new.yaml")).written = none :=
  ⟨by rfl, by rfl, by decide, by decide, by decide⟩

end Command

end ManifestSecrets
