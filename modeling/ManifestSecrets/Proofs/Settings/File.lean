import ManifestSecrets.Proofs.Files.Write
import ManifestSecrets.Proofs.Json.Same
import ManifestSecrets.Proofs.Manifest.Generate
import ManifestSecrets.Proofs.Settings.Written
import ManifestSecrets.Settings.File

set_option autoImplicit false

namespace ManifestSecrets

namespace FileTree

theorem read_text_small (files : FileTree) (noun : String) (path : FilePath) (text : String) (access : Access)
    (here : files.look path = .ok (.ofText text access)) (readable : access.reading = none)
    (small : text.utf8ByteSize ≤ sizeLimit) : files.readText noun path = .ok text := by
  have fits : ¬ sizeLimit < (FileEntry.ofText text access).size := Nat.not_lt_of_le small
  simp only [readText, here, if_neg fits, FileEntry.text_of_text text access readable]

theorem read_text_closed (files : FileTree) (noun : String) (path : FilePath) (text : String) (access : Access)
    (fault : FileFault) (here : files.look path = .ok (.ofText text access)) (closed : access.reading = some fault)
    (small : text.utf8ByteSize ≤ sizeLimit) :
    files.readText noun path = .error ⟨.file fault, ["Failed to read " ++ noun ++ inQuotes path]⟩ := by
  have fits : ¬ sizeLimit < (FileEntry.ofText text access).size := Nat.not_lt_of_le small
  have unread : (FileEntry.ofText text access).text = .error fault := by
    simp only [FileEntry.text, FileEntry.bytes, FileEntry.ofText, FileEntry.access, closed]
    rfl
  simp only [readText, here, if_neg fits, unread]

end FileTree

-- No value of JSON starts with this letter.
theorem Json.read_unread (text : String) (rest : List Char) (chars : text.toList = 'v' :: rest) :
    Json.read? text = none := by
  have first : Reader.skip ('v' :: rest) = 'v' :: rest := by simp [Reader.skip, Reader.isSpace]
  have digits : Reader.digits ('v' :: rest) = ([], 'v' :: rest) := by simp [Reader.digits]
  simp [read?, chars, Reader.value?, first, Reader.number?, Reader.whole?, digits]

namespace Settings

theorem yaml_starts (s : Settings) : ∃ rest, s.toYaml.toList = 'v' :: rest := by
  have key : Yaml.Writer.keyText 0 "vault" = ("vault:", .afterKey) := by decide
  simp [toYaml, written, Yaml.write, Yaml.Writer.value, Yaml.Writer.mappingIndent, Yaml.Writer.opening, key]

section Reading

variable (s : Settings) (files : FileTree) (path : FilePath) (access : Access)
  (here : files.look path = .ok (.ofText s.toYaml access)) (small : s.toYaml.utf8ByteSize ≤ FileTree.sizeLimit)

include here small

theorem read_written_closed (fault : FileFault) (closed : access.reading = some fault) :
    read files path = .error ⟨.file fault, ["Failed to read config file" ++ FileTree.inQuotes path]⟩ := by
  rw [read, readValue, files.read_text_closed noun path _ access fault here closed small]
  rfl

theorem read_written_json (readable : access.reading = none)
    (json : FilePath.extension? path = some (Text.utf8 "json")) :
    read files path = .error ⟨.json, ["Invalid JSON in" ++ FileTree.inQuotes path]⟩ := by
  obtain ⟨rest, chars⟩ := s.yaml_starts
  have value : readValue files path = .error ⟨.json, ["Invalid JSON in" ++ FileTree.inQuotes path]⟩ := by
    rw [readValue, files.read_text_small noun path _ access here readable small]
    change (if _ then _ else _) = _
    rw [if_pos json, Json.read_unread s.toYaml rest chars]
    rfl
  rw [read, value]
  rfl

theorem read_written_yaml (back : Yaml.readJson? s.toYaml = some s.written.sorted) (readable : access.reading = none)
    (yaml : FilePath.extension? path ≠ some (Text.utf8 "json")) : read files path = .ok s := by
  have value : readValue files path = .ok s.written.sorted := by
    rw [readValue, files.read_text_small noun path _ access here readable small]
    change (if _ then _ else _) = _
    rw [if_neg yaml, back]
    rfl
  rw [read, value]
  change (decode s.written.sorted).mapError _ = _
  rw [s.decode_written]
  rfl

end Reading

theorem write_file_look (s : Settings) (files after : FileTree) (path : FilePath)
    (wrote : s.writeFile files path = .ok after) : files.Wrote path s.toYaml after := by
  rw [writeFile] at wrote
  cases written : files.write path s.toYaml with
  | error fault => simp [written, Except.mapError] at wrote
  | ok found =>
    obtain rfl : found = after := by simpa [written, Except.mapError] using wrote
    exact files.look_write path s.toYaml found written

def foundAs (s : Settings) (path : FilePath) : Option FileFault → Except Failure Settings
  | some fault => .error ⟨.file fault, ["Failed to read config file" ++ FileTree.inQuotes path]⟩
  | none =>
      if FilePath.extension? path = some (Text.utf8 "json") then
        .error ⟨.json, ["Invalid JSON in" ++ FileTree.inQuotes path]⟩
      else .ok s

theorem read_found (s : Settings) (files : FileTree) (path : FilePath) (access : Access)
    (here : files.look path = .ok (.ofText s.toYaml access))
    (small : s.toYaml.utf8ByteSize ≤ FileTree.sizeLimit) (back : Yaml.readJson? s.toYaml = some s.written.sorted) :
    read files path = s.foundAs path access.reading := by
  cases reading : access.reading with
  | some fault => exact s.read_written_closed files path access here small fault reading
  | none =>
    rw [foundAs]
    split
    next json => exact s.read_written_json files path access here small reading json
    next yaml => exact s.read_written_yaml files path access here small back reading yaml

-- What is assumed of the YAML reader is that it reads this one text back as the value it was written from. A device keeps
-- nothing of what is written to it.
theorem written_settings_read (s : Settings) (files after : FileTree) (path : FilePath)
    (wrote : s.writeFile files path = .ok after)
    (small : s.toYaml.utf8ByteSize ≤ FileTree.sizeLimit) (back : Yaml.readJson? s.toYaml = some s.written.sorted) :
    (∃ content access, after.look path = .ok (.file content access) ∧
        read after path = s.foundAs path access.reading) ∨
      ∃ content access, files.look path = .ok (.device content access) ∧ after = files := by
  cases s.write_file_look files after path wrote with
  | replaced old access before found => exact .inl ⟨_, access, found, s.read_found after path access found small back⟩
  | new before found => exact .inl ⟨_, files.fresh, found, s.read_found after path _ found small back⟩
  | device old access before same => exact .inr ⟨old, access, before, same⟩

def tokenSettings : Settings where
  vault := {
    kvVersion := .two, timeoutSecs := 18446744073709551615
    auth := { method := .token, token := some "'s.abc' #1" } }
  logging := { level := some "on:\n  'debug'\n", format := .json }

def confFiles : FileTree := { entries := [(["conf", "notes.txt"], .ofText "")] }

def confWritten : FileTree :=
  { entries := [(["conf", "notes.txt"], .ofText ""), (["conf", "vault.yml"], .ofText tokenSettings.toYaml)] }

theorem written_settings_read_token :
    tokenSettings.writeFile confFiles "conf/vault.yml" = .ok confWritten ∧
      tokenSettings.toYaml.utf8ByteSize ≤ FileTree.sizeLimit ∧
      Yaml.readJson? tokenSettings.toYaml = some tokenSettings.written.sorted ∧
      read confWritten "conf/vault.yml" = .ok tokenSettings := by
  have wrote : tokenSettings.writeFile confFiles "conf/vault.yml" = .ok confWritten := by rfl
  have small : tokenSettings.toYaml.utf8ByteSize ≤ FileTree.sizeLimit := by decide +kernel
  have back : Yaml.readJson? tokenSettings.toYaml = some tokenSettings.written.sorted := by decide +kernel
  have here : confWritten.look "conf/vault.yml" = .ok (.ofText tokenSettings.toYaml) := by rfl
  refine ⟨wrote, small, back, ?_⟩
  rcases tokenSettings.written_settings_read confFiles confWritten "conf/vault.yml" wrote small back with
    ⟨content, access, found, loaded⟩ | ⟨content, access, before, -⟩
  · obtain rfl : access = {} := by
      exact (FileEntry.file.inj (Except.ok.inj (here.symm.trans found))).2.symm
    exact loaded
  · have missing : confFiles.look "conf/vault.yml" = .error .missing := by rfl
    rw [missing] at before
    cases before

theorem default_small : ({} : Settings).toYaml.utf8ByteSize ≤ FileTree.sizeLimit := by
  decide

theorem default_read_back : Yaml.readJson? ({} : Settings).toYaml = some ({} : Settings).written.sorted := by
  decide +kernel

def jsonNamed : FileTree := { entries := [(["c.json"], .ofText ({} : Settings).toYaml)] }

theorem json_named_unread :
    ({} : Settings).writeFile { entries := [] } "c.json" = .ok jsonNamed ∧
      ({} : Settings).toYaml.utf8ByteSize ≤ FileTree.sizeLimit ∧
      Yaml.readJson? ({} : Settings).toYaml = some ({} : Settings).written.sorted ∧
      read jsonNamed "c.json" = .error ⟨.json, ["Invalid JSON in 'c.json'"]⟩ := by
  have wrote : ({} : Settings).writeFile { entries := [] } "c.json" = .ok jsonNamed := by rfl
  have here : jsonNamed.look "c.json" = .ok (.ofText ({} : Settings).toYaml) := by rfl
  have json : FilePath.extension? "c.json" = some (Text.utf8 "json") := by decide
  have quoted : "Invalid JSON in" ++ FileTree.inQuotes "c.json" = "Invalid JSON in 'c.json'" := by decide
  exact ⟨wrote, default_small, default_read_back,
    quoted ▸ ({} : Settings).read_written_json _ "c.json" {} here default_small rfl json⟩

end Settings

end ManifestSecrets
