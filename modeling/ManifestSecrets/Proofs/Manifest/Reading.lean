import ManifestSecrets.Manifest.Files
import ManifestSecrets.Proofs.Document
import Mathlib.Data.List.Forall2
import Mathlib.Data.List.Nodup

set_option autoImplicit false

namespace ManifestSecrets.Manifest

section Labels

def documents (source : String) (values : List Yaml) : List Manifest :=
  (values.zipIdx.filter fun value => !value.1.isNull).map fun value =>
    ⟨source ++ "[" ++ toString value.2 ++ "]", value.1⟩

theorem of_values_documents (source : String) (index : Nat) (values : List Yaml) :
    ofValues source index values = ((values.zipIdx index).filter fun value => !value.1.isNull).map fun value =>
      ⟨label source value.2, value.1⟩ := by
  induction values generalizing index with
  | nil => rfl
  | cons value rest ih =>
    rw [ofValues, ih (index + 1), List.zipIdx_cons]
    cases null : value.isNull with
    | true => simp [null]
    | false => simp [null]

theorem last_separator (c : Char) (front back front' back' : List Char) (free : c ∉ back) (free' : c ∉ back')
    (same : front ++ c :: back = front' ++ c :: back') : front = front' ∧ back = back' := by
  rcases List.append_eq_append_iff.mp same with ⟨between, rfl, rest⟩ | ⟨between, rfl, rest⟩
  · cases between with
    | nil => exact ⟨(List.append_nil front).symm, (List.cons.inj rest).2⟩
    | cons d between => exact absurd (by simp [(List.cons.inj rest).2]) free
  · cases between with
    | nil => exact ⟨List.append_nil front', (List.cons.inj rest).2.symm⟩
    | cons d between => exact absurd (by simp [(List.cons.inj rest).2]) free'

-- Whatever brackets a source has, the last one of a label is that of its position.
theorem label_injective (source source' : String) (i j : Nat) (same : label source i = label source' j) :
    source = source' ∧ i = j := by
  have digits (n : Nat) : '[' ∉ (toString n).toList ++ [']'] := by
    rw [Nat.toString_eq_repr, Nat.toList_repr, List.mem_append, not_or]
    refine ⟨fun member => ?_, by decide⟩
    exact absurd (Nat.isDigit_of_mem_toDigits (by decide) (by decide) member) (by decide)
  have chars (s : String) (n : Nat) : (label s n).toList = s.toList ++ '[' :: ((toString n).toList ++ [']']) := by
    simp [label]
  obtain ⟨sources, indices⟩ := last_separator '[' _ _ _ _ (digits i) (digits j)
    (by rw [← chars, ← chars, same])
  have written : Nat.toDigits 10 i = Nat.toDigits 10 j := by simpa using List.append_cancel_right indices
  refine ⟨String.toList_inj.mp sources, ?_⟩
  rw [← @Nat.ofDigitChars_ten_toDigits i, written, Nat.ofDigitChars_ten_toDigits]

theorem documents_sources (source : String) (values : List Yaml) :
    ((documents source values).map Manifest.source).Nodup ∧
      ∀ m ∈ documents source values, ∃ i, m.source = label source i := by
  constructor
  · have positions : (values.zipIdx.filter fun value => !value.1.isNull).Pairwise fun a b => a.2 ≠ b.2 := by
      refine List.Pairwise.filter _ (List.pairwise_map.mp ?_)
      rw [List.zipIdx_map_snd]
      exact List.nodup_range'
    rw [documents, List.map_map, List.Nodup, List.pairwise_map]
    exact positions.imp fun apart same => apart (label_injective source source _ _ same).2
  · intro m member
    obtain ⟨value, -, rfl⟩ := List.mem_map.mp member
    exact ⟨value.2, rfl⟩

end Labels

section OneFile

def cannotStat (path : FilePath) (fault : FileFault) : Failure :=
  ⟨.file fault, ["Cannot stat manifest '" ++ path.shown ++ "'"]⟩

inductive FileOutcome (path : FilePath) (hindrance : Option FileFault) (entry : FileEntry) :
    Except Failure (List Manifest) → Prop where
  | unseen (fault : FileFault) (hindered : hindrance = some fault) :
      FileOutcome path hindrance entry (.error (cannotStat path fault))
  | large (seen : hindrance = none) (exceeds : 10485760 < entry.size) :
      FileOutcome path hindrance entry (.error ⟨.plain ("Manifest '" ++ path.shown ++ "' is " ++ toString entry.size ++
        " bytes, exceeds limit of 10485760 bytes"), []⟩)
  | unread (seen : hindrance = none) (small : entry.size ≤ 10485760) (fault : FileFault)
      (closed : entry.text = .error fault) :
      FileOutcome path hindrance entry (.error ⟨.file fault, ["Failed to read manifest '" ++ path.shown ++ "'"]⟩)
  | invalid (seen : hindrance = none) (small : entry.size ≤ 10485760) (content : String) (index : Nat)
      (text : entry.text = .ok content) (wrong : Yaml.readAll content = .error index) :
      FileOutcome path hindrance entry
        (.error ⟨.yaml, ["Invalid YAML in " ++ path.shown ++ " (document " ++ toString index ++ ")"]⟩)
  | read (seen : hindrance = none) (small : entry.size ≤ 10485760) (content : String) (values : List Yaml)
      (text : entry.text = .ok content) (valid : Yaml.readAll content = .ok values) :
      FileOutcome path hindrance entry (.ok (documents path.shown values))

theorem file_outcome_unique (path : FilePath) (hindrance : Option FileFault) (entry : FileEntry)
    (r r' : Except Failure (List Manifest)) (one : FileOutcome path hindrance entry r)
    (other : FileOutcome path hindrance entry r') : r = r' := by
  cases one <;> cases other <;> first | rfl | omega | grind

theorem read_file_outcome (files : FileTree) (path : FilePath) (hindrance : Option FileFault) (entry : FileEntry)
    (found : files.look path = hindrance.elim (.ok entry) .error) :
    FileOutcome path hindrance entry (readFile files path) := by
  rw [readFile, FileTree.readText, found]
  cases hindrance with
  | some fault =>
    have failure : "Cannot stat " ++ noun ++ FileTree.inQuotes path = "Cannot stat manifest '" ++ path.shown ++ "'" := by
      simp [noun, FileTree.inQuotes, ← String.append_assoc]
    simp only [Option.elim, failure]
    exact .unseen fault rfl
  | none =>
    simp only [Option.elim]
    by_cases exceeds : FileTree.sizeLimit < entry.size
    · have failure : noun.capitalize ++ FileTree.inQuotes path ++ " is " ++ toString entry.size ++
          " bytes, exceeds limit of " ++ toString FileTree.sizeLimit ++ " bytes" =
          "Manifest '" ++ path.shown ++ "' is " ++ toString entry.size ++ " bytes, exceeds limit of 10485760 bytes" := by
        have capital : noun.capitalize = "Manifest" := by decide +kernel
        have limit : toString FileTree.sizeLimit = "10485760" := by decide +kernel
        rw [capital, limit, ← String.toList_inj]
        simp [FileTree.inQuotes]
      simp only [if_pos exceeds, failure]
      exact .large rfl exceeds
    · have small := Nat.le_of_not_lt exceeds
      simp only [if_neg exceeds]
      cases text : entry.text with
      | error fault =>
        have failure : "Failed to read " ++ noun ++ FileTree.inQuotes path =
            "Failed to read manifest '" ++ path.shown ++ "'" := by
          simp [noun, FileTree.inQuotes, ← String.append_assoc]
        simp only [failure]
        exact .unread rfl small fault text
      | ok content =>
        change FileOutcome path none entry (parse path.shown content)
        rw [parse]
        cases stream : Yaml.readAll content with
        | error index => exact .invalid rfl small content index text stream
        | ok values =>
          simp only [of_values_documents]
          exact .read rfl small content values text stream

end OneFile

section Sequence

def InTurn (outcome : FilePath → Except Failure (List Manifest) → Prop) (names : List FilePath) :
    Except Failure (List Manifest) → Prop
  | .ok manifests =>
      ∃ parts, List.Forall₂ (fun name part => outcome name (.ok part)) names parts ∧ manifests = parts.flatten
  | .error e =>
      ∃ passed name later, names = passed ++ name :: later ∧
        (∀ earlier ∈ passed, ∃ part, outcome earlier (.ok part)) ∧ outcome name (.error e)

-- By the names: the first file fails and ends the reading, or it adds its manifests to those of the rest.
theorem read_files_in_turn (files : FileTree) (path : FilePath)
    (outcome : FilePath → Except Failure (List Manifest) → Prop) (names : List FilePath) (r : Except Failure (List Manifest))
    (each : ∀ name ∈ names, ∀ r, outcome name r ↔ readFile files (FilePath.inside path name) = r) :
    readFiles files (names.map (FilePath.inside path)) = r ↔ InTurn outcome names r := by
  induction names generalizing r with
  | nil =>
    cases r with
    | ok manifests => simp [readFiles, InTurn, eq_comm]
    | error e => simp [readFiles, InTurn]
  | cons name rest ih =>
    obtain ⟨here, there⟩ := List.forall_mem_cons.mp each
    rw [List.map_cons, readFiles]
    cases r with
    | ok manifests =>
      rw [bind_ok_iff]
      constructor
      · rintro ⟨first, read, ok⟩
        obtain ⟨later, readLater, same⟩ := bind_ok ok
        obtain ⟨parts, all, rfl⟩ := (ih (.ok later) there).mp readLater
        exact ⟨first :: parts, .cons ((here _).mpr read) all, (Except.ok.inj same).symm⟩
      · rintro ⟨parts, all, rfl⟩
        obtain ⟨first, others, read, readLater, rfl⟩ := List.forall₂_cons_left_iff.mp all
        have readRest := (ih (.ok _) there).mpr ⟨others, readLater, rfl⟩
        exact ⟨first, (here _).mp read, bind_ok_iff.mpr ⟨_, readRest, rfl⟩⟩
    | error e =>
      rw [bind_error_iff]
      constructor
      · rintro (failed | ⟨first, read, failed⟩)
        · exact ⟨[], name, rest, rfl, by simp, (here _).mpr failed⟩
        · have failedLater : readFiles files (rest.map (FilePath.inside path)) = .error e := by
            rcases bind_error_iff.mp failed with failed | ⟨later, -, never⟩
            · exact failed
            · cases never
          obtain ⟨passed, next, later, rfl, before, failed⟩ := (ih (.error e) there).mp failedLater
          have beforeToo := List.forall_mem_cons.mpr ⟨⟨first, (here _).mpr read⟩, before⟩
          exact ⟨name :: passed, next, later, rfl, beforeToo, failed⟩
      · rintro ⟨passed, next, later, split, before, failed⟩
        cases passed with
        | nil =>
          obtain ⟨rfl, rfl⟩ := List.cons.inj split
          exact .inl ((here _).mp failed)
        | cons first passed =>
          obtain ⟨rfl, rfl⟩ := List.cons.inj split
          obtain ⟨⟨part, read⟩, before⟩ := List.forall_mem_cons.mp before
          have failedLater := (ih (.error e) there).mpr ⟨passed, next, later, rfl, before, failed⟩
          exact .inr ⟨part, (here _).mp read, bind_error_iff.mpr (.inl failedLater)⟩

end Sequence

end ManifestSecrets.Manifest
