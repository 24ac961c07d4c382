import ManifestSecrets.Proofs.Files.Directory
import ManifestSecrets.Proofs.Manifest.Reading
import Mathlib.Data.List.Sort
import Mathlib.Order.Defs.LinearOrder

set_option autoImplicit false

namespace ManifestSecrets.Manifest

section Selection

def IsManifestName (name : FilePath) : Prop :=
  ∃ stem ext, name = stem ++ FilePath.point :: ext ∧ stem ≠ [] ∧ ext ∈ (["yaml", "yml", "json"] : List FilePath)

structure Selects (files : FileTree) (place names : List FilePath) : Prop where
  ordered : names.Pairwise (· < ·)
  members : ∀ name, name ∈ names ↔
    IsManifestName name ∧ ∃ entry, files.entryAt? (place ++ [name]) = some entry ∧ entry.isFile = true

theorem Selects.nodup {files : FileTree} {place names : List FilePath} (selects : Selects files place names) :
    names.Nodup := by
  refine selects.ordered.imp fun {a b} less same => ?_
  rw [same] at less
  exact List.lt_irrefl _ less

theorem extension_manifest_iff (name : FilePath) (proper : FilePath.IsName name) :
    (FilePath.extension? name).any extensions.contains = true ↔ IsManifestName name := by
  rw [Option.any_eq_true]
  constructor
  · rintro ⟨ext, found, known⟩
    obtain ⟨stem, spelled, nonempty, -⟩ := (FilePath.extension_some_iff name ext proper).mp found
    exact ⟨stem, ext, spelled, nonempty, by simpa [extensions] using known⟩
  · rintro ⟨stem, ext, spelled, nonempty, known⟩
    have pointless : FilePath.point ∉ ext := by
      revert known
      simp only [List.mem_cons, List.not_mem_nil, or_false]
      rintro (rfl | rfl | rfl)
      all_goals decide
    exact ⟨ext, (FilePath.extension_some_iff name ext proper).mpr ⟨stem, spelled, nonempty, pointless⟩,
      by simpa [extensions] using known⟩

theorem in_order_sorted (names : List FilePath) (once : names.Nodup) : (inOrder names).Pairwise (· < ·) := by
  have sorted : (inOrder names).Pairwise fun a b => decide (a ≤ b) = true :=
    List.pairwise_mergeSort (by simpa using fun _ _ _ => List.le_trans) (by simpa using List.le_total) names
  have apart : (inOrder names).Nodup := (List.mergeSort_perm names _).nodup_iff.mpr once
  refine (sorted.and apart).imp fun {a b} both => ?_
  exact List.not_le.mp fun other => both.2 (List.le_antisymm (of_decide_eq_true both.1) other)

theorem mem_in_order (names : List FilePath) (name : FilePath) : name ∈ inOrder names ↔ name ∈ names :=
  (List.mergeSort_perm names _).mem_iff

theorem ordered_unique (names names' : List FilePath) (ordered : names.Pairwise (· < ·))
    (ordered' : names'.Pairwise (· < ·)) (same : ∀ name, name ∈ names ↔ name ∈ names') : names = names' :=
  have : Std.Irrefl fun a b : FilePath => a < b := ⟨fun _ => List.lt_irrefl _⟩
  have : Std.Antisymm fun a b : FilePath => a < b := ⟨fun _ _ less more => (List.lt_asymm less more).elim⟩
  ordered.eq_of_mem_iff ordered' same

def inReach (files : FileTree) (path : FilePath) (place : List FilePath) (name : FilePath) : Bool :=
  (files.hindrance? path place name).isNone

variable {files : FileTree} {path : FilePath} {place : List FilePath}

theorem is_manifest_file_iff (directory : files.IsDirectory path place) (name : FilePath)
    (listed : name ∈ files.namesAt place) :
    isManifestFile files path name = true ↔ inReach files path place name = true ∧ IsManifestName name ∧
      ∃ entry, files.entryAt? (place ++ [name]) = some entry ∧ entry.isFile = true := by
  obtain ⟨entry, found⟩ := files.entry_of_listed place name listed
  rw [isManifestFile, Bool.and_eq_true, extension_manifest_iff name (directory.named name entry found),
    directory.look_inside name entry found, inReach, found]
  cases files.hindrance? path place name <;> simp

theorem selects_exists (files : FileTree) (place : List FilePath) : ∃ names, Selects files place names := by
  classical
  refine ⟨inOrder ((files.namesAt place).filter fun name => decide (IsManifestName name ∧
    ∃ entry, files.entryAt? (place ++ [name]) = some entry ∧ entry.isFile = true)), in_order_sorted _ ?_, ?_⟩
  · exact (FileTree.each_once _).filter _
  · intro name
    rw [mem_in_order, List.mem_filter, decide_eq_true_iff]
    constructor
    · exact fun both => both.2
    · rintro ⟨named, entry, found, file⟩
      exact ⟨files.file_listed place name entry found file, named, entry, found, file⟩

theorem found_in_reach (directory : files.IsDirectory path place) (names : List FilePath)
    (selects : Selects files place names) :
    inOrder ((files.namesAt place).filter (isManifestFile files path)) = names.filter (inReach files path place) := by
  refine ordered_unique _ _ (in_order_sorted _ ((FileTree.each_once _).filter _)) (selects.ordered.filter _)
    fun name => ?_
  rw [mem_in_order, List.mem_filter, List.mem_filter, selects.members]
  constructor
  · rintro ⟨listed, file⟩
    obtain ⟨near, selected⟩ := (is_manifest_file_iff directory name listed).mp file
    exact ⟨selected, near⟩
  · rintro ⟨⟨named, entry, found, file⟩, near⟩
    have listed := files.file_listed place name entry found file
    exact ⟨listed, (is_manifest_file_iff directory name listed).mpr ⟨near, named, entry, found, file⟩⟩

end Selection

section Whole

def Comes (files : FileTree) (path : FilePath) (place : List FilePath) (name : FilePath)
    (r : Except Failure (List Manifest)) : Prop :=
  ∃ entry, files.entryAt? (place ++ [name]) = some entry ∧
    FileOutcome (FilePath.inside path name) (files.hindrance? path place name) entry r

variable {files : FileTree} {path : FilePath} {place : List FilePath}

theorem comes_iff (directory : files.IsDirectory path place) (names : List FilePath)
    (selects : Selects files place names) (name : FilePath) (member : name ∈ names)
    (r : Except Failure (List Manifest)) :
    Comes files path place name r ↔ readFile files (FilePath.inside path name) = r := by
  obtain ⟨-, entry, found, -⟩ := (selects.members name).mp member
  have comes := read_file_outcome files _ _ entry (directory.look_inside name entry found)
  constructor
  · rintro ⟨entry', found', other⟩
    obtain rfl := Option.some.inj (found.symm.trans found')
    exact file_outcome_unique _ _ entry _ _ comes other
  · rintro rfl
    exact ⟨entry, found, comes⟩

theorem far_comes (name : FilePath) (r : Except Failure (List Manifest)) (far : inReach files path place name = false)
    (comes : Comes files path place name r) : ∃ fault, files.hindrance? path place name = some fault ∧
      r = .error (cannotStat (FilePath.inside path name) fault) := by
  obtain ⟨entry, -, outcome⟩ := comes
  obtain ⟨fault, hindered⟩ := Option.isSome_iff_exists.mp (by simpa [inReach] using far)
  exact ⟨fault, hindered, file_outcome_unique _ _ entry _ _ outcome (.unseen fault hindered)⟩

-- A file that is found fails in another way, whatever its path.
theorem near_comes (name path' : FilePath) (fault : FileFault) (near : inReach files path place name = true) :
    ¬ Comes files path place name (.error (cannotStat path' fault)) := by
  rintro ⟨entry, -, outcome⟩
  have seen : files.hindrance? path place name = none := by simpa [inReach] using near
  generalize same : Except.error (cannotStat path' fault) = r at outcome
  cases outcome with
  | unseen other hindered => simp [seen] at hindered
  | large => simp [cannotStat] at same
  | unread =>
    have texts := congrArg String.toList (List.cons.inj (Failure.mk.inj (Except.error.inj same)).2).1
    simp at texts
  | invalid => simp [cannotStat] at same
  | read => cases same

def cannotRead (path : FilePath) (fault : FileFault) : Failure :=
  ⟨.file fault, ["Cannot read directory '" ++ path.shown ++ "'"]⟩

theorem read_all_unlisted (input : FileEntry) (dashless : FilePath.isDash path = false)
    (directory : files.IsDirectory path place) (fault : FileFault) (closed : files.listing? place = some fault) :
    readAll files input path = ⟨[], .error (cannotRead path fault)⟩ := by
  have failure : "Cannot read directory" ++ FileTree.inQuotes path = "Cannot read directory '" ++ path.shown ++ "'" := by
    simp [FileTree.inQuotes, ← String.append_assoc]
  simp only [readAll, dashless, paths, directory.names, closed, Option.elim, failure]
  rfl

theorem read_all_directory (input : FileEntry) (dashless : FilePath.isDash path = false)
    (directory : files.IsDirectory path place) (opened : files.listing? place = none) (names : List FilePath)
    (selects : Selects files place names) : readAll files input path =
      ⟨[.debug ("Found " ++ toString (names.filter (inReach files path place)).length ++ " manifest file(s) in "
          ++ path.shown)],
        readFiles files ((names.filter (inReach files path place)).map (FilePath.inside path))⟩ := by
  simp only [readAll, dashless, paths, directory.names, opened, Option.elim, found_in_reach directory names selects]
  rfl

theorem read_all_sorted (input : FileEntry) (dashless : FilePath.isDash path = false)
    (directory : files.IsDirectory path place) (opened : files.listing? place = none) (names : List FilePath)
    (ordered : names.Pairwise (· < ·)) (found : ((files.namesAt place).filter (isManifestFile files path)).Perm names) :
    (readAll files input path).result = readFiles files (names.map (FilePath.inside path)) := by
  have once : ((files.namesAt place).filter (isManifestFile files path)).Nodup := (FileTree.each_once _).filter _
  have sorted : inOrder ((files.namesAt place).filter (isManifestFile files path)) = names :=
    ordered_unique _ _ (in_order_sorted _ once) ordered fun name => by rw [mem_in_order, found.mem_iff]
  simp only [readAll, dashless, paths, directory.names, opened, Option.elim, sorted]
  rfl

theorem read_all_unread (files : FileTree) (input : FileEntry) (path : FilePath) (e : Failure)
    (dashless : FilePath.isDash path = false) (single : files.names? path = none)
    (unread : readFile files path = .error e) : (readAll files input path).result = .error e := by
  rw [readAll, dashless, paths, single]
  change readFiles files [path] = .error e
  rw [readFiles, unread]
  rfl

theorem read_files_same (other : FileTree) (same : files.Same other) (each : List FilePath) :
    readFiles other each = readFiles files each := by
  induction each with
  | nil => rfl
  | cons first rest ih =>
    rw [readFiles, readFiles, readFile, readFile, FileTree.readText, FileTree.readText, same.look_eq, ih]

theorem read_all_same (input input' : FileEntry) (other : FileTree) (dashless : FilePath.isDash path = false)
    (directory : files.IsDirectory path place) (same : files.Same other) :
    readAll other input' path = readAll files input path := by
  have there := same.directory directory
  have listing := same.listing_eq place
  cases closed : files.listing? place with
  | some fault =>
    rw [read_all_unlisted input dashless directory fault closed,
      read_all_unlisted input' dashless there fault (listing.trans closed)]
  | none =>
    obtain ⟨names, selects⟩ := selects_exists files place
    have selectsOther : Selects other place names :=
      ⟨selects.ordered, fun name => by rw [same.entries]; exact selects.members name⟩
    have reach : inReach other path place = inReach files path place := by
      funext name
      rw [inReach, inReach, same.hindrance_eq]
    rw [read_all_directory input dashless directory closed names selects,
      read_all_directory input' dashless there (listing.trans closed) names selectsOther, reach,
      read_files_same other same]

theorem near_never_far (names : List FilePath)
    (comes : ∀ name ∈ names, ∀ r, Comes files path place name r ↔ readFile files (FilePath.inside path name) = r)
    (path' : FilePath) (fault : FileFault) :
    readFiles files ((names.filter (inReach files path place)).map (FilePath.inside path)) ≠
      .error (cannotStat path' fault) := by
  intro failed
  have turn := (read_files_in_turn files path (Comes files path place) _ _ fun name member =>
    comes name (List.mem_of_mem_filter member)).mp failed
  obtain ⟨passed, name, later, split, -, failed⟩ := turn
  have member : name ∈ names.filter (inReach files path place) := by simp [split]
  have near := (List.mem_filter.mp member).2
  exact near_comes name path' fault near failed

def ReachesAll (files : FileTree) (path : FilePath) (place names : List FilePath) : Prop :=
  (∀ name ∈ names, inReach files path place name = true) ∨
    ∃ passed name later e, names = passed ++ name :: later ∧
      (∀ earlier ∈ passed, inReach files path place earlier = true) ∧ inReach files path place name = true ∧
      Comes files path place name (.error e)

-- Leaving out what is out of reach shows, unless reading ends before it comes to that.
theorem in_reach_only_iff (names : List FilePath)
    (comes : ∀ name ∈ names, ∀ r, Comes files path place name r ↔ readFile files (FilePath.inside path name) = r) :
    readFiles files (names.map (FilePath.inside path)) =
        readFiles files ((names.filter (inReach files path place)).map (FilePath.inside path)) ↔
      ReachesAll files path place names := by
  induction names with
  | nil => simp [ReachesAll]
  | cons name rest ih =>
    obtain ⟨here, there⟩ := List.forall_mem_cons.mp comes
    cases near : inReach files path place name with
    | false =>
      obtain ⟨fault, -, failed⟩ := far_comes name _ near ((here _).mpr rfl)
      rw [List.map_cons, readFiles, failed]
      constructor
      · intro same
        exact absurd same.symm (near_never_far (name :: rest) comes _ fault)
      · rintro (all | ⟨passed, next, later, e, split, before, nearNext, -⟩)
        · simp [near] at all
        · cases passed with
          | nil => simp [← (List.cons.inj split).1, near] at nearNext
          | cons first passed => simp [← (List.cons.inj split).1, near] at before
    | true =>
      rw [List.filter_cons_of_pos near, List.map_cons, List.map_cons, readFiles, readFiles]
      cases read : readFile files (FilePath.inside path name) with
      | error e => exact iff_of_true rfl (.inr ⟨[], name, rest, e, rfl, by simp, near, (here _).mpr read⟩)
      | ok part =>
        have cancelled (x y : Except Failure (List Manifest)) :
            (do return part ++ (← x)) = (do return part ++ (← y) : Except Failure (List Manifest)) ↔ x = y := by
          cases x <;> cases y <;> simp [bind, Except.bind, pure, Except.pure]
        refine (cancelled _ _).trans ((ih there).trans ?_)
        constructor
        · rintro (all | ⟨passed, next, later, e, rfl, before, nearNext, failed⟩)
          · exact .inl (List.forall_mem_cons.mpr ⟨near, all⟩)
          · exact .inr
              ⟨name :: passed, next, later, e, rfl, List.forall_mem_cons.mpr ⟨near, before⟩, nearNext, failed⟩
        · rintro (all | ⟨passed, next, later, e, split, before, nearNext, failed⟩)
          · exact .inl (List.forall_mem_cons.mp all).2
          · cases passed with
            | nil =>
              obtain ⟨rfl, rfl⟩ := List.cons.inj split
              cases read.symm.trans ((here _).mp failed)
            | cons first passed =>
              obtain ⟨rfl, rfl⟩ := List.cons.inj split
              exact .inr ⟨passed, next, later, e, rfl, (List.forall_mem_cons.mp before).2, nearNext, failed⟩

def ShownApart (names : List FilePath) : Prop := names.Pairwise fun a b => a.shown ≠ b.shown

theorem parts_sources (names : List FilePath) (parts : List (List Manifest)) (apart : ShownApart names)
    (all : List.Forall₂ (fun name part => Comes files path place name (.ok part)) names parts) :
    (parts.flatten.map Manifest.source).Nodup ∧
      ∀ m ∈ parts.flatten, ∃ name ∈ names, ∃ i, m.source = label (FilePath.inside path name).shown i := by
  induction all with
  | nil => exact ⟨List.nodup_nil, by simp⟩
  | @cons name part rest others comes _ ih =>
    obtain ⟨fresh, apartRest⟩ := List.pairwise_cons.mp apart
    obtain ⟨once, labelled⟩ := ih apartRest
    obtain ⟨entry, -, outcome⟩ := comes
    obtain ⟨values, rfl⟩ : ∃ values, part = documents (FilePath.inside path name).shown values := by
      cases outcome with
      | read seen small content values text valid => exact ⟨values, rfl⟩
    obtain ⟨onceHere, labelledHere⟩ := documents_sources (FilePath.inside path name).shown values
    refine ⟨?_, ?_⟩
    · rw [List.flatten_cons, List.map_append, List.nodup_append]
      refine ⟨onceHere, once, ?_⟩
      rintro source here _ there rfl
      obtain ⟨m, member, rfl⟩ := List.mem_map.mp here
      obtain ⟨m', member', same⟩ := List.mem_map.mp there
      obtain ⟨i, source⟩ := labelledHere m member
      obtain ⟨other, listed, j, source'⟩ := labelled m' member'
      have sources := (label_injective _ _ j i (source'.symm.trans (same.trans source))).1
      exact fresh other listed (FilePath.shown_inside path other name sources).symm
    · intro m member
      rw [List.flatten_cons, List.mem_append] at member
      rcases member with here | there
      · exact ⟨name, List.mem_cons_self, labelledHere m here⟩
      · obtain ⟨other, listed, labels⟩ := labelled m there
        exact ⟨other, List.mem_cons_of_mem name listed, labels⟩

theorem shown_apart_texts (names : List FilePath) (once : names.Nodup)
    (texts : ∀ name ∈ names, ∃ text, name = Text.utf8 text) : ShownApart names := by
  refine once.imp_of_mem fun {a b} first second other same => other ?_
  obtain ⟨x, rfl⟩ := texts a first
  obtain ⟨y, rfl⟩ := texts b second
  rw [FilePath.shown, FilePath.shown, Text.lossy_utf8, Text.lossy_utf8] at same
  rw [same]

-- What reading a directory comes to, by the names of its manifests. A file out of reach is left out without a word:
-- that is what all files come to just when no name is out of reach or another one fails before it.
structure Reads (files : FileTree) (path : FilePath) (place names : List FilePath)
    (result : Except Failure (List Manifest)) : Prop where
  reached : InTurn (Comes files path place) (names.filter (inReach files path place)) result
  whole : InTurn (Comes files path place) names result ↔ ReachesAll files path place names
  labels : ∀ manifests, result = .ok manifests → ShownApart (names.filter (inReach files path place)) →
    (manifests.map Manifest.source).Nodup
  texts : (∀ name ∈ names, ∃ text, name = Text.utf8 text) → ShownApart (names.filter (inReach files path place))

theorem directory_outcome (files : FileTree) (input : FileEntry) (path : FilePath) (place : List FilePath)
    (dashless : FilePath.isDash path = false) (directory : files.IsDirectory path place) :
    (∀ fault, files.listing? place = some fault →
        (readAll files input path).result = .error (cannotRead path fault)) ∧
      (files.listing? place = none →
        ∃ names, Selects files place names ∧ Reads files path place names (readAll files input path).result) ∧
      ∀ other input', files.Same other → readAll other input' path = readAll files input path := by
  refine ⟨fun fault closed => ?_, fun opened => ?_, fun other input' same =>
    read_all_same input input' other dashless directory same⟩
  · rw [read_all_unlisted input dashless directory fault closed]
  obtain ⟨names, selects⟩ := selects_exists files place
  have comes := comes_iff directory names selects
  have comesNear : ∀ name ∈ names.filter (inReach files path place), ∀ r,
      Comes files path place name r ↔ readFile files (FilePath.inside path name) = r :=
    fun name member => comes name (List.mem_of_mem_filter member)
  have read := read_all_directory input dashless directory opened names selects
  have turn : InTurn (Comes files path place) (names.filter (inReach files path place))
      (readAll files input path).result := by
    rw [read]
    exact (read_files_in_turn files path _ _ _ comesNear).mp rfl
  refine ⟨names, selects, turn, ?_, ?_, fun texts => ?_⟩
  · rw [← read_files_in_turn files path _ names _ comes, read]
    exact in_reach_only_iff names comes
  · intro manifests ok apart
    rw [ok] at turn
    obtain ⟨parts, all, rfl⟩ := turn
    exact (parts_sources _ parts apart all).1
  · exact shown_apart_texts _ (selects.nodup.filter _) fun name member => texts name (List.mem_of_mem_filter member)

end Whole

def mixed : FileTree where
  entries := [(["d", "b.yaml"], .ofText "kind: Secret\n---\n---\nkind: ConfigMap\n"),
    (["d", "notes.txt"], .ofText "kind: Secret\n"), (["d", "old.yml", "c.yaml"], .ofText "kind: Secret\n"),
    (["d", "a.json"], .ofText "\x7b\"kind\": \"Deployment\"\x7d\n"), (["d", "null.yaml"], .device .empty)]

def relisted : FileTree := { mixed with entries := mixed.entries.reverse }

def ofKind (source kind : String) : Manifest := ⟨source, .mapping [(.text "kind", .text kind)]⟩

theorem directory_outcome_mixed :
    FilePath.isDash "d" = false ∧ mixed.IsDirectory "d" ["d"] ∧ mixed.Same relisted ∧ mixed.listing? ["d"] = none ∧
      (readAll mixed (.ofText "") "d").result =
        .ok [ofKind "d/a.json[0]" "Deployment", ofKind "d/b.yaml[0]" "Secret", ofKind "d/b.yaml[2]" "ConfigMap"] ∧
      readAll relisted (.ofText "kind: Secret") "d" = readAll mixed (.ofText "") "d" := by
  have dashless : FilePath.isDash "d" = false := by decide
  have directory : mixed.IsDirectory "d" ["d"] :=
    FileTree.is_directory_of_names rfl ⟨_, _, rfl⟩ rfl (by decide)
  have same : mixed.Same relisted := FileTree.same_of_perm rfl (List.reverse_perm _) (by decide)
  obtain ⟨-, opened, relists⟩ := directory_outcome mixed (.ofText "") "d" ["d"] dashless directory
  obtain ⟨names, selects, reads⟩ := opened rfl
  have found : (mixed.namesAt ["d"]).filter (isManifestFile mixed "d") = (["b.yaml", "a.json"] : List FilePath) := by
    decide
  have near : names.filter (inReach mixed "d" ["d"]) = (["a.json", "b.yaml"] : List FilePath) := by
    rw [← found_in_reach directory names selects, found]
    refine ordered_unique _ _ (in_order_sorted _ (by decide)) (by decide) fun name => ?_
    rw [mem_in_order]
    exact (List.Perm.swap _ _ []).mem_iff
  have read := (read_files_in_turn mixed "d" _ _ _ fun name member r =>
    comes_iff directory names selects name (List.mem_of_mem_filter member) r).mpr reads.reached
  rw [near] at read
  exact ⟨dashless, directory, same, rfl, read.symm.trans rfl, relists _ _ same⟩

-- Names of bytes that are no text look alike, and so do their labels.
def alike : FileTree where
  entries := [(["d", [0xFE, 46, 121, 109, 108]], .ofText "kind: Secret\n"),
    (["d", [0xFF, 46, 121, 109, 108]], .ofText "kind: ConfigMap\n")]

theorem names_shown_alike : (readAll alike (.ofText "") "d").result =
    .ok [ofKind "d/\uFFFD.yml[0]" "Secret", ofKind "d/\uFFFD.yml[0]" "ConfigMap"] := by
  have directory : alike.IsDirectory "d" ["d"] :=
    FileTree.is_directory_of_names rfl ⟨_, _, rfl⟩ rfl (by decide)
  have found : ((alike.namesAt ["d"]).filter (isManifestFile alike "d")).Perm
      [[0xFE, 46, 121, 109, 108], [0xFF, 46, 121, 109, 108]] := by decide
  rw [read_all_sorted _ (by decide) directory rfl _ (by decide) found]
  rfl

section Distant

def winding : Nat → FilePath
  | 0 => "d"
  | n + 1 => winding n ++ [FilePath.slash, FilePath.point]

theorem winding_parts (n : Nat) : FilePath.parts (winding n) = Text.utf8 "d" :: List.replicate n [FilePath.point] := by
  induction n with
  | zero => decide
  | succ n ih =>
    rw [winding, FilePath.parts_below, ih, FilePath.parts_name _ (by decide), List.cons_append, List.replicate_succ']

theorem winding_size (n : Nat) : (winding n).length = 2 * n + 1 := by
  induction n with
  | zero => decide
  | succ n ih =>
    rw [winding, List.length_append, ih]
    simp only [List.length_cons, List.length_nil]
    omega

theorem winding_zeroless (n : Nat) : 0 ∉ winding n := by
  induction n with
  | zero => decide
  | succ n ih =>
    rw [winding, List.mem_append, not_or]
    exact ⟨ih, by decide⟩

theorem winding_starts (n : Nat) : (winding n).head? = some 100 := by
  induction n with
  | zero => decide
  | succ n ih => rw [winding, List.head?_append, ih, Option.some_or]

theorem winding_slashless (n : Nat) : FilePath.endsInSlash (winding n) = false := by
  cases n with
  | zero => decide
  | succ n =>
    rw [FilePath.endsInSlash, winding, List.getLast?_append]
    rfl

theorem winding_good (n : Nat) (short : 2 * n + 1 ≤ FileTree.longestPath) :
    FileTree.badPath? (winding n) = none := by
  have nonempty : winding n ≠ [] := by
    intro empty
    simpa [empty] using winding_size n
  rw [FileTree.badPath?, if_neg (by simpa using winding_zeroless n), if_neg nonempty,
    if_neg (by rw [winding_size]; omega)]

-- A file that is found from nearby, but not by a path of more than 4095 bytes.
def lone : FileTree where
  entries := [(["d", "aaaaaaaaaa.yaml"], .ofText "kind: Secret\n")]

theorem lone_searched (name : FilePath) : lone.search ["d"] name = .ok () :=
  (lone.search_ok_iff _ _).mpr ⟨_, _, rfl, .inr rfl⟩

theorem lone_find (n : Nat) (short : 2 * n + 1 ≤ FileTree.longestPath) : lone.find (winding n) = .ok ["d"] := by
  have entered : lone.enter [] "d" = .ok ["d"] := rfl
  have stays : (List.replicate n [FilePath.point]).foldlM lone.enter ["d"] = .ok ["d"] := by
    refine lone.walk_idle _ _ (fun part member => ?_) fun part _ => lone_searched part
    rw [List.eq_of_mem_replicate member]
    rfl
  have relative : lone.start (winding n) = [] := by
    rw [FileTree.start, FilePath.isAbsolute, winding_starts]
    rfl
  rw [FileTree.find, FileTree.follow, winding_good n short, relative, winding_parts]
  change (Text.utf8 "d" :: List.replicate n [FilePath.point]).foldlM lone.enter [] = _
  rw [List.foldlM_cons, entered]
  exact stays

theorem lone_directory : lone.IsDirectory (winding 2044) ["d"] :=
  FileTree.is_directory_of_names (lone_find 2044 (by decide)) ⟨_, _, rfl⟩ rfl (by decide)

theorem winding_dashless : FilePath.isDash (winding 2044) = false := by
  rw [FilePath.isDash, winding_parts]
  rfl

theorem winding_inside : FilePath.inside (winding 2044) "aaaaaaaaaa.yaml" = winding 2044 ++ "/aaaaaaaaaa.yaml" := by
  have slash : FilePath.slash :: Text.utf8 "aaaaaaaaaa.yaml" = "/aaaaaaaaaa.yaml" := by decide
  rw [FilePath.inside, winding_slashless, if_neg Bool.false_ne_true, slash]

theorem winding_inside_dashless : FilePath.isDash (FilePath.inside (winding 2044) "aaaaaaaaaa.yaml") = false := by
  rw [FilePath.inside, winding_slashless, if_neg Bool.false_ne_true, FilePath.isDash, FilePath.parts_below,
    winding_parts]
  rfl

theorem lone_hindrance : lone.hindrance? (winding 2044) ["d"] "aaaaaaaaaa.yaml" = some .nameTooLong := by
  rw [FileTree.hindrance?, winding_inside, List.length_append, winding_size, if_pos (by decide)]

theorem lone_out_of_reach : inReach lone (winding 2044) ["d"] "aaaaaaaaaa.yaml" = false := by
  rw [inReach, lone_hindrance]
  rfl

theorem lone_selects : Selects lone ["d"] ["aaaaaaaaaa.yaml"] := by
  refine ⟨List.pairwise_singleton _ _, fun name => ⟨fun member => ?_, ?_⟩⟩
  · obtain rfl := List.mem_singleton.mp member
    exact ⟨⟨"aaaaaaaaaa", "yaml", by decide, by decide, by decide⟩, _, rfl, rfl⟩
  · rintro ⟨-, entry, found, file⟩
    have listed : lone.namesAt ["d"] = (["aaaaaaaaaa.yaml"] : List FilePath) := by decide
    exact listed ▸ lone.file_listed _ name entry found file

theorem lone_skipped : (readAll lone (.ofText "") (winding 2044)).result = .ok [] := by
  rw [read_all_directory _ winding_dashless lone_directory rfl _ lone_selects,
    List.filter_cons_of_neg (by simp [lone_out_of_reach])]
  rfl

theorem lone_unread : (readAll lone (.ofText "") (winding 2044 ++ "/aaaaaaaaaa.yaml")).result =
    .error (cannotStat (winding 2044 ++ "/aaaaaaaaaa.yaml") .nameTooLong) := by
  obtain ⟨fault, hindered, unread⟩ :=
    far_comes _ _ lone_out_of_reach ((comes_iff lone_directory _ lone_selects _ List.mem_cons_self _).mpr rfl)
  obtain rfl := Option.some.inj (lone_hindrance.symm.trans hindered)
  have unseen := lone_directory.look_inside "aaaaaaaaaa.yaml" _ rfl
  rw [lone_hindrance] at unseen
  have alone : lone.names? (FilePath.inside (winding 2044) "aaaaaaaaaa.yaml") = none := by
    rw [FileTree.names?, unseen]
    split
    next found => cases found
    next => rfl
  rw [← winding_inside]
  exact read_all_unread lone _ _ _ winding_inside_dashless alone unread

theorem file_skipped_and_labels_alike :
    FilePath.isDash (winding 2044) = false ∧ lone.IsDirectory (winding 2044) ["d"] ∧
      Selects lone ["d"] ["aaaaaaaaaa.yaml"] ∧
      (readAll lone (.ofText "") (winding 2044)).result = .ok [] ∧
      (readAll lone (.ofText "") (winding 2044 ++ "/aaaaaaaaaa.yaml")).result =
        .error (cannotStat (winding 2044 ++ "/aaaaaaaaaa.yaml") .nameTooLong) ∧
      ¬ InTurn (Comes lone (winding 2044) ["d"]) ["aaaaaaaaaa.yaml"]
        (readAll lone (.ofText "") (winding 2044)).result ∧
      (readAll alike (.ofText "") "d").result =
        .ok [ofKind "d/\uFFFD.yml[0]" "Secret", ofKind "d/\uFFFD.yml[0]" "ConfigMap"] := by
  refine ⟨winding_dashless, lone_directory, lone_selects, lone_skipped, lone_unread, ?_, names_shown_alike⟩
  rw [lone_skipped]
  rintro ⟨parts, all, -⟩
  obtain ⟨part, -, comes, -⟩ := List.forall₂_cons_left_iff.mp all
  obtain ⟨fault, -, failed⟩ := far_comes _ _ lone_out_of_reach comes
  cases failed

end Distant

end ManifestSecrets.Manifest
