import ManifestSecrets.Files.Tree
import ManifestSecrets.Proofs.Document

set_option autoImplicit false

namespace ManifestSecrets

namespace FilePath

theorem last_part_nonempty (path : FilePath) (nonempty : path ≠ []) (slashless : path.getLast? ≠ some slash) :
    (path.splitOn slash).getLast (List.splitOn_ne_nil slash path) ≠ [] := by
  induction path with
  | nil => exact absurd rfl nonempty
  | cons b rest ih =>
    cases rest with
    | nil =>
      have other : b ≠ slash := by simpa using slashless
      have alone : [b].splitOn slash = [[b]] := List.splitOn_eq_singleton (by simpa using Ne.symm other)
      simp [alone]
    | cons d rest =>
      have later := ih (by simp) (by simpa using slashless)
      simp only [List.splitOn_cons_eq_if_modifyHead (a := slash) b (d :: rest)]
      obtain ⟨first, others, pieces⟩ := List.exists_cons_of_ne_nil (List.splitOn_ne_nil slash (d :: rest))
      simp only [pieces] at later ⊢
      by_cases same : b = slash
      · simpa [same] using later
      · cases others with
        | nil => simp [same]
        | cons next others => simpa [same] using later

end FilePath

namespace FileTree

variable (t : FileTree)

theorem split_last_parts (path : FilePath) (nonempty : path ≠ []) (slashless : FilePath.endsInSlash path = false) :
    FilePath.parts path = (splitLast path).1 ++ [(splitLast path).2] := by
  have last := FilePath.last_part_nonempty path nonempty (by simpa [FilePath.endsInSlash] using slashless)
  obtain ⟨front, name, pieces⟩ : ∃ front name, path.splitOn FilePath.slash = front ++ [name] :=
    ⟨_, _, (List.dropLast_concat_getLast (List.splitOn_ne_nil FilePath.slash path)).symm⟩
  simp only [pieces, List.getLast_concat] at last
  simp [splitLast, FilePath.parts, pieces, last]

section Holding

variable (target : List FilePath) (entry : FileEntry)

theorem entry_at_target : (t.holding target entry).entryAt? target = some entry := by
  simp [entryAt?, holding, List.filter_append]

-- Nothing else is lost: the places above the new entry are directories, as they are above an old one.
theorem entry_at_other (place : List FilePath) (other : place ≠ target) (old : FileEntry)
    (found : t.entryAt? place = some old) : (t.holding target entry).entryAt? place = some old := by
  have kept : (t.holding target entry).entries.filter (·.1 == place) = t.entries.filter (·.1 == place) := by
    have apart : ∀ e : List FilePath × FileEntry, (e.1 == place && e.1 != target) = (e.1 == place) := by
      intro e
      by_cases here : e.1 = place
      · simp [here, other]
      · simp [here]
    simp [holding, List.filter_append, List.filter_filter, apart, Ne.symm other]
  have above : (t.entries.any fun e => place.isPrefixOf e.1) = true →
      ((t.holding target entry).entries.any fun e => place.isPrefixOf e.1) = true := by
    simp only [List.any_eq_true]
    rintro ⟨e, member, above⟩
    by_cases replaced : e.1 = target
    · exact ⟨(target, entry), by simp [holding], replaced ▸ above⟩
    · exact ⟨e, by simp [holding, member, replaced], above⟩
  unfold entryAt? at found ⊢
  rw [kept]
  split at found
  next e here => exact found
  next =>
    split at found
    next directory =>
      rw [if_pos]
      · exact found
      · simp only [Bool.or_eq_true] at directory ⊢
        exact directory.imp id above
    next => simp at found

end Holding

theorem search_ok_iff (place : List FilePath) (name : FilePath) : t.search place name = .ok () ↔
    ∃ access hidden, t.entryAt? place = some (.directory access hidden) ∧ (name = [] ∨ hidden name = none) := by
  unfold search
  split
  next access hidden here =>
    have alone : (∃ access' hidden', t.entryAt? place = some (.directory access' hidden') ∧
        (name = [] ∨ hidden' name = none)) ↔ name = [] ∨ hidden name = none := by
      constructor
      · rintro ⟨access', hidden', same, shown⟩
        obtain ⟨rfl, rfl⟩ := FileEntry.directory.inj (Option.some.inj (here.symm.trans same))
        exact shown
      · exact fun shown => ⟨access, hidden, here, shown⟩
    rw [alone]
    by_cases empty : name = []
    · simp [empty]
    · cases hidden name with
      | none => simp [empty]
      | some fault => simp [empty]
  next other =>
    constructor
    · intro wrong
      cases wrong
    · rintro ⟨access, hidden, here, -⟩
      exact absurd here (other access hidden)

theorem enter_ok_iff (place reached : List FilePath) (name : FilePath) :
    t.enter place name = .ok reached ↔ t.search place name = .ok () ∧
      ((FilePath.isIdle name = true ∧ reached = place) ∨
        (FilePath.isIdle name = false ∧ name = FilePath.upwards ∧ reached = place.dropLast) ∨
        (FilePath.isIdle name = false ∧ name ≠ FilePath.upwards ∧ name.length ≤ longestName ∧
          (∃ entry, t.entryAt? (place ++ [name]) = some entry) ∧ reached = place ++ [name])) := by
  rw [enter]
  cases searched : t.search place name with
  | error fault => simp [bind, Except.bind]
  | ok =>
    simp only [bind, Except.bind, true_and]
    by_cases idle : FilePath.isIdle name = true
    · simp [idle, pure, Except.pure, eq_comm]
    · by_cases up : name = FilePath.upwards
      · subst up
        simp [idle, pure, Except.pure, eq_comm]
      · by_cases long : longestName < name.length
        · simp [idle, up, long, throw, throwThe, MonadExceptOf.throw, Nat.not_le_of_lt long]
        · cases there : t.entryAt? (place ++ [name]) with
          | none => simp [idle, up, long, throw, throwThe, MonadExceptOf.throw]
          | some entry => simp [idle, up, Nat.le_of_not_lt long, pure, Except.pure, long, eq_comm]

theorem follow_append (path : FilePath) (front back : List FilePath) :
    t.follow path (front ++ back) = t.follow path front >>= fun reached => back.foldlM t.enter reached := by
  unfold follow
  split
  · rfl
  · rw [List.foldlM_append]

section Kept

variable (target : List FilePath) (entry : FileEntry)
  (file : ∀ access hidden, t.entryAt? target ≠ some (.directory access hidden))

include file

theorem search_kept (place : List FilePath) (name : FilePath) (searched : t.search place name = .ok ()) :
    (t.holding target entry).search place name = .ok () := by
  obtain ⟨access, hidden, here, shown⟩ := (t.search_ok_iff place name).mp searched
  have apart : place ≠ target := by
    rintro rfl
    exact file access hidden here
  exact (search_ok_iff _ place name).mpr
    ⟨access, hidden, t.entry_at_other target entry place apart _ here, shown⟩

theorem enter_kept (place reached : List FilePath) (name : FilePath) (entered : t.enter place name = .ok reached) :
    (t.holding target entry).enter place name = .ok reached := by
  obtain ⟨searched, step⟩ := (t.enter_ok_iff place reached name).mp entered
  refine (enter_ok_iff _ place reached name).mpr ⟨t.search_kept target entry file place name searched, ?_⟩
  refine step.imp_right (Or.imp_right ?_)
  rintro ⟨moves, down, short, ⟨old, there⟩, same⟩
  refine ⟨moves, down, short, ?_, same⟩
  by_cases here : place ++ [name] = target
  · exact ⟨_, by rw [here, t.entry_at_target target entry]⟩
  · exact ⟨old, t.entry_at_other target entry _ here old there⟩

theorem walk_kept (names : List FilePath) (place reached : List FilePath)
    (walked : names.foldlM t.enter place = .ok reached) :
    names.foldlM (t.holding target entry).enter place = .ok reached := by
  induction names generalizing place with
  | nil => exact walked
  | cons name rest ih =>
    rw [List.foldlM_cons] at walked ⊢
    obtain ⟨next, entered, later⟩ := bind_ok walked
    rw [t.enter_kept target entry file place next name entered]
    exact ih next later

theorem follow_kept (path : FilePath) (names : List FilePath) (reached : List FilePath)
    (followed : t.follow path names = .ok reached) : (t.holding target entry).follow path names = .ok reached := by
  unfold follow at followed ⊢
  split at followed
  · cases followed
  · exact t.walk_kept target entry file names _ reached followed

end Kept

-- A path whose last name can be looked up in a directory that is there, and leads to no directory above.
structure Names (path : FilePath) (place : List FilePath) (name : FilePath) : Prop where
  front : t.follow path (splitLast path).1 = .ok place
  last : (splitLast path).2 = name
  searched : t.search place name = .ok ()
  slashless : FilePath.endsInSlash path = false
  moves : FilePath.isIdle name = false
  down : name ≠ FilePath.upwards
  short : name.length ≤ longestName

theorem write_names (path : FilePath) (content : String) (after : FileTree) (ok : t.write path content = .ok after) :
    ∃ place name, t.Names path place name ∧ t.put place name content = .ok after := by
  unfold write at ok
  generalize split : splitLast path = pieces at ok
  obtain ⟨front, name⟩ := pieces
  obtain ⟨place, followed, ok⟩ := bind_ok ok
  obtain ⟨⟨⟩, searched, ok⟩ := bind_ok ok
  by_cases named : (FilePath.endsInSlash path || FilePath.isIdle name || decide (name = FilePath.upwards)) = true
  · simp only [named, if_true] at ok
    cases ok
  · by_cases long : longestName < name.length
    · simp only [named, long, if_true] at ok
      cases ok
    · simp only [named, long, if_false] at ok
      simp only [Bool.or_eq_true, decide_eq_true_eq, not_or, Bool.not_eq_true] at named
      exact ⟨place, name, ⟨by rw [split]; exact followed, by rw [split], searched, named.1.1, named.1.2, named.2,
        Nat.le_of_not_lt long⟩, ok⟩

inductive Puts (place : List FilePath) (name : FilePath) (content : String) : FileTree → Prop
  | replaced (old : ByteArray) (access : Access) (here : t.entryAt? (place ++ [name]) = some (.file old access))
      (writable : access.writing = none) : Puts place name content (t.holding (place ++ [name]) (.ofText content access))
  | new (here : t.entryAt? (place ++ [name]) = none) :
      Puts place name content (t.holding (place ++ [name]) (.ofText content t.fresh))
  | device (old : ByteArray) (access : Access) (here : t.entryAt? (place ++ [name]) = some (.device old access)) :
      Puts place name content t

theorem put_ok (place : List FilePath) (name : FilePath) (content : String) (after : FileTree)
    (ok : t.put place name content = .ok after) : t.Puts place name content after := by
  unfold put at ok
  dsimp only at ok
  split at ok
  next => cases ok
  next old access here =>
    cases writing : access.writing with
    | some fault => simp [writing] at ok
    | none =>
      rw [writing] at ok
      obtain rfl := Except.ok.inj ok
      exact .replaced old access here writing
  next old access here =>
    cases writing : access.writing with
    | some fault => simp [writing] at ok
    | none =>
      rw [writing] at ok
      obtain rfl := Except.ok.inj ok
      exact .device old access here
  next here =>
    cases writing : ((t.entryAt? place).bind fun above => above.access.writing) with
    | some fault => simp [writing] at ok
    | none =>
      rw [writing] at ok
      obtain rfl := Except.ok.inj ok
      exact .new here

theorem good_path_nonempty (path : FilePath) (good : badPath? path = none) : path ≠ [] := by
  rintro rfl
  simp [badPath?] at good

theorem follow_good (path : FilePath) (names reached : List FilePath) (followed : t.follow path names = .ok reached) :
    badPath? path = none := by
  unfold follow at followed
  split at followed
  · cases followed
  · assumption

namespace Names

variable {t} {path : FilePath} {place : List FilePath} {name : FilePath} (names : t.Names path place name)

include names

theorem parts : FilePath.parts path = (splitLast path).1 ++ [name] :=
  names.last ▸ split_last_parts path (good_path_nonempty path (t.follow_good path _ _ names.front)) names.slashless

theorem look (entry : FileEntry) (here : t.entryAt? (place ++ [name]) = some entry) : t.look path = .ok entry := by
  have entered : t.enter place name = .ok (place ++ [name]) :=
    (t.enter_ok_iff _ _ _).mpr ⟨names.searched, .inr (.inr ⟨names.moves, names.down, names.short, ⟨_, here⟩, rfl⟩)⟩
  simp only [FileTree.look, find, names.parts, follow_append, names.front, bind, Except.bind, List.foldlM_cons, entered,
    List.foldlM_nil, pure, Except.pure, here]

theorem look_missing (absent : t.entryAt? (place ++ [name]) = none) : t.look path = .error .missing := by
  have long : ¬ longestName < name.length := Nat.not_lt_of_le names.short
  have refused : t.enter place name = .error .missing := by
    rw [enter, names.searched]
    simp [bind, Except.bind, names.moves, names.down, long, absent, throw, throwThe, MonadExceptOf.throw]
  simp only [FileTree.look, find, names.parts, follow_append, names.front, bind, Except.bind, List.foldlM_cons, refused]

theorem holding (entry : FileEntry)
    (file : ∀ access hidden, t.entryAt? (place ++ [name]) ≠ some (.directory access hidden)) :
    (t.holding (place ++ [name]) entry).Names path place name where
  front := t.follow_kept _ entry file path _ _ names.front
  last := names.last
  searched := t.search_kept _ entry file place name names.searched
  slashless := names.slashless
  moves := names.moves
  down := names.down
  short := names.short

theorem look_holding (entry : FileEntry)
    (file : ∀ access hidden, t.entryAt? (place ++ [name]) ≠ some (.directory access hidden)) :
    (t.holding (place ++ [name]) entry).look path = .ok entry :=
  (names.holding entry file).look entry (t.entry_at_target _ entry)

end Names

inductive Wrote (path : FilePath) (content : String) (after : FileTree) : Prop
  | replaced (old : ByteArray) (access : Access) (before : t.look path = .ok (.file old access))
      (found : after.look path = .ok (.ofText content access))
  | new (before : t.look path = .error .missing) (found : after.look path = .ok (.ofText content t.fresh))
  | device (old : ByteArray) (access : Access) (before : t.look path = .ok (.device old access)) (same : after = t)

theorem look_write (path : FilePath) (content : String) (after : FileTree) (ok : t.write path content = .ok after) :
    t.Wrote path content after := by
  obtain ⟨place, name, names, put⟩ := t.write_names path content after ok
  cases t.put_ok place name content after put with
  | replaced old access here writable =>
    exact .replaced old access (names.look _ here) (names.look_holding _ (by simp [here]))
  | new here => exact .new (names.look_missing here) (names.look_holding _ (by simp [here]))
  | device old access here => exact .device old access (names.look _ here) rfl

end FileTree

end ManifestSecrets
