import ManifestSecrets.Proofs.Files.Write
import ManifestSecrets.Proofs.Text.Trim
import ManifestSecrets.Proofs.Text.Utf8
import Mathlib.Data.List.Nodup

set_option autoImplicit false

namespace ManifestSecrets

namespace FilePath

structure IsName (name : FilePath) : Prop where
  moves : isIdle name = false
  down : name ≠ upwards
  slashless : slash ∉ name
  zeroless : 0 ∉ name
  short : name.length ≤ FileTree.longestName

instance (name : FilePath) : Decidable (IsName name) :=
  decidable_of_iff (isIdle name = false ∧ name ≠ upwards ∧ slash ∉ name ∧ 0 ∉ name ∧
      name.length ≤ FileTree.longestName)
    ⟨fun ⟨moves, down, slashless, zeroless, short⟩ => ⟨moves, down, slashless, zeroless, short⟩,
      fun proper => ⟨proper.moves, proper.down, proper.slashless, proper.zeroless, proper.short⟩⟩

theorem parts_name (name : FilePath) (slashless : slash ∉ name) : parts name = [name] :=
  List.splitOn_eq_singleton slashless

theorem parts_below (front name : FilePath) : parts (front ++ slash :: name) = parts front ++ parts name :=
  List.splitOn_append_cons_self ..

theorem parts_slash (front : FilePath) : parts (front ++ [slash]) = parts front ++ [[]] := by
  rw [parts_below, parts_name [] (by simp)]

theorem inside_front (directory : FilePath) : ∃ front, (∀ name, inside directory name = front ++ slash :: name) ∧
    (directory = front ∨ directory = front ++ [slash]) := by
  by_cases ends : endsInSlash directory = true
  · obtain ⟨front, rfl⟩ := List.getLast?_eq_some_iff.mp (show directory.getLast? = some slash by
      simpa [endsInSlash] using ends)
    exact ⟨front, fun name => by simp [inside, ends], .inr rfl⟩
  · exact ⟨directory, fun name => by simp [inside, ends], .inl rfl⟩

-- A slash cannot be part of another character, so what follows it is shown as it is by itself.
theorem shown_inside (directory a b : FilePath) (same : shown (inside directory a) = shown (inside directory b)) :
    shown a = shown b := by
  obtain ⟨front, inside, -⟩ := inside_front directory
  have ascii : slash.toNat < 0x80 := by decide
  have chars := String.ofList_injective same
  rw [inside, inside, Text.lossy_ascii _ _ _ _ ascii, Text.lossy_ascii _ _ _ _ ascii] at chars
  exact congrArg String.ofList (List.cons.inj (List.append_cancel_left chars)).2

theorem file_name_of_name (name : FilePath) (proper : IsName name) : fileName? name = some name := by
  simp [fileName?, parts_name name proper.slashless, proper.moves, proper.down]

theorem last_point_iff (name after : FilePath) :
    ((name.reverse.takeWhile (· != point)).reverse = after ∧ after.length + 1 < name.length) ↔
      ∃ stem, name = stem ++ point :: after ∧ stem ≠ [] ∧ point ∉ after := by
  constructor
  · rintro ⟨rfl, longer⟩
    have split := List.takeWhile_append_dropWhile (p := (· != point)) (l := name.reverse)
    cases rest : name.reverse.dropWhile (· != point) with
    | nil =>
      rw [rest, List.append_nil] at split
      rw [split, List.length_reverse, List.length_reverse] at longer
      omega
    | cons b stem =>
      obtain rfl : b = point := by
        simpa using Text.drop_while_head (· != point) name.reverse b (by rw [rest]; rfl)
      rw [rest] at split
      have whole : name = stem.reverse ++ point :: (name.reverse.takeWhile (· != point)).reverse := by
        have reversed := congrArg List.reverse split
        simpa using reversed.symm
      refine ⟨stem.reverse, whole, ?_, ?_⟩
      · intro empty
        rw [empty] at whole
        have counted := congrArg List.length whole
        simp only [List.nil_append, List.length_cons] at counted
        omega
      · intro member
        have other := Text.take_while_all (· != point) _ _ (List.mem_reverse.mp member)
        simp at other
  · rintro ⟨stem, rfl, nonempty, pointless⟩
    have taken : ((stem ++ point :: after).reverse.takeWhile (· != point)) = after.reverse := by
      rw [List.reverse_append, List.reverse_cons, List.append_assoc,
        List.takeWhile_append_of_pos (by
          intro b member
          have other : b ≠ point := by
            rintro rfl
            exact pointless (List.mem_reverse.mp member)
          simpa using other)]
      simp
    have more := List.length_pos_iff.mpr nonempty
    refine ⟨by rw [taken, List.reverse_reverse], ?_⟩
    simp only [List.length_append, List.length_cons]
    omega

theorem extension_some_iff (name ext : FilePath) (proper : IsName name) :
    extension? name = some ext ↔ ∃ stem, name = stem ++ point :: ext ∧ stem ≠ [] ∧ point ∉ ext := by
  rw [← last_point_iff]
  simp only [extension?, file_name_of_name name proper, bind, Option.bind]
  constructor
  · intro same
    split at same
    next longer =>
      obtain rfl := Option.some.inj same
      exact ⟨rfl, longer⟩
    next => simp at same
  · rintro ⟨same, longer⟩
    rw [same, if_pos longer]
    rfl

end FilePath

namespace FileTree

variable (t : FileTree)

structure IsDirectory (path : FilePath) (place : List FilePath) : Prop where
  reached : t.find path = .ok place
  here : ∃ access hidden, t.entryAt? place = some (.directory access hidden)
  named : ∀ name entry, t.entryAt? (place ++ [name]) = some entry → FilePath.IsName name

def listing? (place : List FilePath) : Option FileFault := (t.entryAt? place).bind fun entry => entry.access.reading

def hindrance? (path : FilePath) (place : List FilePath) (name : FilePath) : Option FileFault :=
  if longestPath < (FilePath.inside path name).length then some .nameTooLong
  else match t.search place name with
    | .error fault => some fault
    | .ok _ => none

-- The same at each place, in whatever order it is listed.
structure Same (other : FileTree) : Prop where
  here : other.here = t.here
  entries : ∀ place, other.entryAt? place = t.entryAt? place

section Listing

variable (place : List FilePath) (name : FilePath)

theorem mem_names_at : name ∈ t.namesAt place ↔ ∃ e ∈ t.entries, place ++ [name] <+: e.1 := by
  have first (whole : List FilePath) :
      (if place.isPrefixOf whole then (whole.drop place.length).head? else none) = some name ↔
        place ++ [name] <+: whole := by
    split
    next above =>
      obtain ⟨rest, rfl⟩ := List.isPrefixOf_iff_prefix.mp above
      rw [List.drop_left, List.prefix_append_right_inj]
      cases rest with
      | nil => simp
      | cons next rest => simp [eq_comm]
    next apart =>
      simp only [reduceCtorEq, false_iff]
      intro within
      exact apart (List.isPrefixOf_iff_prefix.mpr ((List.prefix_append place [name]).trans within))
  simp only [namesAt, List.mem_eraseDups, List.mem_filterMap, first]

theorem entry_of_listed (listed : name ∈ t.namesAt place) : ∃ entry, t.entryAt? (place ++ [name]) = some entry := by
  obtain ⟨e, member, within⟩ := (t.mem_names_at place name).mp listed
  have above : (t.entries.any fun e => (place ++ [name]).isPrefixOf e.1) = true :=
    List.any_eq_true.mpr ⟨e, member, List.isPrefixOf_iff_prefix.mpr within⟩
  unfold entryAt?
  split
  · exact ⟨_, rfl⟩
  · exact ⟨.directory, by rw [above, Bool.or_true, if_pos rfl]⟩

theorem listed_of_entry (entry : FileEntry) (found : t.entryAt? (place ++ [name]) = some entry) :
    name ∈ t.namesAt place ∨ (entry = .directory ∧ place ++ [name] <+: t.here) := by
  unfold entryAt? at found
  split at found
  next e last =>
    obtain ⟨member, here⟩ := List.mem_filter.mp (List.mem_of_getLast? last)
    exact .inl ((t.mem_names_at place name).mpr ⟨e, member, [], by simpa using (beq_iff_eq.mp here).symm⟩)
  next =>
    split at found
    next above =>
      obtain rfl := Option.some.inj found
      simp only [Bool.or_eq_true, List.isEmpty_iff, List.append_eq_nil_iff, List.cons_ne_nil, and_false, false_or,
        List.isPrefixOf_iff_prefix, List.any_eq_true] at above
      exact above.symm.imp (t.mem_names_at place name).mpr fun here => ⟨rfl, here⟩
    next => simp at found

theorem file_listed (entry : FileEntry) (found : t.entryAt? (place ++ [name]) = some entry)
    (file : entry.isFile = true) : name ∈ t.namesAt place := by
  refine (t.listed_of_entry place name entry found).resolve_right ?_
  rintro ⟨rfl, -⟩
  simp [FileEntry.isFile] at file

theorem each_once (names : List FilePath) : names.eraseDups.Nodup := by
  cases names with
  | nil => exact List.nodup_nil
  | cons first rest =>
    rw [List.eraseDups_cons, List.nodup_cons]
    refine ⟨?_, each_once (rest.filter fun other => !other == first)⟩
    simp [List.mem_eraseDups]
termination_by names.length
decreasing_by exact Nat.lt_succ_of_le (List.length_filter_le _ rest)

end Listing

section Inside

variable (path : FilePath) (place : List FilePath)

theorem walk_idle (parts : List FilePath) (idle : ∀ part ∈ parts, FilePath.isIdle part = true)
    (searched : ∀ part ∈ parts, t.search place part = .ok ()) : parts.foldlM t.enter place = .ok place := by
  induction parts with
  | nil => rfl
  | cons part rest ih =>
    obtain ⟨here, there⟩ := List.forall_mem_cons.mp idle
    obtain ⟨first, later⟩ := List.forall_mem_cons.mp searched
    rw [List.foldlM_cons, (t.enter_ok_iff place place part).mpr ⟨first, .inl ⟨here, rfl⟩⟩]
    exact ih there later

theorem start_inside (name : FilePath) (nonempty : path ≠ []) :
    t.start (FilePath.inside path name) = t.start path := by
  obtain ⟨front, inside, ends⟩ := FilePath.inside_front path
  have first : (FilePath.inside path name).head? = path.head? := by
    rw [inside]
    rcases ends with rfl | rfl
    · rw [List.head?_append_of_ne_nil _ nonempty]
    · cases front <;> rfl
  rw [start, start, FilePath.isAbsolute, FilePath.isAbsolute, first]

theorem bad_path_inside (name : FilePath) (good : badPath? path = none) (zeroless : 0 ∉ name) :
    badPath? (FilePath.inside path name) =
      if longestPath < (FilePath.inside path name).length then some .nameTooLong else none := by
  have clear : 0 ∉ path := by
    intro member
    simp [badPath?, member] at good
  obtain ⟨front, inside, ends⟩ := FilePath.inside_front path
  have clearFront : 0 ∉ front := by
    rcases ends with rfl | rfl
    · exact clear
    · exact fun member => clear (List.mem_append_left _ member)
  have clearInside : (FilePath.inside path name).contains 0 = false := by
    simp [inside, clearFront, zeroless, FilePath.slash]
  have nonempty : FilePath.inside path name ≠ [] := by simp [inside]
  rw [badPath?, clearInside, if_neg Bool.false_ne_true, if_neg nonempty]

variable {t path place}

theorem is_directory_of_names (reached : t.find path = .ok place)
    (here : ∃ access hidden, t.entryAt? place = some (.directory access hidden)) (root : t.here = [])
    (proper : ∀ name ∈ t.namesAt place, FilePath.IsName name) : t.IsDirectory path place := by
  refine ⟨reached, here, fun name entry there => ?_⟩
  rcases t.listed_of_entry place name entry there with listed | ⟨-, above⟩
  · exact proper name listed
  · simp [root] at above

namespace IsDirectory

variable (directory : t.IsDirectory path place)

include directory

theorem good : badPath? path = none := t.follow_good path _ _ directory.reached

theorem walk_inside (name : FilePath) (proper : FilePath.IsName name) :
    (FilePath.parts (FilePath.inside path name)).foldlM t.enter (t.start path) = t.enter place name := by
  obtain ⟨front, inside, ends⟩ := FilePath.inside_front path
  have walked : (FilePath.parts path).foldlM t.enter (t.start path) = .ok place := by
    have reached := directory.reached
    simpa only [find, follow, directory.good] using reached
  have led : (FilePath.parts front).foldlM t.enter (t.start path) = .ok place := by
    generalize t.start path = above at walked ⊢
    rcases ends with rfl | rfl
    · exact walked
    · rw [FilePath.parts_slash, List.foldlM_append] at walked
      obtain ⟨before, led, stays⟩ := bind_ok walked
      simp only [List.foldlM_cons, List.foldlM_nil, bind_pure] at stays
      obtain ⟨-, ⟨-, rfl⟩ | ⟨moves, -⟩ | ⟨moves, -⟩⟩ := (t.enter_ok_iff _ _ _).mp stays
      · exact led
      all_goals simp [FilePath.isIdle] at moves
  rw [inside, FilePath.parts_below, FilePath.parts_name name proper.slashless, List.foldlM_append, led]
  change [name].foldlM t.enter place = _
  simp only [List.foldlM_cons, List.foldlM_nil, bind_pure]

theorem look_inside (name : FilePath) (entry : FileEntry) (found : t.entryAt? (place ++ [name]) = some entry) :
    t.look (FilePath.inside path name) = (t.hindrance? path place name).elim (.ok entry) .error := by
  have proper := directory.named name entry found
  have bad := bad_path_inside path name directory.good proper.zeroless
  rw [look, find, follow, bad, hindrance?]
  by_cases long : longestPath < (FilePath.inside path name).length
  · simp only [if_pos long]
    rfl
  · simp only [if_neg long, start_inside t path name (good_path_nonempty path directory.good),
      directory.walk_inside name proper]
    cases searched : t.search place name with
    | error fault =>
      rw [enter, searched]
      rfl
    | ok =>
      have entered : t.enter place name = .ok (place ++ [name]) :=
        (t.enter_ok_iff _ _ _).mpr ⟨searched, .inr (.inr ⟨proper.moves, proper.down, proper.short, ⟨_, found⟩, rfl⟩)⟩
      rw [entered]
      simp only [bind, Except.bind, found]
      rfl

theorem names : t.names? path = some ((t.listing? place).elim (.ok (t.namesAt place)) .error) := by
  obtain ⟨access, hidden, here⟩ := directory.here
  rw [names?, look, directory.reached]
  simp only [bind, Except.bind, here, listing?]
  rfl

end IsDirectory

end Inside

section Same

variable {t} {other : FileTree}

theorem same_of_perm (here : other.here = t.here) (entries : other.entries.Perm t.entries)
    (apart : (t.entries.map Prod.fst).Nodup) : t.Same other := by
  refine ⟨here, fun place => ?_⟩
  have once : (t.entries.filter fun e => e.1 == place).length ≤ 1 := by
    have counted := List.nodup_iff_count_le_one.mp apart place
    rwa [List.count_eq_countP, List.countP_map, List.countP_eq_length_filter] at counted
  have kept := entries.filter fun e => e.1 == place
  have same : (other.entries.filter fun e => e.1 == place) = t.entries.filter fun e => e.1 == place := by
    rcases found : t.entries.filter fun e => e.1 == place with _ | ⟨e, _ | ⟨e', rest⟩⟩
    · rw [found] at kept ⊢
      exact kept.eq_nil
    · rw [found] at kept ⊢
      exact kept.eq_singleton
    · simp [found] at once
  have above : (other.entries.any fun e => place.isPrefixOf e.1) = t.entries.any fun e => place.isPrefixOf e.1 := by
    rw [Bool.eq_iff_iff, List.any_eq_true, List.any_eq_true]
    simp only [entries.mem_iff]
  rw [entryAt?, entryAt?, same, above, here]

namespace Same

variable (same : t.Same other)

include same

theorem search_eq (place : List FilePath) (name : FilePath) : other.search place name = t.search place name := by
  rw [search, search, same.entries]

theorem find_eq (path : FilePath) : other.find path = t.find path := by
  have enter_eq : other.enter = t.enter := by
    funext place name
    rw [enter, enter, same.search_eq, same.entries]
  rw [find, find, follow, follow, start, start, same.here, enter_eq]

theorem look_eq (path : FilePath) : other.look path = t.look path := by
  simp only [look, same.find_eq, same.entries]

theorem directory {path : FilePath} {place : List FilePath} (directory : t.IsDirectory path place) :
    other.IsDirectory path place where
  reached := by rw [same.find_eq, directory.reached]
  here := by rw [same.entries]; exact directory.here
  named name entry found := directory.named name entry (by rw [← same.entries, found])

theorem listing_eq (place : List FilePath) : other.listing? place = t.listing? place := by
  rw [listing?, listing?, same.entries]

theorem hindrance_eq (path : FilePath) (place : List FilePath) (name : FilePath) :
    other.hindrance? path place name = t.hindrance? path place name := by
  rw [hindrance?, hindrance?, same.search_eq]

end Same

end Same

end FileTree

end ManifestSecrets
