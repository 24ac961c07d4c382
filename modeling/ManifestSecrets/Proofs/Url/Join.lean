import ManifestSecrets.Url.Parse

set_option autoImplicit false

namespace ManifestSecrets.Url

theorem rooted_path_segments (scheme : String) (cs : List Char) : ∃ parts, rootedPath scheme cs = .segments parts := by
  cases cs with
  | nil => exact ⟨_, rfl⟩
  | cons c rest => exact ⟨_, rfl⟩

theorem after_slashes_web (naming : Naming) (scheme : String) (cs : List Char) (u : Url)
    (ok : afterSlashes naming scheme cs = .ok u) :
    u.scheme = scheme ∧ ∃ parts, u.path = .segments parts := by
  unfold afterSlashes at ok
  cases read : authority? naming scheme (cs.drop (cs.takeWhile fun c => !endsAuthority (isSpecial scheme) c).length).isEmpty
      (cs.takeWhile fun c => !endsAuthority (isSpecial scheme) c) with
  | error fault => simp [read, bind, Except.bind] at ok
  | ok found =>
    simp only [read, bind, Except.bind, pure, Except.pure, Except.ok.injEq] at ok
    obtain rfl := ok
    exact ⟨rfl, rooted_path_segments scheme _⟩

theorem file_url_scheme (naming : Naming) (cs : List Char) (u : Url) (ok : fileUrl naming cs = .ok u) : u.scheme = "file" := by
  unfold fileUrl at ok
  split at ok
  next front rest _ =>
    simp only [bind, Except.bind, pure, Except.pure] at ok
    by_cases empty : front.isEmpty = true
    · rw [if_pos empty] at ok
      rw [← Except.ok.inj ok]
    · rw [if_neg empty] at ok
      cases host : Host.parse naming front with
      | error fault => simp [host] at ok
      | ok found =>
        rw [host] at ok
        rw [← Except.ok.inj ok]

theorem with_scheme_web (naming : Naming) (scheme : String) (cs : List Char) (u : Url)
    (ok : withScheme naming scheme cs = .ok u) (noFile : isFile u.scheme = false) (special : isSpecial u.scheme = true) : ∃ parts, u.path = .segments parts := by
  unfold withScheme at ok
  split at ok
  next => simp [file_url_scheme naming cs u ok, isFile] at noFile
  next =>
    split at ok
    next => exact (after_slashes_web naming scheme _ u ok).2
    next plain =>
      split at ok
      next rest => exact (after_slashes_web naming scheme rest u ok).2
      next =>
        obtain rfl := Except.ok.inj ok
        exact rooted_path_segments scheme _
      next =>
        obtain rfl := Except.ok.inj ok
        exact absurd special plain

theorem parse_web (naming : Naming) (s : String) (u : Url) (ok : parse naming s = .ok u) (noFile : isFile u.scheme = false)
    (special : isSpecial u.scheme = true) : ∃ parts, u.path = .segments parts := by
  unfold parse at ok
  split at ok
  next scheme rest _ => exact with_scheme_web naming scheme rest u ok noFile special
  next => simp at ok

theorem with_slash_path (u : Url) (parts : List String) (path : u.path = .segments parts) :
    ∃ base, u.withSlash = { u with path := .segments (base ++ [""]) } := by
  unfold withSlash
  by_cases ends : u.endsInSlash = true
  · rw [if_pos ends]
    rw [endsInSlash, path] at ends
    obtain ⟨base, same⟩ := List.getLast?_eq_some_iff.mp (eq_of_beq ends)
    exact ⟨base, by rw [← same, ← path]⟩
  · rw [if_neg ends, path]
    exact ⟨parts, rfl⟩

theorem with_slash_scheme (u : Url) : u.withSlash.scheme = u.scheme := by
  unfold withSlash
  split
  · rfl
  · split <;> rfl

theorem add_segments_plain (parts added : List String)
    (plain : ∀ s ∈ added, isDoubleDot s = false ∧ isDot s = false) : addSegments false parts added = parts ++ added := by
  induction added generalizing parts with
  | nil => rw [addSegments, List.append_nil]
  | cons s rest ih =>
    obtain ⟨⟨double, single⟩, others⟩ := List.forall_mem_cons.mp plain
    have kept : addSegment false parts s = parts ++ [s] := by simp [addSegment]
    rw [addSegments]
    simp only [double, single, Bool.false_eq_true, if_false, kept]
    rw [ih _ others, List.append_assoc, List.singleton_append]

theorem join_plain (u : Url) (base added : List String) (relative : String) (chars : List Char)
    (path : u.path = .segments (base ++ [""])) (noFile : isFile u.scheme = false)
    (split : splitPath (isSpecial u.scheme) (stripped relative) = (chars, none, none))
    (segments : segmentsOf (isSpecial u.scheme) chars = added)
    (plain : ∀ s ∈ added, isDoubleDot s = false ∧ isDot s = false) :
    u.join relative = .ok { u with path := .segments (base ++ added), query := none, fragment := none } := by
  unfold join
  simp only [path, split, segments, noFile, tidy, List.dropLast_concat, add_segments_plain base added plain]
  rfl

theorem segments_text (base : List String) (last : List String) :
    (Path.segments (base ++ last)).text = (Path.segments base).text ++ (Path.segments last).text := by
  simp only [Path.text, List.map_append, String.join_append]

end ManifestSecrets.Url
