import ManifestSecrets.Proofs.Text.Trim
import ManifestSecrets.Proofs.Url.Host
import ManifestSecrets.Proofs.Url.Join
import Mathlib.Data.List.TakeWhile

set_option autoImplicit false

namespace ManifestSecrets.Url

theorem stripped_clean (cs : List Char) (clean : ∀ c ∈ cs, 0x20 < c.toNat) : stripped (String.ofList cs) = cs := by
  have edgeless (ds : List Char) (inner : ∀ c ∈ ds, 0x20 < c.toNat) :
      ds.dropWhile (fun c : Char => decide (c.toNat ≤ 0x20)) = ds := by
    refine Text.drop_while_kept _ ds fun c first => ?_
    have := inner c (List.mem_of_mem_head? first)
    simp only [decide_eq_false_iff_not]
    omega
  have kept : cs.filter (fun c => c != '\t' && c != '\n' && c != '\r') = cs := by
    refine List.filter_eq_self.mpr fun c member => ?_
    have := clean c member
    simp only [Bool.and_eq_true, bne_iff_ne]
    refine ⟨⟨?_, ?_⟩, ?_⟩ <;> (rintro rfl; revert this; decide)
  simp only [stripped, String.toList_ofList, edgeless cs clean,
    edgeless cs.reverse fun c member => clean c (List.mem_reverse.mp member), List.reverse_reverse, kept]

def portChars (port : Option (List Char)) : List Char := port.elim [] (':' :: ·)

def isInner (c : Char) : Bool := !endsAuthority true c && c != '@' && 0x20 < c.toNat

theorem inner_iff (c : Char) : isInner c = true ↔
    c ≠ '/' ∧ c ≠ '\\' ∧ c ≠ '?' ∧ c ≠ '#' ∧ c ≠ '@' ∧ 0x20 < c.toNat := by
  simp [isInner, endsAuthority, isSlash, and_assoc]

theorem unbarred_inner (c : Char) (unbarred : isBarred c = false) : isInner c = true := by
  have late : 0x20 < c.toNat := by
    simp only [isBarred, Bool.or_eq_false_iff, decide_eq_false_iff_not] at unbarred
    omega
  have other (d : Char) (barred : isBarred d = true) : c ≠ d := by
    rintro rfl
    simp [barred] at unbarred
  exact (inner_iff c).mpr ⟨other '/' (by decide), other '\\' (by decide), other '?' (by decide), other '#' (by decide),
    other '@' (by decide), late⟩

theorem hex_value_ascii (c : Char) (digit : (Text.hexValue? c).isSome = true) : c.toNat < 0x80 := by
  by_contra large
  have above (d : Char) (ascii : d.toNat < 0x80) : ¬ c ≤ d := by
    intro least
    have order : c.toNat ≤ d.toNat := least
    omega
  simp [Text.hexValue?, above '9' (by decide), above 'f' (by decide), above 'F' (by decide)] at digit

theorem piece_char_inner (c : Char) (piece : isPieceChar c = true) : isInner c = true ∧ c ≠ ']' := by
  have all : ∀ n : Fin 0x80, isPieceChar (Char.ofNat n) = true → isInner (Char.ofNat n) = true ∧ Char.ofNat n ≠ ']' := by
    decide +kernel
  have ascii : c.toNat < 0x80 := by
    simp only [isPieceChar, Bool.or_eq_true, beq_iff_eq] at piece
    rcases piece with (digit | rfl) | rfl
    · exact hex_value_ascii c digit
    · decide
    · decide
  simpa using all ⟨c.toNat, ascii⟩ (by simpa using piece)

theorem split_port_tail (port : Option (List Char)) : splitPort false (portChars port) = ([], port) := by
  cases port <;> rfl

theorem split_port_name (cs : List Char) (unbarred : ∀ c ∈ cs, isBarred c = false) (port : Option (List Char)) :
    splitPort false (cs ++ portChars port) = (cs, port) := by
  induction cs with
  | nil => exact split_port_tail port
  | cons c rest ih =>
    obtain ⟨here, later⟩ := List.forall_mem_cons.mp unbarred
    have other (d : Char) (barred : isBarred d = true) : (c == d) = false := by
      rw [beq_eq_false_iff_ne]
      rintro rfl
      simp [barred] at here
    rw [List.cons_append, splitPort]
    simp [other ':' (by decide), other '[' (by decide), other ']' (by decide), ih later]

-- Within brackets a colon is no port.
theorem split_port_pieces (inner : List Char) (pieces : ∀ c ∈ inner, isPieceChar c = true) (port : Option (List Char)) :
    splitPort true (inner ++ (']' :: portChars port)) = (inner ++ [']'], port) := by
  induction inner with
  | nil => simp [splitPort, split_port_tail]
  | cons c rest ih =>
    obtain ⟨here, later⟩ := List.forall_mem_cons.mp pieces
    have other : (c == ']') = false := beq_eq_false_iff_ne.mpr (piece_char_inner c here).2
    rw [List.cons_append, splitPort]
    simp [other, ih later]

section Written

variable (naming : Naming) (cs : List Char) (host : Host) (hosted : IsHostText cs)
  (read : Host.parse naming cs = .ok host)

include hosted read

theorem split_port_host (port : Option (List Char)) :
    splitPort false (cs ++ portChars port) = (cs, port) := by
  rcases host_written naming cs host hosted read with unbarred | ⟨inner, rfl, pieces⟩
  · exact split_port_name cs unbarred port
  · rw [List.cons_append, List.append_assoc, List.singleton_append, splitPort]
    simp [split_port_pieces inner pieces port]

theorem host_inner : ∀ c ∈ cs, isInner c = true := by
  rcases host_written naming cs host hosted read with unbarred | ⟨inner, rfl, pieces⟩
  · exact fun c member => unbarred_inner c (unbarred c member)
  · simp only [List.forall_mem_cons, List.forall_mem_append]
    exact ⟨by decide, fun c member => (piece_char_inner c (pieces c member)).1, by decide, List.forall_mem_nil _⟩

end Written

theorem digit_inner (c : Char) (digit : c.isDigit = true) : isInner c = true :=
  (piece_char_inner c (digit_piece_char c digit)).1

theorem split_credentials_none (cs : List Char) (inner : ∀ c ∈ cs, isInner c = true) : splitCredentials cs = none := by
  have whole : (cs.reverse.takeWhile (· != '@')).reverse = cs := by
    rw [List.takeWhile_eq_self_iff.mpr, List.reverse_reverse]
    intro c member
    exact bne_iff_ne.mpr ((inner_iff c).mp (inner c (List.mem_reverse.mp member))).2.2.2.2.1
  simp [splitCredentials, whole]

def portNumber (scheme : String) (port : Option (List Char)) : Option Nat :=
  port.bind fun digits =>
    if digits = [] ∨ defaultPort? scheme = some (Text.decimal digits) then none else some (Text.decimal digits)

def IsPort (digits : List Char) : Prop := (∀ c ∈ digits, c.isDigit = true) ∧ Text.decimal digits ≤ 65535

instance (digits : List Char) : Decidable (IsPort digits) :=
  decidable_of_iff (digits.all Char.isDigit = true ∧ Text.decimal digits ≤ 65535) (by rw [IsPort, List.all_eq_true])

theorem port_read (usual : Option Nat) (digits : List Char) (valid : IsPort digits) : port? usual digits =
    .ok (if digits = [] ∨ usual = some (Text.decimal digits) then none else some (Text.decimal digits)) := by
  have all : digits.all Char.isDigit = true := List.all_eq_true.mpr valid.1
  have small : ¬ 65535 < Text.decimal digits := Nat.not_lt_of_le valid.2
  simp only [port?, Text.digits_read, all, small, decide_false, Bool.not_true, Bool.or_false, Bool.false_eq_true, if_false,
    Bool.or_eq_true, List.isEmpty_iff, beq_iff_eq]
  split <;> rfl

section Authority

variable (naming : Naming) (cs : List Char) (host : Host) (hosted : IsHostText cs)
  (read : Host.parse naming cs = .ok host)

include hosted read

theorem authority_inner (port : Option (List Char))
    (valid : ∀ digits, port = some digits → IsPort digits) : ∀ c ∈ cs ++ portChars port, isInner c = true := by
  refine List.forall_mem_append.mpr ⟨host_inner naming cs host hosted read, ?_⟩
  cases port with
  | none => simp [portChars]
  | some digits =>
    exact List.forall_mem_cons.mpr ⟨by decide, fun c member => digit_inner c ((valid digits rfl).1 c member)⟩

theorem authority_read (scheme : String) (special : isSpecial scheme = true) (atEnd : Bool) (port : Option (List Char))
    (valid : ∀ digits, port = some digits → IsPort digits) :
    authority? naming scheme atEnd (cs ++ portChars port) = .ok (⟨"", host, portNumber scheme port⟩, []) := by
  have inner := authority_inner naming cs host hosted read port valid
  have slashless (digits : List Char) (given : port = some digits) : ∀ c ∈ digits, (c != '\\') = true := fun c member =>
    bne_iff_ne.mpr ((inner_iff c).mp (digit_inner c ((valid digits given).1 c member))).2.1
  have number : port? (defaultPort? scheme) ((port.getD []).takeWhile (· != '\\')) = .ok (portNumber scheme port) := by
    cases port with
    | none => exact port_read _ [] ⟨by simp, by decide⟩
    | some digits =>
      rw [Option.getD_some, List.takeWhile_eq_self_iff.mpr (slashless digits rfl)]
      exact port_read _ digits (valid digits rfl)
  have nothingLeft : port.elim [] (·.dropWhile (· != '\\')) = [] := by
    cases port with
    | none => rfl
    | some digits => exact List.dropWhile_eq_nil_iff.mpr (slashless digits rfl)
  have nameless : credentials [] = "" := by decide
  have nonempty : cs.isEmpty = false := by simpa using hosted.1
  simp only [authority?, split_credentials_none _ inner, Option.getD_none, nameless,
    split_port_host naming cs host hosted read port, nonempty, special, read, Bool.false_and, number, nothingLeft, Bool.false_eq_true, if_false, if_true]
  rfl

end Authority

def isUnreserved (c : Char) : Bool := c.isAlphanum || c == '-' || c == '_' || c == '~' || c == '.'

-- A segment that stands for itself.
def IsPlain (s : String) : Prop := (∀ c ∈ s.toList, isUnreserved c = true) ∧ s ≠ "." ∧ s ≠ ".."

instance (s : String) : Decidable (IsPlain s) :=
  decidable_of_iff (s.toList.all isUnreserved = true ∧ s ≠ "." ∧ s ≠ "..") (by rw [IsPlain, List.all_eq_true])

def pathChars (parts : List String) : List Char := parts.flatMap fun part => '/' :: part.toList

theorem path_text_chars (parts : List String) : (Path.segments parts).text.toList = pathChars parts := by
  simp [Path.text, pathChars, String.toList_join, List.flatMap_map]

theorem unreserved_ascii (c : Char) (unreserved : isUnreserved c = true) : c.toNat < 0x80 := by
  simp only [isUnreserved, Bool.or_eq_true, beq_iff_eq] at unreserved
  rcases unreserved with (((alphanumeric | rfl) | rfl) | rfl) | rfl
  · have ranges : ((c.isUpper || c.isLower) || c.isDigit) = true := alphanumeric
    rw [Bool.or_eq_true, Bool.or_eq_true] at ranges
    have below : ∀ last : Char, c.val ≤ last.val → last.toNat < 0x80 → c.toNat < 0x80 := fun _ upTo small =>
      Nat.lt_of_le_of_lt (UInt32.le_iff_toNat_le.mp upTo) small
    rcases ranges with (upper | lower) | digit
    · exact below 'Z' (of_decide_eq_true upper).2 (by decide)
    · exact below 'z' (of_decide_eq_true (Bool.and_eq_true_iff.mp lower).2) (by decide)
    · exact below '9' (of_decide_eq_true (Bool.and_eq_true_iff.mp digit).2) (by decide)
  all_goals decide

theorem unreserved_inner (c : Char) (unreserved : isUnreserved c = true) :
    isInner c = true ∧ c ≠ '%' ∧ encodeChar inPathSet c = String.singleton c := by
  have all : ∀ n : Fin 0x80, isUnreserved (Char.ofNat n) = true → isInner (Char.ofNat n) = true ∧
      Char.ofNat n ≠ '%' ∧ encodeChar inPathSet (Char.ofNat n) = String.singleton (Char.ofNat n) := by
    decide +kernel
  simpa using all ⟨c.toNat, unreserved_ascii c unreserved⟩ (by simpa using unreserved)

theorem inner_slashless (c : Char) (inner : isInner c = true) : isSlash true c = false ∧ isPathEnd c = false := by
  obtain ⟨slash, backslash, query, fragment, -⟩ := (inner_iff c).mp inner
  simp [isSlash, isPathEnd, slash, backslash, query, fragment]

theorem encode_plain (cs : List Char) (unreserved : ∀ c ∈ cs, isUnreserved c = true) :
    encode inPathSet cs = String.ofList cs := by
  induction cs with
  | nil => rfl
  | cons c rest ih =>
    obtain ⟨here, later⟩ := List.forall_mem_cons.mp unreserved
    have joined : encode inPathSet (c :: rest) = encodeChar inPathSet c ++ encode inPathSet rest := by
      simp only [encode, List.map_cons, String.join_cons]
    rw [joined, (unreserved_inner c here).2.2, ih later, String.ofList_cons]

theorem plain_stays (s : String) (plain : IsPlain s) : isDoubleDot s = false ∧ isDot s = false := by
  obtain ⟨unreserved, single, double⟩ := plain
  have other (t : String) (mark : '%' ∈ t.toList) : s ≠ t := by
    rintro rfl
    exact (unreserved_inner '%' (unreserved '%' mark)).2.1 rfl
  constructor
  · simp only [isDoubleDot, List.contains_eq_mem, List.mem_cons, List.not_mem_nil, or_false, decide_eq_false_iff_not, not_or]
    exact ⟨double, other _ (by decide), other _ (by decide), other _ (by decide), other _ (by decide),
      other _ (by decide), other _ (by decide), other _ (by decide), other _ (by decide)⟩
  · simp only [isDot, Bool.or_eq_false_iff, beq_eq_false_iff_ne]
    exact ⟨⟨single, other _ (by decide)⟩, other _ (by decide)⟩

theorem split_where_all (p : Char → Bool) (cs : List Char) (markless : ∀ c ∈ cs, p c = false) : splitWhere p cs = [cs] := by
  induction cs with
  | nil => rfl
  | cons c rest ih =>
    obtain ⟨here, later⟩ := List.forall_mem_cons.mp markless
    simp [splitWhere, here, ih later]

theorem split_where_mark (p : Char → Bool) (cs rest : List Char) (mark : Char) (markless : ∀ c ∈ cs, p c = false)
    (here : p mark = true) : splitWhere p (cs ++ mark :: rest) = cs :: splitWhere p rest := by
  induction cs with
  | nil => simp [splitWhere, here]
  | cons c cs ih =>
    obtain ⟨first, later⟩ := List.forall_mem_cons.mp markless
    simp [splitWhere, first, ih later]

theorem plain_written (s : String) (plain : IsPlain s) :
    (∀ c ∈ s.toList, isSlash true c = false) ∧ encode inPathSet s.toList = s := by
  refine ⟨fun c member => (inner_slashless c (unreserved_inner c (plain.1 c member)).1).1, ?_⟩
  rw [encode_plain _ plain.1, String.ofList_toList]

theorem path_chars_cons (part : String) (rest : List String) :
    pathChars (part :: rest) = '/' :: (part.toList ++ pathChars rest) := by
  rw [pathChars, List.flatMap_cons, List.cons_append, pathChars]

theorem segments_of_path (part : String) (rest : List String) (plain : ∀ s ∈ part :: rest, IsPlain s) :
    segmentsOf true (part.toList ++ pathChars rest) = part :: rest := by
  induction rest generalizing part with
  | nil =>
    obtain ⟨slashless, kept⟩ := plain_written part (plain part List.mem_cons_self)
    simp [segmentsOf, pathChars, split_where_all _ _ slashless, kept]
  | cons next rest ih =>
    obtain ⟨here, later⟩ := List.forall_mem_cons.mp plain
    obtain ⟨slashless, kept⟩ := plain_written part here
    have others := ih next later
    rw [segmentsOf] at others ⊢
    rw [path_chars_cons, split_where_mark _ _ _ '/' slashless (by decide), List.map_cons, kept, others]

theorem rooted_path_plain (scheme : String) (special : isSpecial scheme = true) (noFile : isFile scheme = false)
    (parts : List String) (plain : ∀ s ∈ parts, IsPlain s) :
    rootedPath scheme (pathChars parts) = .segments (if parts = [] then [""] else parts) := by
  cases parts with
  | nil => simp [pathChars, rootedPath, special]
  | cons part rest =>
    have slash : isSlash true '/' = true := by decide
    have stays : ∀ s ∈ part :: rest, isDoubleDot s = false ∧ isDot s = false := fun s member => plain_stays s (plain s member)
    simp only [path_chars_cons, rootedPath, special, noFile, slash, if_true, tidy, segments_of_path part rest plain,
      add_segments_plain [] _ stays, Bool.false_eq_true, if_false, reduceCtorEq, List.nil_append]

theorem split_path_plain (cs : List Char) (inner : ∀ c ∈ cs, isPathEnd c = false) : splitPath true cs = (cs, none, none) := by
  have whole : cs.takeWhile (fun c => !isPathEnd c) = cs :=
    List.takeWhile_eq_self_iff.mpr fun c member => by simp [inner c member]
  have nothingLeft : cs.dropWhile (fun c => !isPathEnd c) = [] :=
    List.dropWhile_eq_nil_iff.mpr fun c member => by simp [inner c member]
  simp [splitPath, whole, nothingLeft]

def IsWeb (scheme : String) : Prop := scheme = "http" ∨ scheme = "https"

theorem web_special (scheme : String) (web : IsWeb scheme) : isSpecial scheme = true ∧ isFile scheme = false := by
  rcases web with rfl | rfl <;> decide

theorem web_clean (scheme : String) (web : IsWeb scheme) : ∀ c ∈ scheme.toList, 0x20 < c.toNat := by
  have late : (scheme.toList.all fun c => decide (0x20 < c.toNat)) = true := by
    rcases web with rfl | rfl
    · decide
    · decide
  exact fun c member => of_decide_eq_true (List.all_eq_true.mp late c member)

theorem scheme_read (scheme : String) (web : IsWeb scheme) (rest : List Char) :
    scheme? (scheme.toList ++ ':' :: rest) = some (scheme, rest) := by
  rcases web with rfl | rfl
  · rfl
  · rfl

theorem path_chars_clean (parts : List String) (plain : ∀ s ∈ parts, IsPlain s) :
    ∀ c ∈ pathChars parts, 0x20 < c.toNat ∧ isPathEnd c = false := by
  intro c member
  obtain ⟨part, there, inside⟩ := List.mem_flatMap.mp member
  rcases List.mem_cons.mp inside with rfl | inside
  · decide
  · have inner := (unreserved_inner c ((plain part there).1 c inside)).1
    exact ⟨((inner_iff c).mp inner).2.2.2.2.2, (inner_slashless c inner).2⟩

theorem after_slashes_read (naming : Naming) (scheme : String) (special : isSpecial scheme = true)
    (noFile : isFile scheme = false) (cs : List Char) (host : Host) (hosted : IsHostText cs)
    (read : Host.parse naming cs = .ok host) (port : Option (List Char))
    (valid : ∀ digits, port = some digits → IsPort digits) (parts : List String) (plain : ∀ s ∈ parts, IsPlain s) :
    afterSlashes naming scheme (cs ++ portChars port ++ pathChars parts) =
      .ok ⟨scheme, some ⟨"", host, portNumber scheme port⟩, .segments (if parts = [] then [""] else parts), none, none⟩ := by
  have inner : ∀ c ∈ cs ++ portChars port, (!endsAuthority true c) = true := by
    intro c member
    have within := authority_inner naming cs host hosted read port valid c member
    simp only [isInner, Bool.and_eq_true] at within
    exact within.1.1
  have stops : (pathChars parts).takeWhile (fun c => !endsAuthority true c) = [] := by
    cases parts with
    | nil => rfl
    | cons part rest => rw [path_chars_cons]; rfl
  have front : (cs ++ portChars port ++ pathChars parts).takeWhile (fun c => !endsAuthority true c) =
      cs ++ portChars port := by
    rw [List.takeWhile_append_of_pos inner, stops, List.append_nil]
  simp only [afterSlashes, special, front, List.drop_left,
    authority_read naming cs host hosted read scheme special _ port valid,
    split_path_plain _ fun c member => (path_chars_clean parts plain c member).2, List.nil_append, bind, Except.bind,
    rooted_path_plain scheme special noFile parts plain]
  rfl

def written (scheme host : String) (port : Option (List Char)) (parts : List String) : String :=
  scheme ++ "://" ++ host ++ String.ofList (portChars port) ++ (Path.segments parts).text

theorem written_chars (scheme host : String) (port : Option (List Char)) (parts : List String) :
    (written scheme host port parts).toList =
      scheme.toList ++ ':' :: '/' :: '/' :: (host.toList ++ portChars port ++ pathChars parts) := by
  simp [written, path_text_chars]

theorem parse_written (naming : Naming) (scheme host : String) (web : IsWeb scheme) (found : Host)
    (hosted : IsHostText host.toList) (read : Host.parse naming host.toList = .ok found) (port : Option (List Char))
    (valid : ∀ digits, port = some digits → IsPort digits) (parts : List String) (plain : ∀ s ∈ parts, IsPlain s) :
    parse naming (written scheme host port parts) =
      .ok ⟨scheme, some ⟨"", found, portNumber scheme port⟩, .segments (if parts = [] then [""] else parts), none, none⟩ := by
  obtain ⟨special, noFile⟩ := web_special scheme web
  have inner := authority_inner naming host.toList found hosted read port valid
  have late (c : Char) (member : c ∈ host.toList ++ portChars port) : 0x20 < c.toNat :=
    ((inner_iff c).mp (inner c member)).2.2.2.2.2
  have clean : ∀ c ∈ (written scheme host port parts).toList, 0x20 < c.toNat := by
    rw [written_chars]
    refine List.forall_mem_append.mpr ⟨web_clean scheme web, ?_⟩
    simp only [List.forall_mem_cons]
    exact ⟨by decide, by decide, by decide,
      List.forall_mem_append.mpr ⟨late, fun c member => (path_chars_clean parts plain c member).1⟩⟩
  have slashes : ('/' :: '/' :: (host.toList ++ portChars port ++ pathChars parts)).dropWhile (isSlash true) =
      host.toList ++ portChars port ++ pathChars parts := by
    obtain ⟨c, rest, chars⟩ := List.exists_cons_of_ne_nil hosted.1
    have first : isSlash true c = false := (inner_slashless c (inner c (by simp [chars]))).1
    rw [chars]
    simp [isSlash] at first ⊢
    exact first
  have chars := stripped_clean _ clean
  rw [String.ofList_toList, written_chars] at chars
  rw [parse, chars, scheme_read scheme web]
  simp only [withScheme, noFile, special, slashes, Bool.false_eq_true, if_false, if_true]
  exact after_slashes_read naming scheme special noFile host.toList found hosted read port valid parts plain

end ManifestSecrets.Url
