import ManifestSecrets.Proofs.Text.Digits
import ManifestSecrets.Proofs.Text.Utf8
import ManifestSecrets.Url.Host
import Mathlib.Tactic.ByContra

set_option autoImplicit false

namespace ManifestSecrets.Url

def isBarred (c : Char) : Bool := "/\\?#@:[]".toList.contains c || c.toNat ≤ 0x20

-- A text that can stand for a host in an address.
def IsHostText (cs : List Char) : Prop := cs ≠ [] ∧ (cs.head? = some '[' ∨ ∀ c ∈ cs, isBarred c = false)

theorem map_m_some {α β : Type} (f : α → Option β) (xs : List α) (ys : List β) (all : xs.mapM f = some ys) (x : α)
    (member : x ∈ xs) : ∃ y ∈ ys, f x = some y := by
  induction xs generalizing ys with
  | nil => simp at member
  | cons z rest ih =>
    simp only [List.mapM_cons, bind, Option.bind_eq_some_iff, pure, Option.some.injEq] at all
    obtain ⟨first, here, others, later, rfl⟩ := all
    rcases List.mem_cons.mp member with rfl | inside
    · exact ⟨first, List.mem_cons_self, here⟩
    · obtain ⟨y, there, same⟩ := ih others later inside
      exact ⟨y, List.mem_cons_of_mem _ there, same⟩

theorem mem_intercalate_iff (mark c : Char) (pieces : List (List Char)) (other : c ≠ mark) :
    c ∈ [mark].intercalate pieces ↔ ∃ piece ∈ pieces, c ∈ piece := by
  induction pieces with
  | nil => simp
  | cons piece rest ih =>
    cases rest with
    | nil => simp
    | cons next rest =>
      rw [List.intercalate_cons_cons, List.mem_append, List.mem_append, ih]
      simp [other]

theorem mem_split_iff (mark c : Char) (cs : List Char) (other : c ≠ mark) :
    c ∈ cs ↔ ∃ piece ∈ cs.splitOn mark, c ∈ piece := by
  rw [← mem_intercalate_iff mark c _ other, List.intercalate_splitOn]

def isPieceChar (c : Char) : Bool := (Text.hexValue? c).isSome || c == ':' || c == '.'

theorem digit_piece_char (c : Char) (digit : c.isDigit = true) : isPieceChar c = true := by
  have all : ∀ n : Fin 0x80, (Char.ofNat n).isDigit = true → isPieceChar (Char.ofNat n) = true := by decide +kernel
  have bounds := Text.digit_bounds c digit
  simpa using all ⟨c.toNat, by omega⟩ (by simpa using digit)

theorem v6_piece_chars (piece : List Char) (n : Nat) (read : v6Pieces?.v6Piece? piece = some n) :
    ∀ c ∈ piece, isPieceChar c = true := by
  intro c member
  unfold v6Pieces?.v6Piece? at read
  split at read
  next => simp at read
  next => simp [isPieceChar, Text.hex_number_digits piece n read c member]

theorem v6_tail_chars (cs : List Char) (pieces : List Nat) (read : v6Tail? cs = some pieces) :
    ∀ c ∈ cs, isPieceChar c = true := by
  intro c member
  by_cases point : c = '.'
  · subst point
    decide
  · simp only [v6Tail?, bind, Option.bind_eq_some_iff] at read
    obtain ⟨bytes, all, -⟩ := read
    obtain ⟨piece, there, inside⟩ := (mem_split_iff '.' c cs point).mp member
    obtain ⟨byte, -, number⟩ := map_m_some _ _ _ all piece there
    unfold v6Byte? at number
    split at number
    next => simp at number
    next digits =>
      simp only [Bool.or_eq_true, not_or, Bool.not_eq_true', Bool.not_eq_false, List.all_eq_true] at digits
      exact digit_piece_char c (digits.1.1.2 c inside)

theorem v6_pieces_chars (pieces : List (List Char)) (read : List Nat) (ok : v6Pieces? pieces = some read) :
    ∀ piece ∈ pieces, ∀ c ∈ piece, isPieceChar c = true := by
  fun_induction v6Pieces? pieces generalizing read with
  | case1 => simp
  | case2 last points =>
    exact List.forall_mem_singleton.mpr (v6_tail_chars last read ok)
  | case3 last plain =>
    simp only [bind, Option.bind_eq_some_iff] at ok
    obtain ⟨n, number, -⟩ := ok
    exact List.forall_mem_singleton.mpr (v6_piece_chars last n number)
  | case4 piece rest some ih =>
    simp only [bind, Option.bind_eq_some_iff] at ok
    obtain ⟨n, number, others, later, -⟩ := ok
    exact List.forall_mem_cons.mpr ⟨v6_piece_chars piece n number, ih others later⟩

theorem pieces_of_chars (cs : List Char) (pieces : List Nat) (read : piecesOf? cs = some pieces) :
    ∀ c ∈ cs, isPieceChar c = true := by
  intro c member
  by_cases colon : c = ':'
  · subst colon
    decide
  · unfold piecesOf? at read
    rw [if_neg (by simpa using List.ne_nil_of_mem member)] at read
    obtain ⟨piece, there, inside⟩ := (mem_split_iff ':' c cs colon).mp member
    exact v6_pieces_chars _ pieces read piece there c inside

theorem split_pair_some (cs before after : List Char) (split : splitPair cs = some (before, after)) :
    cs = before ++ (':' :: ':' :: after) := by
  fun_induction splitPair cs generalizing before with
  | case1 rest =>
    obtain ⟨rfl, rfl⟩ := Prod.mk.inj (Option.some.inj split)
    rfl
  | case2 c rest other ih =>
    obtain ⟨⟨front, back⟩, later, same⟩ := Option.map_eq_some_iff.mp split
    obtain ⟨rfl, rfl⟩ := Prod.mk.inj same
    rw [ih front later, List.cons_append]
  | case3 => simp at split

theorem v6_address_chars (cs : List Char) (pieces : List Nat) (read : v6Address? cs = some pieces) :
    ∀ c ∈ cs, isPieceChar c = true := by
  unfold v6Address? at read
  split at read
  next =>
    simp only [bind, Option.bind_eq_some_iff] at read
    obtain ⟨all, number, -⟩ := read
    exact pieces_of_chars cs all number
  next before after split =>
    split at read
    next => simp at read
    next =>
      simp only [bind, Option.bind_eq_some_iff] at read
      obtain ⟨front, ahead, back, behind, -⟩ := read
      rw [split_pair_some cs before after split]
      simp only [List.forall_mem_append, List.forall_mem_cons]
      exact ⟨pieces_of_chars before front ahead, by decide, by decide, pieces_of_chars after back behind⟩

theorem bracketed_written (cs : List Char) (host : Host) (read : bracketed? cs = some (.ok host)) :
    ∃ inner, cs = '[' :: (inner ++ [']']) ∧ ∀ c ∈ inner, isPieceChar c = true := by
  unfold bracketed? at read
  split at read
  next rest =>
    split at read
    next ends =>
      obtain ⟨inner, rfl⟩ := List.getLast?_eq_some_iff.mp (eq_of_beq ends)
      rw [List.dropLast_concat] at read
      split at read
      next pieces address => exact ⟨inner, rfl, v6_address_chars inner pieces address⟩
      next => simp at read
    next => simp at read
  next => simp at read

theorem host_written (naming : Naming) (cs : List Char) (host : Host) (hosted : IsHostText cs)
    (read : Host.parse naming cs = .ok host) :
    (∀ c ∈ cs, isBarred c = false) ∨ ∃ inner, cs = '[' :: (inner ++ [']']) ∧ ∀ c ∈ inner, isPieceChar c = true := by
  refine hosted.2.symm.imp_right fun opened => ?_
  cases cs with
  | nil => simp at opened
  | cons c rest =>
    obtain rfl : c = '[' := by simpa using opened
    unfold Host.parse at read
    split at read
    next found bracket => exact bracketed_written _ host (read ▸ bracket)
    next unbracketed =>
      simp only [bracketed?] at unbracketed
      split at unbracketed
      · split at unbracketed <;> simp at unbracketed
      · simp at unbracketed

end ManifestSecrets.Url
