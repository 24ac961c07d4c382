import ManifestSecrets.Text.Classes

/-!
Cutting a text into literals and tokens. A token starts at the leftmost `<` after the token before it
that has a `>` later on its line, and ends at the first such `>`; only a line feed ends a line.
-/

set_option autoImplicit false

namespace ManifestSecrets.Placeholder

inductive Piece where
  | literal (chars : List Char)
  | token (inner : List Char)
deriving DecidableEq, Repr

-- Splits at the first `>` of the line: what stands before it and what stands after it.
def close? : List Char → Option (List Char × List Char)
  | [] => none
  | c :: rest =>
      if c = '>' then some ([], rest)
      else if c = '\n' then none
      else (close? rest).map fun (inner, rest) => (c :: inner, rest)

def push (c : Char) : List Piece → List Piece
  | .literal chars :: rest => .literal (c :: chars) :: rest
  | pieces => .literal [c] :: pieces

theorem close_eq {cs inner rest : List Char} (found : close? cs = some (inner, rest)) :
    cs = inner ++ '>' :: rest := by
  induction cs generalizing inner with
  | nil => simp [close?] at found
  | cons c tail ih =>
    by_cases ends : c = '>'
    · simp [close?, ends] at found
      simp [ends, ← found.1, found.2]
    · by_cases line : c = '\n'
      · simp [close?, line] at found
      · simp only [close?, if_neg ends, if_neg line, Option.map_eq_some_iff] at found
        obtain ⟨⟨shorter, after⟩, tailFound, same⟩ := found
        simp only [Prod.mk.injEq] at same
        obtain ⟨rfl, rfl⟩ := same
        simp [ih tailFound]

theorem close_shorter {cs inner rest : List Char} (found : close? cs = some (inner, rest)) :
    rest.length < cs.length := by
  rw [close_eq found]
  simp only [List.length_append, List.length_cons]
  omega

def cut (cs : List Char) : List Piece :=
  match cs with
  | [] => []
  | c :: rest =>
      if c = '<' then
        match _found : close? rest with
        | some (inner, after) => .token inner :: cut after
        | none => push c (cut rest)
      else push c (cut rest)
termination_by cs.length
decreasing_by
  · have := close_shorter _found
    simp only [List.length_cons]
    omega
  all_goals simp

def isBracket (c : Char) : Bool := c == '<' || c == '>'

-- The name inside a token: its text without brackets at either end.
def name (inner : List Char) : String := String.ofList (Text.trimBy isBracket inner)

def Piece.chars : Piece → List Char
  | .literal chars => chars
  | .token inner => '<' :: inner ++ ['>']

def Piece.text (p : Piece) : String := String.ofList p.chars

def names (pieces : List Piece) : List String :=
  pieces.filterMap fun
    | .literal _ => none
    | .token inner => some (name inner)

theorem push_chars (c : Char) (pieces : List Piece) :
    (push c pieces).flatMap Piece.chars = c :: pieces.flatMap Piece.chars := by
  cases pieces with
  | nil => rfl
  | cons head rest => cases head <;> rfl

theorem cut_chars (cs : List Char) : (cut cs).flatMap Piece.chars = cs := by
  fun_induction cut cs with
  | case1 => rfl
  | case2 rest inner after found ih =>
    simp [List.flatMap_cons, Piece.chars, ih, close_eq found]
  | case3 rest missing ih => rw [push_chars, ih]
  | case4 c rest other ih => rw [push_chars, ih]

end ManifestSecrets.Placeholder
