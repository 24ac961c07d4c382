import Mathlib.Data.List.Induction
import Mathlib.Data.Nat.Digits.Defs
import ManifestSecrets.Text.Hex

set_option autoImplicit false

namespace ManifestSecrets.Text

def digitValue (c : Char) : Nat := c.toNat - 48

def decimal (cs : List Char) : Nat := Nat.ofDigits 10 (cs.reverse.map digitValue)

theorem digit_bounds (c : Char) (digit : c.isDigit = true) : 48 ≤ c.toNat ∧ c.toNat ≤ 57 := by
  simpa [Char.isDigit, UInt32.le_iff_toNat_le] using digit

theorem decimal_push (cs : List Char) (c : Char) : decimal (cs ++ [c]) = decimal cs * 10 + digitValue c := by
  rw [decimal, List.reverse_concat, List.map_cons, Nat.ofDigits_cons, decimal]
  omega

-- The loop reads from the left, where the places are the highest: each step moves all of them up by one.
theorem digits_read (cs : List Char) : cs.foldl (fun n c => n * 10 + (c.toNat - 48)) 0 = decimal cs := by
  induction cs using List.reverseRecOn with
  | nil => rfl
  | append_singleton cs c ih => rw [List.foldl_append, ih, decimal_push, digitValue, List.foldl_cons, List.foldl_nil]

theorem hex_digits_read (cs : List Char) (acc : Option Nat) (n : Nat)
    (read : cs.foldl (fun acc c => do return (← acc) * 16 + (← hexValue? c)) acc = some n) :
    acc.isSome ∧ ∀ c ∈ cs, (hexValue? c).isSome := by
  induction cs generalizing acc n with
  | nil => exact ⟨Option.isSome_of_eq_some read, by simp⟩
  | cons c rest ih =>
    obtain ⟨here, later⟩ := ih _ n read
    cases acc with
    | none => simp at here
    | some m =>
      refine ⟨rfl, List.forall_mem_cons.mpr ⟨?_, later⟩⟩
      cases digit : hexValue? c with
      | none => simp [digit] at here
      | some d => rfl

theorem hex_number_digits (cs : List Char) (n : Nat) (read : hexNumber? cs = some n) :
    ∀ c ∈ cs, (hexValue? c).isSome :=
  (hex_digits_read cs _ n read).2

end ManifestSecrets.Text
