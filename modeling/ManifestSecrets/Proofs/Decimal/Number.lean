import ManifestSecrets.Decimal.Number

set_option autoImplicit false

namespace ManifestSecrets

namespace Integer64

theorem same_iff (m n : Integer64) : m = n ↔ m.value = n.value := by
  obtain ⟨m, _, _⟩ := m
  obtain ⟨n, _, _⟩ := n
  simp

theorem of_signed_same (n : Integer64) (i : Int64) (read : n.signed? = some i) : ofSigned i = n := by
  unfold signed? at read
  split at read
  next small =>
    obtain rfl := Option.some.inj read
    have least := n.least
    exact (same_iff _ _).mpr (Int64.toInt_ofInt_of_le (by omega) (by omega))
  next => cases read

theorem of_unsigned_same (n : Integer64) (u : UInt64) (read : n.unsigned? = some u) : ofUnsigned u = n := by
  unfold unsigned? at read
  split at read
  next nonnegative =>
    obtain rfl := Option.some.inj read
    have greatest := n.greatest
    have small : n.value.toNat < UInt64.size := by
      change n.value.toNat < 0x10000000000000000
      omega
    refine (same_iff _ _).mpr ?_
    change ((UInt64.ofNat n.value.toNat).toNat : Int) = n.value
    rw [UInt64.toNat_ofNat_of_lt' small, Int.toNat_of_nonneg nonnegative]
  next => cases read

theorem unsigned_of_unsigned (n : Integer64) (large : n.signed? = none) : ∃ u, n.unsigned? = some u := by
  have nonnegative : 0 ≤ n.value := by
    unfold signed? at large
    split at large
    · cases large
    · omega
  exact ⟨_, if_pos nonnegative⟩

end Integer64

namespace Number

theorem carried_integer (n : Integer64) : (integer n).carried? = some (integer n) := by
  rw [carried?, signed?, unsigned?]
  cases signed : n.signed? with
  | some i => simp only [n.of_signed_same i signed]
  | none =>
    obtain ⟨u, unsigned⟩ := n.unsigned_of_unsigned signed
    simp only [unsigned, n.of_unsigned_same u unsigned]

theorem carried_same (n : Number) : n.carried? = if n.isFinite then some n else none := by
  cases n with
  | integer n => exact carried_integer n
  | float x => rfl

end Number

end ManifestSecrets
