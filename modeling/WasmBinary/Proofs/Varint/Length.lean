import WasmBinary.Proofs.Varint.RoundTrip

/-!
# The length of an unsigned integer

The length grows with the integer, one byte for each further group of seven bits.  A sum is never
longer than its two parts one behind the other.
-/

namespace WasmBinary.Varint

theorem one_le_unsignedLength (n : Nat) : 1 ≤ unsignedLength n := by
  rw [unsignedLength]
  split <;> omega

theorem lt_pow_unsignedLength (n : Nat) : n < 128 ^ unsignedLength n := by
  have h := groupsValue_lt (encodeUnsigned n)
  rwa [groupsValue_encodeUnsigned, length_encodeUnsigned] at h

theorem unsignedLength_le_of_lt {k n : Nat} (hk : 1 ≤ k) (h : n < 128 ^ k) :
    unsignedLength n ≤ k := by
  obtain ⟨more, rfl⟩ := Nat.exists_eq_add_of_le' hk
  exact unsignedLength_le h

theorem unsignedLength_mono {m n : Nat} (h : m ≤ n) : unsignedLength m ≤ unsignedLength n :=
  unsignedLength_le_of_lt (one_le_unsignedLength n) (h.trans_lt (lt_pow_unsignedLength n))

theorem unsignedLength_add_le (m n : Nat) :
    unsignedLength (m + n) ≤ unsignedLength m + unsignedLength n := by
  have hm := one_le_unsignedLength m
  have hn := one_le_unsignedLength n
  have htwo {k : Nat} (hk : 1 ≤ k) : 2 ≤ 128 ^ k :=
    le_trans (by decide) (Nat.pow_le_pow_right (by decide) hk)
  apply unsignedLength_le_of_lt (by omega)
  calc
    m + n < 128 ^ unsignedLength m + 128 ^ unsignedLength n :=
      Nat.add_lt_add (lt_pow_unsignedLength m) (lt_pow_unsignedLength n)
    _ ≤ 128 ^ unsignedLength m * 128 ^ unsignedLength n := Nat.add_le_mul (htwo hm) (htwo hn)
    _ = 128 ^ (unsignedLength m + unsignedLength n) := (pow_add _ _ _).symm

end WasmBinary.Varint
