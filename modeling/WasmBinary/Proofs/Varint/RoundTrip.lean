import WasmBinary.Proofs.Varint.Reading
import WasmBinary.Varint.Writer

/-!
# Writing and reading back

What is written for an integer is a terminated varint whose groups make up the integer, within the
length that its kind admits.  So a reader of the kind gives the integer back, whatever stands in
front of the varint and behind it.
-/

namespace WasmBinary.Varint

/-! ## Unsigned -/

theorem continues_low {n : Nat} (h : n < 128) : continues (UInt8.ofNat n) = false := by
  rw [continues_eq_false_iff, UInt8.toNat_ofNat']
  omega

theorem continues_high {n : Nat} (h : n < 128) : continues (UInt8.ofNat (n + 128)) = true := by
  rw [continues_eq_true_iff, UInt8.toNat_ofNat']
  omega

theorem toNat_low_mod {n : Nat} (h : n < 128) : (UInt8.ofNat n).toNat % 128 = n := by
  rw [UInt8.toNat_ofNat']
  omega

theorem toNat_high_mod {n : Nat} (h : n < 128) : (UInt8.ofNat (n + 128)).toNat % 128 = n := by
  rw [UInt8.toNat_ofNat']
  omega

theorem terminated_encodeUnsigned (n : Nat) : Terminated (encodeUnsigned n) := by
  induction n using encodeUnsigned.induct with
  | case1 n h =>
    rw [encodeUnsigned, if_pos h]
    exact .last (continues_low (by omega))
  | case2 n h ih =>
    rw [encodeUnsigned, if_neg h]
    exact .more (continues_high (by omega)) ih

@[simp] theorem groupsValue_encodeUnsigned (n : Nat) : groupsValue (encodeUnsigned n) = n := by
  induction n using encodeUnsigned.induct with
  | case1 n h =>
    rw [encodeUnsigned, if_pos h, groupsValue_cons, toNat_low_mod (by omega), groupsValue_nil]
    omega
  | case2 n h ih =>
    rw [encodeUnsigned, if_neg h, groupsValue_cons, toNat_high_mod (by omega), ih]
    omega

theorem length_encodeUnsigned (n : Nat) : (encodeUnsigned n).length = unsignedLength n := by
  induction n using encodeUnsigned.induct with
  | case1 n h =>
    rw [encodeUnsigned, if_pos h, unsignedLength, if_pos (by omega), List.length_singleton]
  | case2 n h ih =>
    rw [encodeUnsigned, if_neg h, unsignedLength, if_neg (by omega), List.length_cons, ih]

theorem unsignedLength_le {k n : Nat} (hn : n < 128 ^ (k + 1)) : unsignedLength n ≤ k + 1 := by
  induction k generalizing n with
  | zero => rw [unsignedLength, if_pos (by omega)]
  | succ k ih =>
    rw [unsignedLength]
    split
    · omega
    · have hrest : n / 128 < 128 ^ (k + 1) := by
        rw [pow_succ] at hn
        exact (Nat.div_lt_iff_lt_mul (by decide)).2 hn
      have := ih hrest
      omega

/-! ## Signed -/

theorem terminated_encodeSigned (i : Int) : Terminated (encodeSigned i) := by
  induction i using encodeSigned.induct with
  | case1 i h =>
    rw [encodeSigned, if_pos h]
    exact .last (continues_low (by omega))
  | case2 i h ih =>
    rw [encodeSigned, if_neg h]
    exact .more (continues_high (by omega)) ih

@[simp] theorem signedValue_encodeSigned (i : Int) : signedValue (encodeSigned i) = i := by
  induction i using encodeSigned.induct with
  | case1 i h =>
    have hlast := signedValue_concat [] (UInt8.ofNat (i % 128).toNat)
    rw [List.nil_append, groupsValue_cons, groupsValue_nil, toNat_low_mod (by omega)] at hlast
    rw [encodeSigned, if_pos h, hlast]
    rw [endsAtGroup_iff] at h
    split <;> simp <;> omega
  | case2 i h ih =>
    rw [encodeSigned, if_neg h, signedValue_cons _ (terminated_encodeSigned _).ne_nil, ih,
      toNat_high_mod (by omega)]
    omega

theorem length_encodeSigned (i : Int) : (encodeSigned i).length = signedLength i := by
  induction i using encodeSigned.induct with
  | case1 i h =>
    rw [encodeSigned, if_pos h, signedLength, if_pos ((endsAtGroup_iff i).1 h),
      List.length_singleton]
  | case2 i h ih =>
    rw [encodeSigned, if_neg h, signedLength, if_neg (mt (endsAtGroup_iff i).2 h),
      List.length_cons, ih]

theorem signedLength_le {k : Nat} {i : Int} (hlow : -(64 * 128 ^ k) ≤ i)
    (hhigh : i < 64 * 128 ^ k) : signedLength i ≤ k + 1 := by
  induction k generalizing i with
  | zero => rw [signedLength, if_pos (by omega)]
  | succ k ih =>
    rw [signedLength]
    split
    · omega
    · rw [pow_succ] at hlow hhigh
      have := ih (i := i / 128) (by omega) (by omega)
      omega

/-! ## Both -/

theorem terminated_encode (value : Varint) : Terminated value.encode := by
  cases value with
  | u32 value => exact terminated_encodeUnsigned _
  | u64 value => exact terminated_encodeUnsigned _
  | s32 value => exact terminated_encodeSigned _
  | s64 value => exact terminated_encodeSigned _

theorem value_encode (value : Varint) : value.kind.value value.encode = value.toInt := by
  cases value <;> simp [kind, Kind.value, Kind.isSigned, encode, toInt]

theorem length_encode (value : Varint) : value.encode.length = value.length := by
  cases value with
  | u32 value => exact length_encodeUnsigned _
  | u64 value => exact length_encodeUnsigned _
  | s32 value => exact length_encodeSigned _
  | s64 value => exact length_encodeSigned _

theorem length_encodeIndex (index : UInt32) :
    (encodeIndex index).length = unsignedLength index.toNat :=
  length_encode (.u32 index)

theorem length_le_maxLength (value : Varint) : value.length ≤ value.kind.maxLength := by
  cases value with
  | u32 value =>
    have hvalue := value.toNat_lt
    rw [length, kind, Kind.maxLength_u32]
    exact unsignedLength_le (k := 4) (by omega)
  | u64 value =>
    have hvalue := value.toNat_lt
    rw [length, kind, Kind.maxLength_u64]
    exact unsignedLength_le (k := 9) (by omega)
  | s32 value =>
    have hlow := value.le_toInt
    have hhigh := value.toInt_lt
    rw [length, kind, Kind.maxLength_s32]
    exact signedLength_le (k := 4) (by omega) (by omega)
  | s64 value =>
    have hlow := value.le_toInt
    have hhigh := value.toInt_lt
    rw [length, kind, Kind.maxLength_s64]
    exact signedLength_le (k := 9) (by omega) (by omega)

theorem inRange_toInt (value : Varint) : value.kind.InRange value.toInt := by
  cases value with
  | u32 value => exact ⟨Int.natCast_nonneg _, Int.ofNat_lt.2 value.toNat_lt⟩
  | u64 value => exact ⟨Int.natCast_nonneg _, Int.ofNat_lt.2 value.toNat_lt⟩
  | s32 value => exact ⟨value.le_toInt, value.toInt_lt⟩
  | s64 value => exact ⟨value.le_toInt, value.toInt_lt⟩

theorem ofInt_toInt (value : Varint) : value.kind.ofInt value.toInt = value := by
  cases value with
  | u32 value =>
    have hvalue : UInt32.ofInt value.toNat = value := by
      have hlt := value.toNat_lt
      apply UInt32.toNat_inj.1
      rw [UInt32.ofInt, UInt32.toNat_ofNat']
      omega
    rw [kind, toInt, Kind.ofInt, hvalue]
  | u64 value =>
    have hvalue : UInt64.ofInt value.toNat = value := by
      have hlt := value.toNat_lt
      apply UInt64.toNat_inj.1
      rw [UInt64.ofInt, UInt64.toNat_ofNat']
      omega
    rw [kind, toInt, Kind.ofInt, hvalue]
  | s32 value => rw [kind, toInt, Kind.ofInt, Int32.ofInt_toInt]
  | s64 value => rw [kind, toInt, Kind.ofInt, Int64.ofInt_toInt]

/-- An integer is read back from where it was written. -/
theorem read_encode {value : Varint} {bytes rest : Bytes} {offset : Nat}
    (hat : bytes.drop offset = value.encode ++ rest) :
    read value.kind bytes offset = .ok (value, value.encode.length) := by
  have hroom : value.encode.length ≤ value.kind.maxLength := by
    rw [length_encode]
    exact length_le_maxLength value
  rw [read_terminated (terminated_encode value) hat hroom, value_encode,
    if_pos (inRange_toInt value), ofInt_toInt]

end WasmBinary.Varint
