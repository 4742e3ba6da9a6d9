import WasmBinary.Proofs.Varint.Canonical
import WasmBinary.Varint.Pass
import Mathlib.Order.Bounds.Defs

/-!
# The passes of writing and counting

The loops over words end for every integer, each in as many passes as the integer takes bytes, and
come to what is said of the integer itself: the writers to its bytes behind those of the sink, the
counters to its length.  The length is the least number of groups whose bits hold the integer.
-/

namespace WasmBinary

/-- A loop that ends does so in one way. -/
theorem Pass.Ends.unique {σ ρ : Type} {body : σ → Pass σ ρ} {state : σ} {passes passes' : Nat}
    {result result' : ρ} (h : Ends body state passes result)
    (h' : Ends body state passes' result') : passes' = passes ∧ result' = result := by
  induction h generalizing passes' with
  | leave h =>
    cases h' with
    | leave h' => exact ⟨rfl, Pass.leave.inj (h'.symm.trans h)⟩
    | again h' _ => exact nomatch h'.symm.trans h
  | again h hnext ih =>
    cases h' with
    | leave h' => exact nomatch h'.symm.trans h
    | again h' hnext' =>
      obtain rfl := Pass.again.inj (h'.symm.trans h)
      obtain ⟨rfl, rfl⟩ := ih hnext'
      exact ⟨rfl, rfl⟩

theorem Sink.write_write (sink : Sink) (first second : Bytes) :
    (sink.write first).write second = sink.write (first ++ second) := by
  simp [Sink.write]

namespace Varint

/-! ## Words and their low groups -/

theorem toNat_shift_seven (word : UInt64) : (word >>> 7).toNat = word.toNat / 128 := by
  rw [UInt64.toNat_shiftRight]
  exact Nat.shiftRight_eq_div_pow _ 7

theorem toInt_shift_seven (word : Int64) : (word >>> 7).toInt = word.toInt / 128 := by
  have hseven : ((7 : Int64).toBitVec.smod 64).toNat = 7 := by decide
  rw [← Int64.toInt_toBitVec, Int64.toBitVec_shiftRight, BitVec.toInt_sshiftRight', hseven,
    Int64.toInt_toBitVec]
  exact Int.shiftRight_eq_div_pow _ 7

theorem toNat_toUInt64_emod (word : Int64) :
    (word.toUInt64.toNat : Int) = word.toInt % 2 ^ 64 := by
  have hword : word.toInt = Int.bmod word.toUInt64.toNat (2 ^ 64) :=
    BitVec.toInt_eq_toNat_bmod word.toBitVec
  have hmod := Int.bmod_emod (x := word.toUInt64.toNat) (m := 2 ^ 64)
  have hlt := word.toUInt64.toNat_lt
  rw [hword]
  omega

theorem low_byte (word : UInt64) : (word &&& 0x7f).toUInt8 = .ofNat (word.toNat % 128) := by
  have hgroup := toNat_group word.toUInt8
  apply UInt8.toNat_inj.1
  rw [UInt64.toNat_toUInt8] at hgroup
  rw [UInt64.toUInt8_and, UInt8.toNat_ofNat']
  refine hgroup.trans ?_
  omega

theorem low_byte_signed (word : Int64) :
    (word &&& 0x7f).toUInt64.toUInt8 = .ofNat (word.toInt % 128).toNat := by
  have hword := toNat_toUInt64_emod word
  have hlow : (word &&& 0x7f).toUInt64 = word.toUInt64 &&& 0x7f := Int64.toUInt64_and _ _
  rw [hlow, low_byte]
  congr 1
  omega

theorem or_high : ∀ n < 128, UInt8.ofNat n ||| 0x80 = .ofNat (n + 128) := by
  decide +kernel

theorem and_sign_eq_zero_iff (word : Int64) :
    word &&& 0x7f &&& 0x40 = 0 ↔ word.toInt % 128 < 64 := by
  have hword := toNat_toUInt64_emod word
  have hgroup : word.toUInt64.toNat &&& 127 = word.toUInt64.toNat % 128 :=
    Nat.and_two_pow_sub_one_eq_mod _ 7
  have hsign : ∀ n < 128, n &&& 64 = 0 ↔ n < 64 := by decide
  have htest := hsign (word.toUInt64.toNat % 128) (Nat.mod_lt _ (by decide))
  rw [← Int64.toBitVec_inj, ← BitVec.toNat_inj, Int64.toBitVec_and, Int64.toBitVec_and,
    BitVec.toNat_and, BitVec.toNat_and]
  refine (iff_of_eq (congrArg (· &&& 64 = 0) hgroup)).trans (htest.trans ?_)
  omega

/-! ## Single passes -/

/-- The test on the word that is left is the test on the integer. -/
theorem rest_iff_endsAtGroup (word : Int64) {negative : Prop}
    (hsign : negative ↔ 64 ≤ word.toInt % 128) :
    (word >>> 7 = 0 ∧ ¬negative) ∨ (word >>> 7 = -1 ∧ negative) ↔ EndsAtGroup word.toInt := by
  have hneg : (-1 : Int64).toInt = -1 := rfl
  rw [EndsAtGroup, ← Int64.toInt_inj, ← Int64.toInt_inj, toInt_shift_seven, Int64.toInt_zero, hneg,
    hsign, Int.not_le]

theorem unsignedPass_eq (word : UInt64) (sink : Sink) :
    unsignedPass (word, sink) =
      if word.toNat / 128 = 0 then .leave (sink.write [.ofNat (word.toNat % 128)])
      else .again (word >>> 7, sink.write [.ofNat (word.toNat % 128 + 128)]) := by
  have hrest : word >>> 7 = 0 ↔ word.toNat / 128 = 0 := by
    rw [← UInt64.toNat_inj, toNat_shift_seven, UInt64.toNat_zero]
  simp only [unsignedPass, hrest, low_byte, or_high _ (Nat.mod_lt _ (by decide : 0 < 128))]

theorem signedPass_eq (word : Int64) (sink : Sink) :
    signedPass (word, sink) =
      if EndsAtGroup word.toInt then .leave (sink.write [.ofNat (word.toInt % 128).toNat])
      else .again (word >>> 7, sink.write [.ofNat ((word.toInt % 128).toNat + 128)]) := by
  have hlow : (word.toInt % 128).toNat < 128 := by omega
  have hsign : UInt8.ofNat (word.toInt % 128).toNat &&& 0x40 ≠ 0 ↔ 64 ≤ word.toInt % 128 := by
    rw [sign_bit_ne_zero_iff, toNat_low_mod hlow]
    omega
  have htest := rest_iff_endsAtGroup word hsign
  rw [not_not] at htest
  simp only [signedPass, low_byte_signed, htest, or_high _ hlow]

theorem unsignedCountPass_eq (word : UInt64) (count : Nat) :
    unsignedCountPass (word, count) =
      if word.toNat < 128 then .leave count else .again (word >>> 7, count + 1) := by
  have hlast : 0x80 ≤ word ↔ ¬word.toNat < 128 := by
    rw [UInt64.le_iff_toNat_le, Nat.not_lt]
    rfl
  simp only [unsignedCountPass, hlast, ite_not]

theorem signedCountPass_eq (word : Int64) (count : Nat) :
    signedCountPass (word, count) =
      if EndsAtGroup word.toInt then .leave count else .again (word >>> 7, count + 1) := by
  have hsign : word &&& 0x7f &&& 0x40 ≠ 0 ↔ 64 ≤ word.toInt % 128 := by
    rw [Ne, and_sign_eq_zero_iff, Int.not_lt]
  have htest := rest_iff_endsAtGroup word hsign
  rw [not_not] at htest
  simp only [signedCountPass, htest]

/-! ## Whole loops -/

theorem ends_unsignedPass (word : UInt64) (sink : Sink) :
    Pass.Ends unsignedPass (word, sink) (unsignedLength word.toNat)
      (sink.write (encodeUnsigned word.toNat)) := by
  induction hn : word.toNat using encodeUnsigned.induct generalizing word sink with
  | case1 n h =>
    rw [encodeUnsigned, if_pos h, unsignedLength, if_pos (by omega)]
    exact .leave (by rw [unsignedPass_eq, hn, if_pos h])
  | case2 n h ih =>
    have hnext := ih (word >>> 7) (sink.write [.ofNat (n % 128 + 128)])
      (by rw [toNat_shift_seven, hn])
    rw [Sink.write_write, List.singleton_append] at hnext
    rw [encodeUnsigned, if_neg h, unsignedLength, if_neg (by omega)]
    exact .again (by rw [unsignedPass_eq, hn, if_neg h]) hnext

theorem ends_signedPass (word : Int64) (sink : Sink) :
    Pass.Ends signedPass (word, sink) (signedLength word.toInt)
      (sink.write (encodeSigned word.toInt)) := by
  induction hi : word.toInt using encodeSigned.induct generalizing word sink with
  | case1 i h =>
    rw [encodeSigned, if_pos h, signedLength, if_pos ((endsAtGroup_iff i).1 h)]
    exact .leave (by rw [signedPass_eq, hi, if_pos h])
  | case2 i h ih =>
    have hnext := ih (word >>> 7) (sink.write [.ofNat ((i % 128).toNat + 128)])
      (by rw [toInt_shift_seven, hi])
    rw [Sink.write_write, List.singleton_append] at hnext
    rw [encodeSigned, if_neg h, signedLength, if_neg (mt (endsAtGroup_iff i).2 h)]
    exact .again (by rw [signedPass_eq, hi, if_neg h]) hnext

theorem ends_unsignedCountPass (word : UInt64) (count : Nat) :
    Pass.Ends unsignedCountPass (word, count + 1) (unsignedLength word.toNat)
      (unsignedLength word.toNat + count) := by
  induction hn : word.toNat using unsignedLength.induct generalizing word count with
  | case1 n h =>
    rw [unsignedLength, if_pos h, Nat.add_comm]
    exact .leave (by rw [unsignedCountPass_eq, hn, if_pos h])
  | case2 n h ih =>
    have hnext := ih (word >>> 7) (count + 1) (by rw [toNat_shift_seven, hn])
    rw [unsignedLength, if_neg h, Nat.add_right_comm]
    exact .again (by rw [unsignedCountPass_eq, hn, if_neg h]) hnext

theorem ends_signedCountPass (word : Int64) (count : Nat) :
    Pass.Ends signedCountPass (word, count + 1) (signedLength word.toInt)
      (signedLength word.toInt + count) := by
  induction hi : word.toInt using signedLength.induct generalizing word count with
  | case1 i h =>
    rw [signedLength, if_pos h, Nat.add_comm]
    exact .leave (by rw [signedCountPass_eq, hi, if_pos ((endsAtGroup_iff i).2 h)])
  | case2 i h ih =>
    have hnext := ih (word >>> 7) (count + 1) (by rw [toInt_shift_seven, hi])
    rw [signedLength, if_neg h, Nat.add_right_comm]
    exact .again (by rw [signedCountPass_eq, hi, if_neg (mt (endsAtGroup_iff i).1 h)]) hnext

theorem writtenIn_length (value : Varint) (sink : Sink) :
    value.WrittenIn sink value.length (sink.write value.encode) := by
  cases value with
  | u32 value =>
    have hends := ends_unsignedPass value.toUInt64 sink
    rw [UInt32.toNat_toUInt64] at hends
    exact hends
  | u64 value => exact ends_unsignedPass value sink
  | s32 value =>
    have hends := ends_signedPass value.toInt64 sink
    rw [Int32.toInt_toInt64] at hends
    exact hends
  | s64 value => exact ends_signedPass value sink

theorem countedIn_length (value : Varint) : value.CountedIn value.length value.length := by
  cases value with
  | u32 value =>
    have hends := ends_unsignedCountPass value.toUInt64 0
    rw [UInt32.toNat_toUInt64] at hends
    exact hends
  | u64 value => exact ends_unsignedCountPass value 0
  | s32 value =>
    have hends := ends_signedCountPass value.toInt64 0
    rw [Int32.toInt_toInt64] at hends
    exact hends
  | s64 value => exact ends_signedCountPass value 0

theorem WrittenIn.unique {value : Varint} {sink after after' : Sink} {passes passes' : Nat}
    (h : value.WrittenIn sink passes after) (h' : value.WrittenIn sink passes' after') :
    passes' = passes ∧ after' = after := by
  cases value <;> exact Pass.Ends.unique h h'

theorem CountedIn.unique {value : Varint} {passes passes' count count' : Nat}
    (h : value.CountedIn passes count) (h' : value.CountedIn passes' count') :
    passes' = passes ∧ count' = count := by
  cases value <;> exact Pass.Ends.unique h h'

theorem countedIn_iff {value : Varint} {passes count : Nat} :
    value.CountedIn passes count ↔ passes = value.length ∧ count = value.length := by
  constructor
  · exact (countedIn_length value).unique
  · rintro ⟨rfl, rfl⟩
    exact countedIn_length value

theorem writtenIn_iff {value : Varint} {sink after : Sink} {passes : Nat} :
    value.WrittenIn sink passes after ↔
      passes = value.length ∧ after.bytes = sink.bytes ++ value.encode := by
  constructor
  · intro h
    obtain ⟨rfl, rfl⟩ := (writtenIn_length value sink).unique h
    exact ⟨rfl, rfl⟩
  · rintro ⟨rfl, hbytes⟩
    obtain rfl : sink.write value.encode = after := congrArg Sink.mk hbytes.symm
    exact writtenIn_length value sink

/-! ## The length in closed form -/

theorem Kind.maxLength_eq (kind : Kind) : kind.maxLength = if kind.bits = 32 then 5 else 10 := by
  cases kind <;> rfl

theorem one_le_length (value : Varint) : 1 ≤ value.length := by
  rw [← length_encode]
  exact List.length_pos_iff.2 (terminated_encode value).ne_nil

theorem isLeast_length (value : Varint) :
    IsLeast {groups | 1 ≤ groups ∧ value.kind.Spans groups value.toInt} value.length := by
  have hspans (groups : Nat) (h : 1 ≤ groups) :
      value.kind.Spans groups value.toInt ↔ value.length ≤ groups := by
    obtain ⟨more, rfl⟩ := Nat.exists_eq_add_of_le' h
    exact spans_iff_length_le value more
  constructor
  · exact ⟨one_le_length value, (hspans _ (one_le_length value)).2 (Nat.le_refl _)⟩
  · rintro groups ⟨hpos, h⟩
    exact (hspans groups hpos).1 h

theorem spans_unsigned_iff {kind : Kind} (hkind : kind.isSigned = false) (groups n : Nat) :
    kind.Spans groups n ↔ n < 2 ^ (7 * groups) := by
  have hpow : (2 : Nat) ^ (7 * groups) = 128 ^ groups := pow_mul 2 7 groups
  have hcast := cast_pow_groups groups
  rw [Kind.Spans, hkind, if_neg Bool.false_ne_true, hpow]
  omega

theorem spans_signed_iff {kind : Kind} (hkind : kind.isSigned = true) {groups : Nat}
    (h : 1 ≤ groups) (i : Int) :
    kind.Spans groups i ↔ -2 ^ (7 * groups - 1) ≤ i ∧ i < 2 ^ (7 * groups - 1) := by
  have hpow : (128 : Int) ^ groups = 2 * 2 ^ (7 * groups - 1) := by
    rw [← pow_succ', Nat.sub_add_cancel (by omega), pow_mul]
    rfl
  rw [Kind.Spans, if_pos hkind, hpow]
  omega

/-- The length of an integer is the least number of groups, and one at least, whose bits hold it.
The loops that count and that write end for every integer, in as many passes: the counter with the
length, the writer with as many bytes more behind those that the sink had. -/
theorem length_closedForm :
    (∀ value : UInt64,
      IsLeast {k | 1 ≤ k ∧ value.toNat < 2 ^ (7 * k)} (length (.u64 value))) ∧
    (∀ value : Int64,
      IsLeast {k | 1 ≤ k ∧ -2 ^ (7 * k - 1) ≤ value.toInt ∧ value.toInt < 2 ^ (7 * k - 1)}
        (length (.s64 value))) ∧
    ∀ value : Varint,
      (∀ passes count, value.CountedIn passes count ↔
        passes = value.length ∧ count = value.length) ∧
      (∀ sink passes after, value.WrittenIn sink passes after ↔
        passes = value.length ∧ after.bytes = sink.bytes ++ value.encode) ∧
      value.encode.length = value.length ∧
      1 ≤ value.length ∧ value.length ≤ if value.kind.bits = 32 then 5 else 10 := by
  refine ⟨fun value ↦ ?_, fun value ↦ ?_, fun value ↦ ⟨fun _ _ ↦ countedIn_iff,
    fun _ _ _ ↦ writtenIn_iff, length_encode value, one_le_length value, ?_⟩⟩
  · have hset : {k | 1 ≤ k ∧ value.toNat < 2 ^ (7 * k)} =
        {k | 1 ≤ k ∧ Kind.u64.Spans k value.toNat} :=
      Set.ext fun k ↦ and_congr_right fun _ ↦ (spans_unsigned_iff rfl k value.toNat).symm
    rw [hset]
    exact isLeast_length (.u64 value)
  · have hset : {k | 1 ≤ k ∧ -2 ^ (7 * k - 1) ≤ value.toInt ∧ value.toInt < 2 ^ (7 * k - 1)} =
        {k | 1 ≤ k ∧ Kind.s64.Spans k value.toInt} :=
      Set.ext fun k ↦ and_congr_right fun hk ↦ (spans_signed_iff rfl hk value.toInt).symm
    rw [hset]
    exact isLeast_length (.s64 value)
  · rw [← Kind.maxLength_eq]
    exact length_le_maxLength value

end Varint

end WasmBinary
