import WasmBinary.Proofs.Varint.Groups
import Mathlib.Data.List.Induction

/-!
# What a reader makes of a terminated varint

A reader that has taken some bytes holds the number that their groups make up, modulo the size of a
word.  At the last admissible group its bit test decides whether the number lies in the range of the
kind, and its extension turns the number into the word of the integer.
-/

namespace WasmBinary.Varint

/-! ## Kinds and their ranges -/

def Kind.InRange (kind : Kind) (x : Int) : Prop :=
  if kind.isSigned then -2 ^ (kind.bits - 1) ≤ x ∧ x < 2 ^ (kind.bits - 1)
  else 0 ≤ x ∧ x < 2 ^ kind.bits

instance (kind : Kind) (x : Int) : Decidable (kind.InRange x) := by
  unfold Kind.InRange
  infer_instance

/-- The integer of a kind with the given value, modulo the size of the kind. -/
def Kind.ofInt : Kind → Int → Varint
  | .u32, x => .u32 (UInt32.ofInt x)
  | .u64, x => .u64 (UInt64.ofInt x)
  | .s32, x => .s32 (Int32.ofInt x)
  | .s64, x => .s64 (Int64.ofInt x)

theorem toNat_ofInt (x : Int) : ((UInt64.ofInt x).toNat : Int) = x % 2 ^ 64 := by
  rw [UInt64.ofInt, UInt64.toNat_ofNat']
  omega

theorem toInt64_ofInt (x : Int) : (UInt64.ofInt x).toInt64 = Int64.ofInt x := by
  apply Int64.toBitVec_inj.1
  apply BitVec.eq_of_toNat_eq
  have hx := toNat_ofInt x
  rw [UInt64.toBitVec_toInt64, UInt64.toNat_toBitVec, Int64.toBitVec_ofInt, BitVec.toNat_ofInt]
  omega

theorem ofWord_ofInt (kind : Kind) (x : Int) : kind.ofWord (UInt64.ofInt x) = kind.ofInt x := by
  cases kind with
  | u32 =>
    have hword : (UInt64.ofInt x).toUInt32 = UInt32.ofInt x := by
      apply UInt32.toNat_inj.1
      have hx := toNat_ofInt x
      rw [UInt64.toNat_toUInt32, UInt32.ofInt, UInt32.toNat_ofNat']
      omega
    rw [Kind.ofWord, Kind.ofInt, hword]
  | u64 => rfl
  | s32 => rw [Kind.ofWord, Kind.ofInt, toInt64_ofInt, Int64.toInt32_ofInt]
  | s64 => rw [Kind.ofWord, Kind.ofInt, toInt64_ofInt]

/-! ## The word of a cursor -/

theorem toNat_or_shiftLeft (word high : UInt64) {filled : Nat} (hfilled : filled < 64)
    (hword : word.toNat < 2 ^ filled) :
    (word ||| high <<< UInt64.ofNat filled).toNat =
      (word.toNat + high.toNat * 2 ^ filled) % 2 ^ 64 := by
  have hsplit : 2 ^ 64 = 2 ^ filled * 2 ^ (64 - filled) := by
    rw [← pow_add]
    congr 1
    omega
  have hshift : (UInt64.ofNat filled).toNat % 64 = filled := by
    rw [UInt64.toNat_ofNat']
    omega
  have hrest : high.toNat * 2 ^ filled % 2 ^ 64 =
      2 ^ filled * (high.toNat % 2 ^ (64 - filled)) := by
    rw [hsplit, Nat.mul_comm, Nat.mul_mod_mul_left]
  have hlt : 2 ^ filled * (high.toNat % 2 ^ (64 - filled)) + word.toNat < 2 ^ 64 := by
    have hhigh : high.toNat % 2 ^ (64 - filled) + 1 ≤ 2 ^ (64 - filled) :=
      Nat.mod_lt _ (Nat.two_pow_pos _)
    have hmul := Nat.mul_le_mul_left (2 ^ filled) hhigh
    rw [← hsplit, Nat.mul_add, Nat.mul_one] at hmul
    omega
  rw [UInt64.toNat_or, UInt64.toNat_shiftLeft, hshift, Nat.shiftLeft_eq, hrest, Nat.or_comm,
    ← Nat.two_pow_add_eq_or_of_lt hword]
  rw [← Nat.mod_eq_of_lt hlt, ← hrest, Nat.mod_add_mod, Nat.add_comm]

namespace Cursor

def behind (taken : Bytes) : Cursor :=
  taken.foldl push {}

@[simp] theorem behind_nil : behind [] = {} := rfl

@[simp] theorem behind_concat (taken : Bytes) (byte : UInt8) :
    behind (taken ++ [byte]) = (behind taken).push byte := by
  simp [behind]

@[simp] theorem groups_behind (taken : Bytes) : (behind taken).groups = taken.length := by
  induction taken using List.reverseRecOn with
  | nil => rfl
  | append_singleton taken byte ih => simp [push, ih]

/-- The word of a cursor is the value of the groups taken, less what the last group has above the
word. -/
theorem toNat_word_behind (taken : Bytes) (hlength : taken.length ≤ 10) :
    (behind taken).word.toNat = groupsValue taken % 2 ^ 64 := by
  induction taken using List.reverseRecOn with
  | nil => rfl
  | append_singleton taken byte ih =>
    rw [List.length_append, List.length_singleton] at hlength
    have hfilled : (behind taken).filled = 7 * taken.length := by rw [filled, groups_behind]
    have hvalue : groupsValue taken < 2 ^ (7 * taken.length) := by
      rw [pow_mul]
      exact groupsValue_lt taken
    have hword : (behind taken).word.toNat = groupsValue taken := by
      have hpow : 2 ^ (7 * taken.length) ≤ 2 ^ 63 := Nat.pow_le_pow_right (by decide) (by omega)
      rw [ih (by omega), Nat.mod_eq_of_lt (by omega)]
    rw [behind_concat, push, hfilled, toNat_or_shiftLeft _ _ (by omega) (by omega), hword,
      UInt8.toNat_toUInt64, toNat_group, groupsValue_concat, pow_mul]
    rfl

end Cursor

/-! ## The last group -/

theorem admits_unsigned_iff {kind : Kind} (hkind : kind.isSigned = false) {spare : Nat}
    (hspare : spare < 8) (byte : UInt8) :
    kind.admits spare byte = true ↔ byte.toNat % 128 < 2 ^ spare := by
  have hshift : (UInt8.ofNat spare).toNat % 8 = spare := by
    rw [UInt8.toNat_ofNat']
    omega
  have hzero : (group byte >>> UInt8.ofNat spare).toNat = byte.toNat % 128 / 2 ^ spare := by
    rw [UInt8.toNat_shiftRight, hshift, toNat_group, Nat.shiftRight_eq_div_pow]
  simp only [Kind.admits, hkind, Bool.false_eq_true, if_false, beq_iff_eq]
  rw [← UInt8.toNat_inj, hzero, UInt8.toNat_zero, Nat.div_eq_zero_iff_lt (Nat.two_pow_pos _)]

theorem admits_signed_iff {kind : Kind} (hkind : kind.isSigned = true) (place : Fin 7)
    (byte : UInt8) :
    kind.admits (place + 1) byte = true ↔
      byte.toNat % 128 < 2 ^ place.val ∨ 128 ≤ byte.toNat % 128 + 2 ^ place.val := by
  simp only [Kind.admits, hkind, if_true, Nat.add_sub_cancel]
  revert byte
  apply forall_byte
  revert place
  decide +kernel

/-- With the last group that a kind admits, the bit test is a test of the range. -/
theorem admits_iff_inRange {kind : Kind} {taken : Bytes} (hlast : taken.length + 1 = kind.maxLength)
    (byte : UInt8) :
    kind.admits (kind.bits - 7 * taken.length) byte = true ↔
      kind.InRange (kind.value (taken ++ [byte])) := by
  have hlow := groupsValue_lt taken
  have hvalue := groupsValue_concat taken byte
  have hsigned := signedValue_concat taken byte
  have hdigit : byte.toNat % 128 < 128 := Nat.mod_lt _ (by decide)
  cases kind with
  | u32 =>
    have htaken : taken.length = 4 := Nat.succ.inj hlast
    rw [htaken] at hlow hvalue
    rw [htaken, admits_unsigned_iff rfl (by decide)]
    simp only [Kind.InRange, Kind.value, Kind.isSigned, Kind.bits, Bool.false_eq_true, if_false]
    omega
  | u64 =>
    have htaken : taken.length = 9 := Nat.succ.inj hlast
    rw [htaken] at hlow hvalue
    rw [htaken, admits_unsigned_iff rfl (by decide)]
    simp only [Kind.InRange, Kind.value, Kind.isSigned, Kind.bits, Bool.false_eq_true, if_false]
    omega
  | s32 =>
    have htaken : taken.length = 4 := Nat.succ.inj hlast
    rw [htaken] at hlow hvalue hsigned
    have htest : Kind.s32.admits 4 byte = true ↔
        byte.toNat % 128 < 8 ∨ 128 ≤ byte.toNat % 128 + 8 := admits_signed_iff rfl 3 byte
    rw [htaken]
    simp only [Kind.InRange, Kind.value, Kind.isSigned, Kind.bits, if_true]
    refine htest.trans ?_
    by_cases hneg : byte.toNat % 128 < 64
    · rw [hsigned, if_pos hneg]
      omega
    · rw [hsigned, if_neg hneg]
      omega
  | s64 =>
    have htaken : taken.length = 9 := Nat.succ.inj hlast
    rw [htaken] at hlow hvalue hsigned
    have htest : Kind.s64.admits 1 byte = true ↔
        byte.toNat % 128 < 1 ∨ 128 ≤ byte.toNat % 128 + 1 := admits_signed_iff rfl 0 byte
    rw [htaken]
    simp only [Kind.InRange, Kind.value, Kind.isSigned, Kind.bits, if_true]
    refine htest.trans ?_
    by_cases hneg : byte.toNat % 128 < 64
    · rw [hsigned, if_pos hneg]
      omega
    · rw [hsigned, if_neg hneg]
      omega

/-- With fewer groups than a kind admits, every value is in range. -/
theorem inRange_value {kind : Kind} {bytes : Bytes} (hlength : bytes.length < kind.maxLength) :
    kind.InRange (kind.value bytes) := by
  have hpow : 128 ^ bytes.length ≤ 128 ^ (kind.maxLength - 1) :=
    Nat.pow_le_pow_right (by decide) (by omega)
  have hvalue := groupsValue_lt bytes
  have hlow := Int.le_bmod (x := groupsValue bytes) (Nat.pow_pos (n := bytes.length)
    (show 0 < 128 by decide))
  have hhigh := Int.bmod_lt (x := groupsValue bytes) (Nat.pow_pos (n := bytes.length)
    (show 0 < 128 by decide))
  cases kind <;>
    simp only [Kind.InRange, Kind.value, signedValue, Kind.isSigned, Kind.bits, Kind.maxLength,
      Bool.false_eq_true, if_false, if_true] at * <;> omega

/-- The word that a reader ends with stands for the value of all groups.  A tenth group reaches past
the word, so there is nothing left to extend. -/
theorem extend_word (kind : Kind) {taken : Bytes} (hlength : taken.length < 10) (byte : UInt8) :
    kind.extend (7 * (taken.length + 1)) byte (Cursor.behind (taken ++ [byte])).word =
      UInt64.ofInt (kind.value (taken ++ [byte])) := by
  have hlen : (taken ++ [byte]).length = taken.length + 1 := by simp
  have hword := Cursor.toNat_word_behind (taken ++ [byte]) (by omega)
  have hofInt := toNat_ofInt (kind.value (taken ++ [byte]))
  apply UInt64.toNat_inj.1
  cases hkind : kind.isSigned with
  | false =>
    simp only [Kind.value, hkind, Bool.false_eq_true, if_false] at hofInt
    simp only [Kind.extend, hkind, Bool.false_eq_true, false_and, if_false, Kind.value]
    omega
  | true =>
    have hsigned := signedValue_concat taken byte
    simp only [Kind.value, hkind, if_true] at hofInt ⊢
    simp only [Kind.extend, hkind, true_and, sign_bit_ne_zero_iff]
    by_cases hneg : byte.toNat % 128 < 64
    · rw [if_pos hneg] at hsigned
      rw [if_neg (by omega)]
      omega
    rw [if_neg hneg] at hsigned
    by_cases hfilled : 7 * (taken.length + 1) < 64
    · have hvalue : groupsValue (taken ++ [byte]) < 2 ^ (7 * (taken.length + 1)) := by
        rw [pow_mul, ← hlen]
        exact groupsValue_lt _
      have hcast : (128 : Int) ^ (taken.length + 1) = (2 ^ (7 * (taken.length + 1)) : Nat) := by
        rw [pow_mul, Nat.cast_pow]
        rfl
      have hpow : 2 ^ (7 * (taken.length + 1)) ≤ 2 ^ 63 :=
        Nat.pow_le_pow_right (by decide) (by omega)
      have hones : (0xffffffffffffffff : UInt64).toNat = 2 ^ 64 - 1 := rfl
      rw [if_pos ⟨hfilled, by omega⟩, toNat_or_shiftLeft _ _ hfilled (by omega), hones]
      omega
    · have hten : taken.length = 9 := by omega
      rw [if_neg (by omega)]
      rw [hten] at hsigned
      omega

/-! ## Runs of a cursor -/

section Run

variable {kind : Kind} {bytes taken : Bytes} {offset left : Nat} {byte : UInt8}

theorem run_behind_more (hat : bytes[offset + taken.length]? = some byte)
    (hmore : continues byte = true) (hroom : taken.length + 1 < kind.maxLength) :
    Cursor.run kind bytes offset (left + 1) (.behind taken) =
      Cursor.run kind bytes offset left (.behind (taken ++ [byte])) := by
  have hlast : (Cursor.behind taken).isLast kind = false := by
    rw [Cursor.isLast, Cursor.groups_behind, beq_eq_false_iff_ne]
    omega
  rw [Cursor.run, Cursor.groups_behind, hat]
  simp [Cursor.step, hlast, hmore]

theorem step_behind_last (hlast : continues byte = false)
    (hroom : taken.length + 1 ≤ kind.maxLength) :
    (Cursor.behind taken).step kind (some byte) =
      if kind.InRange (kind.value (taken ++ [byte])) then
        .done (UInt64.ofInt (kind.value (taken ++ [byte]))) (taken.length + 1)
      else .fault .overflow := by
  have hmax : kind.maxLength ≤ 10 := by cases kind <;> decide
  have hword := extend_word kind (by omega : taken.length < 10) byte
  have hfilled : (Cursor.behind (taken ++ [byte])).filled = 7 * (taken.length + 1) := by
    simp [Cursor.filled, Cursor.push]
  have hgroups : (Cursor.behind (taken ++ [byte])).groups = taken.length + 1 := by
    simp [Cursor.push]
  simp only [Cursor.step, hlast, Bool.and_false, Bool.false_eq_true, if_false,
    ← Cursor.behind_concat, hfilled, hgroups, hword]
  by_cases hfull : taken.length + 1 = kind.maxLength
  · have hisLast : (Cursor.behind taken).isLast kind = true := by
      rw [Cursor.isLast, Cursor.groups_behind, beq_iff_eq]
      omega
    have hadmits := admits_iff_inRange hfull byte
    rw [Cursor.filled, Cursor.groups_behind, hisLast, Bool.true_and]
    by_cases hrange : kind.InRange (kind.value (taken ++ [byte]))
    · rw [if_pos hrange, hadmits.2 hrange]
      rfl
    · rw [if_neg hrange, Bool.eq_false_of_not_eq_true (mt hadmits.1 hrange)]
      rfl
  · have hisLast : (Cursor.behind taken).isLast kind = false := by
      rw [Cursor.isLast, Cursor.groups_behind, beq_eq_false_iff_ne]
      omega
    have hrange : kind.InRange (kind.value (taken ++ [byte])) := by
      apply inRange_value
      rw [List.length_append, List.length_singleton]
      omega
    rw [if_pos hrange, hisLast, Bool.false_and]
    rfl

theorem drop_eq_cons {position : Nat} {byte : UInt8} {rest : Bytes}
    (h : bytes.drop position = byte :: rest) :
    bytes[position]? = some byte ∧ bytes.drop (position + 1) = rest := by
  constructor
  · simp [← List.head?_drop, h]
  · simp [← List.drop_drop, h]

/-- A reader takes a terminated varint in one run, whatever follows it. -/
theorem run_terminated {todo rest : Bytes} (h : Terminated todo)
    (hat : bytes.drop (offset + taken.length) = todo ++ rest)
    (hroom : taken.length + todo.length ≤ kind.maxLength) (hleft : todo.length ≤ left) :
    Cursor.run kind bytes offset left (.behind taken) =
      if kind.InRange (kind.value (taken ++ todo)) then
        .ok (UInt64.ofInt (kind.value (taken ++ todo)), (taken ++ todo).length)
      else .error .overflow := by
  induction h generalizing taken left with
  | @last byte h =>
    obtain ⟨left, rfl⟩ := Nat.exists_eq_succ_of_ne_zero (Nat.pos_iff_ne_zero.1 hleft)
    rw [Cursor.run, Cursor.groups_behind, (drop_eq_cons hat).1, step_behind_last h hroom]
    by_cases hrange : kind.InRange (kind.value (taken ++ [byte]))
    · simp [hrange]
    · simp [hrange]
  | @more byte todo h hrest ih =>
    obtain ⟨left, rfl⟩ := Nat.exists_eq_succ_of_ne_zero
      (Nat.pos_iff_ne_zero.1 ((Nat.zero_lt_succ _).trans_le hleft))
    obtain ⟨hbyte, htail⟩ := drop_eq_cons hat
    have htodo : 0 < todo.length := List.length_pos_iff.2 hrest.ne_nil
    rw [List.length_cons] at hroom hleft
    have hsnoc : (taken ++ [byte]).length = taken.length + 1 := by simp
    have hat' : bytes.drop (offset + (taken ++ [byte]).length) = todo ++ rest := by
      rwa [hsnoc, ← Nat.add_assoc]
    rw [run_behind_more hbyte h (by omega), ih hat' (by omega) (by omega), List.append_assoc,
      List.singleton_append]

/-- A varint is read from where it stands, whatever is in front of it and behind. -/
theorem read_terminated {todo rest : Bytes} (h : Terminated todo)
    (hat : bytes.drop offset = todo ++ rest) (hroom : todo.length ≤ kind.maxLength) :
    read kind bytes offset =
      if kind.InRange (kind.value todo) then .ok (kind.ofInt (kind.value todo), todo.length)
      else .error .overflow := by
  have hzero : ([] : Bytes).length + todo.length ≤ kind.maxLength := by
    rwa [List.length_nil, Nat.zero_add]
  have hstart : bytes.drop (offset + ([] : Bytes).length) = todo ++ rest := hat
  have hrun := run_terminated h hstart hzero hroom
  rw [Cursor.behind_nil, List.nil_append] at hrun
  rw [read, hrun]
  by_cases hrange : kind.InRange (kind.value todo)
  · simp [hrange, ofWord_ofInt]
  · simp [hrange]

end Run

end WasmBinary.Varint
