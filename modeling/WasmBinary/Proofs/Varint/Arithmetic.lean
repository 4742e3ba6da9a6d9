import WasmBinary.Proofs.Varint.Acceptance
import WasmBinary.Varint.Checked

/-!
# The arithmetic of a reader

Whatever the bytes are and wherever a reader starts, no operation leaves its words.  A position is
only moved on from a byte that is there, so it stays at most one behind the last byte; the amount of
shift is seven times the index of the group, and the index is below what the kind admits.
-/

namespace WasmBinary.Varint

/-! ## One byte -/

/-- What is wrong with a byte behind the groups that a reader has taken. -/
def Cursor.fault? (kind : Kind) (cursor : Cursor) (byte : UInt8) : Option Fault :=
  if cursor.isLast kind then
    if continues byte then some .overlong
    else if kind.admits (kind.bits - cursor.filled) byte then none else some .overflow
  else none

theorem Cursor.step_some (kind : Kind) (cursor : Cursor) (byte : UInt8) :
    cursor.step kind (some byte) =
      match cursor.fault? kind byte with
      | some fault => .fault fault
      | none =>
        if continues byte then .more (cursor.push byte)
        else .done (kind.extend (cursor.push byte).filled byte (cursor.push byte).word)
          (cursor.push byte).groups := by
  cases hlast : cursor.isLast kind <;> cases hmore : continues byte <;>
    cases hadmits : kind.admits (kind.bits - cursor.filled) byte <;>
    simp [Cursor.step, Cursor.fault?, hlast, hmore, hadmits]

namespace Checked

theorem require_eq_ok {condition : Prop} [Decidable condition] (h : condition) (misstep : Misstep)
    {α : Type} (result : α) : require condition misstep result = .ok result :=
  if_pos h

/-- In the last group of a kind there are one or four bits to spare. -/
theorem admits_eq (kind : Kind) (byte : UInt8) :
    admits kind (7 * (kind.maxLength - 1)) byte =
      .ok (kind.admits (kind.bits - 7 * (kind.maxLength - 1)) byte) := by
  revert byte
  apply forall_byte
  cases kind <;> decide +kernel

theorem extend_eq (kind : Kind) (shift : Nat) (byte : UInt8) (word : UInt64) :
    extend kind shift byte word = .ok (kind.extend shift byte word) := by
  rw [extend, Kind.extend]
  split
  · next h =>
    rw [shiftLeft, require_eq_ok h.2.1]
    rfl
  · rfl

namespace State

/-- The reader with its two counters where a cursor is. -/
def ofCursor (cursor : Cursor) : State :=
  ⟨cursor.groups, cursor.filled, cursor.word⟩

theorem fault?_ofCursor (kind : Kind) (cursor : Cursor) (byte : UInt8) :
    (ofCursor cursor).fault? kind byte = .ok (cursor.fault? kind byte) := by
  by_cases hlast : cursor.groups = kind.maxLength - 1
  · have hadmits : admits kind cursor.filled byte =
        .ok (kind.admits (kind.bits - cursor.filled) byte) := by
      rw [Cursor.filled, hlast]
      exact admits_eq kind byte
    simp only [fault?, Cursor.fault?, Cursor.isLast, ofCursor, hlast, hadmits, beq_self_eq_true,
      if_true]
    split <;> rfl
  · simp [fault?, Cursor.fault?, Cursor.isLast, ofCursor, hlast]

theorem push_ofCursor {cursor : Cursor} (hfilled : cursor.filled < 64) (byte : UInt8) :
    (ofCursor cursor).push byte = .ok (ofCursor (cursor.push byte)) := by
  have hsum : cursor.filled + 7 < UInt32.size := by
    change cursor.filled + 7 < 0x100000000
    omega
  rw [push, ofCursor, shiftLeft, require_eq_ok hfilled, add, require_eq_ok hsum]
  rfl

end State

/-! ## All bytes -/

/-- After a byte that says that more groups follow the kind admits one more. -/
theorem groups_push_lt {kind : Kind} {cursor : Cursor} {byte : UInt8}
    (hroom : cursor.groups < kind.maxLength) (hfault : cursor.fault? kind byte = none)
    (hmore : continues byte = true) : (cursor.push byte).groups < kind.maxLength := by
  have hlast : cursor.groups ≠ kind.maxLength - 1 := by
    intro hlast
    simp [Cursor.fault?, Cursor.isLast, hlast, hmore] at hfault
  change cursor.groups + 1 < kind.maxLength
  omega

theorem run_ofCursor {kind : Kind} {bytes : Bytes} (hlength : bytes.length ≤ 2 ^ 63 - 1)
    {offset left : Nat} {cursor : Cursor} (hroom : cursor.groups < kind.maxLength)
    (hleft : cursor.groups + left = kind.maxLength)
    (hposition : offset + cursor.groups ≤ 2 ^ 64 - 1) :
    run kind bytes offset left (.ofCursor cursor) =
      .ok (Cursor.run kind bytes offset left cursor) := by
  have hmax : kind.maxLength ≤ 10 := by cases kind <;> decide
  induction left generalizing cursor with
  | zero => omega
  | succ left ih =>
    have hsum : offset + cursor.groups < UInt64.size := Nat.lt_of_le_pred (by decide) hposition
    have hadd : add UInt64.size offset (State.ofCursor cursor).index = .ok (offset + cursor.groups) :=
      require_eq_ok hsum _ _
    rw [run, hadd, Cursor.run]
    cases hbyte : bytes[offset + cursor.groups]? with
    | none =>
      simp only [bind, Except.bind, hbyte, Cursor.step]
      rfl
    | some byte =>
      have hfilled : cursor.filled < 64 := by
        rw [Cursor.filled]
        omega
      have hpush := State.push_ofCursor hfilled byte
      simp only [bind, Except.bind, hbyte, State.fault?_ofCursor, Cursor.step_some]
      cases hfault : cursor.fault? kind byte with
      | some fault => rfl
      | none =>
        simp only [hpush]
        cases hmore : continues byte with
        | true =>
          -- The byte is there, so the next position is not behind the end of the bytes.
          have hgroups : (cursor.push byte).groups = cursor.groups + 1 := rfl
          obtain ⟨hinside, -⟩ := List.getElem?_eq_some_iff.1 hbyte
          have hnext := groups_push_lt hroom hfault hmore
          exact ih hnext (by omega) (by omega)
        | false =>
          simp only [Bool.false_eq_true, if_false, extend_eq, State.ofCursor]
          rfl

/-! ## The answer -/

theorem narrow_ofInt {kind : Kind} {x : Int} (h : kind.InRange x) :
    narrow kind (UInt64.ofInt x) = .ok (kind.ofWord (UInt64.ofInt x)) := by
  apply require_eq_ok
  rw [ofWord_ofInt, toInt_ofInt h, wideValue, toInt64_ofInt, toNat_ofInt]
  cases kind with
  | u32 => exact (Int.emod_eq_of_lt h.1 (h.2.trans (by decide))).symm
  | u64 => exact (Int.emod_eq_of_lt h.1 h.2).symm
  | s32 => exact (Int64.toInt_ofInt_of_le (le_trans (by decide) h.1) (h.2.trans (by decide))).symm
  | s64 => exact (Int64.toInt_ofInt_of_le h.1 h.2).symm

/-- The word that a reader ends with is that of an integer of its kind. -/
theorem exists_inRange_of_run {kind : Kind} {bytes : Bytes} {offset consumed : Nat} {word : UInt64}
    (h : Cursor.run kind bytes offset kind.maxLength {} = .ok (word, consumed)) :
    ∃ x, kind.InRange x ∧ word = UInt64.ofInt x := by
  have hread : readAt kind bytes offset = .ok (kind.ofWord word, consumed) := by
    rw [readAt, Varint.read, h]
    rfl
  rcases readAt_outcome kind bytes offset with ⟨varint, hvarint⟩ | hfault | hfault
  · obtain ⟨rest, hrest⟩ := hvarint.isPrefix
    have hat : bytes.drop (offset + ([] : Bytes).length) = varint ++ rest := hrest.symm
    have hroom : ([] : Bytes).length + varint.length ≤ kind.maxLength := by
      rw [List.length_nil, Nat.zero_add]
      exact hvarint.length_le
    have hrun := run_terminated hvarint.terminated hat hroom hvarint.length_le
    rw [Cursor.behind_nil, h] at hrun
    split at hrun
    · next hrange =>
      cases hrun
      exact ⟨_, hrange, rfl⟩
    · cases hrun
  · cases hfault.symm.trans hread
  · cases hfault.symm.trans hread

/-- No operation of a reader leaves its words, for all bytes that there can be and from any position
that there is: no sum of positions, no difference of bits and no amount of shift.  A reader has its
answer before it runs out of groups, and the integer that it answers with loses nothing in the bits
of its kind. -/
theorem checked_read (kind : Kind) {bytes : Bytes} (hlength : bytes.length ≤ 2 ^ 63 - 1)
    {offset : Nat} (hoffset : offset ≤ 2 ^ 64 - 1) :
    Checked.read kind bytes offset = .ok (Varint.read kind bytes offset) := by
  have hroom : ({} : Cursor).groups < kind.maxLength := by cases kind <;> decide
  have hrun : run kind bytes offset kind.maxLength {} =
      .ok (Cursor.run kind bytes offset kind.maxLength {}) :=
    run_ofCursor hlength hroom (Nat.zero_add _) hoffset
  rw [Checked.read, hrun, Varint.read]
  simp only [bind, Except.bind]
  cases hanswer : Cursor.run kind bytes offset kind.maxLength {} with
  | error fault => rfl
  | ok answer =>
    obtain ⟨word, consumed⟩ := answer
    obtain ⟨x, hx, rfl⟩ := exists_inRange_of_run hanswer
    simp only [narrow_ofInt hx]
    rfl

/-- The lowest integer of 64 bits, in as many groups as there can be.  Its last group is shifted by
63, and its sign is not repeated above it. -/
def lowest : Bytes :=
  [0xff, 0x80, 0x80, 0x80, 0x80, 0x80, 0x80, 0x80, 0x80, 0x80, 0x7f]

theorem checked_read_lowest :
    lowest.length ≤ 2 ^ 63 - 1 ∧ 1 ≤ 2 ^ 64 - 1 ∧
      Checked.read .s64 lowest 1 = .ok (.ok (.s64 Int64.minValue, 10)) := by
  have hlength : lowest.length ≤ 2 ^ 63 - 1 := by decide
  have hoffset : 1 ≤ 2 ^ 64 - 1 := by decide
  have hread : Varint.read .s64 lowest 1 = .ok (.s64 Int64.minValue, 10) := by cbv
  exact ⟨hlength, hoffset, (checked_read .s64 hlength hoffset).trans (congrArg _ hread)⟩

end Checked

end WasmBinary.Varint
