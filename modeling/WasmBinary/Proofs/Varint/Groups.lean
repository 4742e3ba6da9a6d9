import WasmBinary.Varint.Reader
import Mathlib.Tactic.LinearCombination
import Mathlib.Tactic.Ring

/-!
# Groups of seven bits as numbers

The groups of a varint are the digits of a number in base 128, the lowest first.  The bit tests of
the reader are said here as arithmetic on bytes, and the word of a cursor as the number that the
groups taken so far make up.
-/

namespace WasmBinary.Varint

/-! ## Single bytes -/

theorem forall_byte {p : UInt8 → Prop} (h : ∀ n : Fin 256, p (UInt8.ofFin n)) (byte : UInt8) :
    p byte := by
  have hbyte := h byte.toFin
  rwa [UInt8.ofFin_toFin] at hbyte

theorem continues_eq_true_iff (byte : UInt8) : continues byte = true ↔ 128 ≤ byte.toNat := by
  revert byte
  apply forall_byte
  decide +kernel

theorem continues_eq_false_iff (byte : UInt8) : continues byte = false ↔ byte.toNat < 128 := by
  rw [← Bool.not_eq_true, continues_eq_true_iff, Nat.not_le]

@[simp] theorem toNat_group (byte : UInt8) : (group byte).toNat = byte.toNat % 128 := by
  revert byte
  apply forall_byte
  decide +kernel

/-- The sign of a signed varint is the high bit of its last group. -/
theorem sign_bit_ne_zero_iff (byte : UInt8) : byte &&& 0x40 ≠ 0 ↔ 64 ≤ byte.toNat % 128 := by
  revert byte
  apply forall_byte
  decide +kernel

/-! ## Which bytes belong to a varint -/

/-- Bytes of which all but the last say that more groups follow. -/
inductive Terminated : Bytes → Prop
  | last {byte : UInt8} (h : continues byte = false) : Terminated [byte]
  | more {byte : UInt8} {rest : Bytes} (h : continues byte = true) (hrest : Terminated rest) :
    Terminated (byte :: rest)

theorem Terminated.ne_nil {bytes : Bytes} (h : Terminated bytes) : bytes ≠ [] := by
  cases h <;> exact List.cons_ne_nil _ _

/-! ## Values -/

/-- The number whose digits in base 128 are the groups of some bytes, the lowest first. -/
def groupsValue : Bytes → Nat
  | [] => 0
  | byte :: rest => byte.toNat % 128 + 128 * groupsValue rest

@[simp] theorem groupsValue_nil : groupsValue [] = 0 := rfl

@[simp] theorem groupsValue_cons (byte : UInt8) (rest : Bytes) :
    groupsValue (byte :: rest) = byte.toNat % 128 + 128 * groupsValue rest := rfl

theorem groupsValue_concat (taken : Bytes) (byte : UInt8) :
    groupsValue (taken ++ [byte]) =
      groupsValue taken + byte.toNat % 128 * 128 ^ taken.length := by
  induction taken with
  | nil => simp
  | cons first taken ih =>
    rw [List.cons_append, groupsValue_cons, groupsValue_cons, ih, List.length_cons, pow_succ]
    ring

theorem groupsValue_lt (bytes : Bytes) : groupsValue bytes < 128 ^ bytes.length := by
  induction bytes with
  | nil => simp
  | cons byte rest ih =>
    rw [groupsValue_cons, List.length_cons, pow_succ]
    omega

def signedValue (bytes : Bytes) : Int :=
  Int.bmod (groupsValue bytes) (128 ^ bytes.length)

/-- The number that the groups of some bytes are for a kind of varint. -/
def Kind.value (kind : Kind) (bytes : Bytes) : Int :=
  if kind.isSigned then signedValue bytes else groupsValue bytes

/-- The last group of a number in two's complement shows its sign. -/
theorem signedValue_concat (taken : Bytes) (byte : UInt8) :
    signedValue (taken ++ [byte]) =
      if byte.toNat % 128 < 64 then (groupsValue (taken ++ [byte]) : Int)
      else (groupsValue (taken ++ [byte]) : Int) - 128 ^ (taken.length + 1) := by
  have hlow := groupsValue_lt taken
  have hvalue := groupsValue_concat taken byte
  have hpow : 128 ^ (taken.length + 1) = 128 ^ taken.length * 128 := pow_succ _ _
  rw [signedValue, List.length_append, List.length_singleton,
    Int.bmod_eq_iff (Nat.pow_pos (by decide)), hpow]
  by_cases hsign : byte.toNat % 128 < 64
  · have hmul := Nat.mul_le_mul_right (128 ^ taken.length) (Nat.le_of_lt_succ hsign)
    rw [if_pos hsign, sub_self]
    exact ⟨by omega, by omega, dvd_zero _⟩
  · have hmul := Nat.mul_le_mul_right (128 ^ taken.length) (Nat.le_of_not_lt hsign)
    have hdigit : byte.toNat % 128 ≤ 127 := by omega
    have hmul' := Nat.mul_le_mul_right (128 ^ taken.length) hdigit
    rw [if_neg hsign]
    have hcast : (128 : Int) ^ (taken.length + 1) = ((128 ^ taken.length * 128 : Nat) : Int) := by
      rw [← hpow, Nat.cast_pow]
      rfl
    rw [hcast]
    refine ⟨by omega, by omega, ⟨-1, by ring⟩⟩

theorem signedValue_cons (byte : UInt8) {rest : Bytes} (hrest : rest ≠ []) :
    signedValue (byte :: rest) = (byte.toNat % 128 : Nat) + 128 * signedValue rest := by
  obtain ⟨hle, hlt, k, hk⟩ := (Int.bmod_eq_iff (a := groupsValue rest) (c := signedValue rest)
    (Nat.pow_pos (n := rest.length) (show 0 < 128 by decide))).1 rfl
  have hpow : 128 ^ (rest.length + 1) = 128 * 128 ^ rest.length := Nat.pow_succ'
  have heven : 2 ∣ 128 ^ rest.length :=
    dvd_pow (by decide) (mt List.length_eq_zero_iff.1 hrest)
  rw [signedValue, List.length_cons, Int.bmod_eq_iff (Nat.pow_pos (by decide)), groupsValue_cons,
    hpow]
  refine ⟨by omega, by omega, ⟨k, ?_⟩⟩
  push_cast at hk ⊢
  linear_combination 128 * hk

end WasmBinary.Varint
