import WasmBinary.Varint.Basic

/-!
# Writing integers at variable length

An integer is cut into groups of seven bits, the low group first, and each group is a byte.  The
high bit of a byte is its continuation bit: it says that more groups follow.  An unsigned integer
ends with its last group that is not zero.  A signed one ends where the rest only repeats the sign
that the group's own high bit shows.

The length of what is written is counted without writing it, from the size of the integer alone.
-/

namespace WasmBinary.Varint

/-! ## Unsigned -/

def encodeUnsigned (n : Nat) : Bytes :=
  if n / 128 = 0 then [UInt8.ofNat (n % 128)]
  else UInt8.ofNat (n % 128 + 128) :: encodeUnsigned (n / 128)
termination_by n
decreasing_by omega

def unsignedLength (n : Nat) : Nat :=
  if n < 128 then 1 else unsignedLength (n / 128) + 1
termination_by n
decreasing_by omega

/-! ## Signed

Division and remainder by 128 round down, so the group is the low seven bits of the two's
complement and the quotient is the arithmetic shift by seven. -/

/-- The integer is the sign extension of its low group. -/
def EndsAtGroup (i : Int) : Prop :=
  (i / 128 = 0 ∧ i % 128 < 64) ∨ (i / 128 = -1 ∧ 64 ≤ i % 128)

instance (i : Int) : Decidable (EndsAtGroup i) :=
  inferInstanceAs (Decidable (_ ∨ _))

theorem endsAtGroup_iff (i : Int) : EndsAtGroup i ↔ -64 ≤ i ∧ i < 64 := by
  unfold EndsAtGroup
  omega

def encodeSigned (i : Int) : Bytes :=
  if EndsAtGroup i then [UInt8.ofNat (i % 128).toNat]
  else UInt8.ofNat ((i % 128).toNat + 128) :: encodeSigned (i / 128)
termination_by i.natAbs
decreasing_by
  rename_i h
  rw [endsAtGroup_iff] at h
  omega

def signedLength (i : Int) : Nat :=
  if -64 ≤ i ∧ i < 64 then 1 else signedLength (i / 128) + 1
termination_by i.natAbs
decreasing_by omega

/-! ## Both -/

def encode : Varint → Bytes
  | .u32 value => encodeUnsigned value.toNat
  | .u64 value => encodeUnsigned value.toNat
  | .s32 value => encodeSigned value.toInt
  | .s64 value => encodeSigned value.toInt

def length : Varint → Nat
  | .u32 value => unsignedLength value.toNat
  | .u64 value => unsignedLength value.toNat
  | .s32 value => signedLength value.toInt
  | .s64 value => signedLength value.toInt

end WasmBinary.Varint

namespace WasmBinary

/-- An index into one of the module's index spaces. -/
def encodeIndex (index : UInt32) : Bytes :=
  Varint.encode (.u32 index)

end WasmBinary
