/-!
# Byte strings

The binary format is a string of bytes.  This module names that type and writes the leaves of the
format that take a fixed number of bytes: a Boolean takes one, and a word of `8 * width` bits takes
`width`, the low byte first.
-/

namespace WasmBinary

abbrev Bytes := List UInt8

/-- A Boolean is one byte, `0` or `1`. -/
def encodeBool (b : Bool) : Bytes :=
  [if b then 1 else 0]

/-- The `width` low bytes of `n`, the lowest first. -/
def littleEndian : Nat → Nat → Bytes
  | 0, _ => []
  | width + 1, n => UInt8.ofNat n :: littleEndian width (n / 256)

@[simp] theorem littleEndian_zero (n : Nat) : littleEndian 0 n = [] := rfl

@[simp] theorem littleEndian_succ (width n : Nat) :
    littleEndian (width + 1) n = UInt8.ofNat n :: littleEndian width (n / 256) := rfl

@[simp] theorem length_littleEndian (width n : Nat) : (littleEndian width n).length = width := by
  induction width generalizing n with
  | zero => rfl
  | succ width ih => simp [ih]

def encodeWord (w : UInt32) : Bytes :=
  littleEndian 4 w.toNat

end WasmBinary
