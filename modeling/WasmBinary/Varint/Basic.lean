import WasmBinary.Bytes

/-!
# Integers of variable length

The format writes most integers at variable length: unsigned or signed, of 32 or 64 bits.  This
module holds the four kinds and the integers of each kind.
-/

namespace WasmBinary

inductive Varint
  | u32 (value : UInt32)
  | u64 (value : UInt64)
  | s32 (value : Int32)
  | s64 (value : Int64)
deriving DecidableEq

namespace Varint

inductive Kind
  | u32
  | u64
  | s32
  | s64
deriving DecidableEq

namespace Kind

def bits : Kind → Nat
  | .u32 | .s32 => 32
  | .u64 | .s64 => 64

def isSigned : Kind → Bool
  | .u32 | .u64 => false
  | .s32 | .s64 => true

/-- The most bytes that an integer of a kind may take, seven bits to a byte. -/
def maxLength (kind : Kind) : Nat :=
  (kind.bits + 6) / 7

@[simp] theorem maxLength_u32 : maxLength .u32 = 5 := rfl

@[simp] theorem maxLength_s32 : maxLength .s32 = 5 := rfl

@[simp] theorem maxLength_u64 : maxLength .u64 = 10 := rfl

@[simp] theorem maxLength_s64 : maxLength .s64 = 10 := rfl

/-- The integer of a kind that a word stands for: its low bits, in two's complement if signed. -/
def ofWord : Kind → UInt64 → Varint
  | .u32, word => .u32 word.toUInt32
  | .u64, word => .u64 word
  | .s32, word => .s32 word.toInt64.toInt32
  | .s64, word => .s64 word.toInt64

end Kind

def kind : Varint → Kind
  | .u32 _ => .u32
  | .u64 _ => .u64
  | .s32 _ => .s32
  | .s64 _ => .s64

def toInt : Varint → Int
  | .u32 value => value.toNat
  | .u64 value => value.toNat
  | .s32 value => value.toInt
  | .s64 value => value.toInt

end Varint

end WasmBinary
