import WasmBinary.Bytes

/-!
# Floats by their bit patterns

A float constant is carried through a module as its IEEE 754 bit pattern, so that the payload of a
NaN and the sign of a zero survive.  Propositional equality compares patterns.  The Boolean `==`
compares the numbers that the patterns stand for: a NaN differs from everything, itself included,
and the two zeros are equal.
-/

namespace WasmBinary

/-! ## Single precision -/

structure Binary32 where
  bits : UInt32
deriving DecidableEq, Inhabited

namespace Binary32

def magnitude (x : Binary32) : UInt32 :=
  x.bits &&& 0x7fffffff

/-- A pattern above the infinities is no number. -/
def isNaN (x : Binary32) : Bool :=
  0x7f800000 < x.magnitude

def isZero (x : Binary32) : Bool :=
  x.magnitude == 0

instance : BEq Binary32 where
  beq x y := !x.isNaN && !y.isNaN && (x.bits == y.bits || (x.isZero && y.isZero))

def encode (x : Binary32) : Bytes :=
  littleEndian 4 x.bits.toNat

end Binary32

/-! ## Double precision -/

structure Binary64 where
  bits : UInt64
deriving DecidableEq, Inhabited

namespace Binary64

def magnitude (x : Binary64) : UInt64 :=
  x.bits &&& 0x7fffffffffffffff

/-- A pattern above the infinities is no number. -/
def isNaN (x : Binary64) : Bool :=
  0x7ff0000000000000 < x.magnitude

def isZero (x : Binary64) : Bool :=
  x.magnitude == 0

instance : BEq Binary64 where
  beq x y := !x.isNaN && !y.isNaN && (x.bits == y.bits || (x.isZero && y.isZero))

def encode (x : Binary64) : Bytes :=
  littleEndian 8 x.bits.toNat

end Binary64

end WasmBinary
