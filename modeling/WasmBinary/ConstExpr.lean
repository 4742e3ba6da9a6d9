import WasmBinary.Ieee754
import WasmBinary.Type.Value
import WasmBinary.Varint.Writer

/-!
# Constant expressions

The initial value of a global, the place of a segment, a reference in a table: each is given by one
instruction and the end of the expression.
-/

namespace WasmBinary

/-! ## Instructions -/

namespace Opcode

def endMark : UInt8 := 0x0b

def globalGet : UInt8 := 0x23

def i32Const : UInt8 := 0x41

def i64Const : UInt8 := 0x42

def f32Const : UInt8 := 0x43

def f64Const : UInt8 := 0x44

def refNull : UInt8 := 0xd0

def refFunc : UInt8 := 0xd2

end Opcode

/-! ## Expressions -/

/-- A constant expression of one instruction.  The Boolean `==` compares float constants as
numbers. -/
inductive ConstExpr
  | i32 (value : Int32)
  | i64 (value : Int64)
  | f32 (value : Binary32)
  | f64 (value : Binary64)
  | globalGet (index : UInt32)
  | refNull (type : RefType)
  | refFunc (index : UInt32)
deriving DecidableEq, BEq

namespace ConstExpr

def instruction : ConstExpr → Bytes
  | .i32 value => Opcode.i32Const :: (Varint.s32 value).encode
  | .i64 value => Opcode.i64Const :: (Varint.s64 value).encode
  | .f32 value => Opcode.f32Const :: value.encode
  | .f64 value => Opcode.f64Const :: value.encode
  | .globalGet index => Opcode.globalGet :: encodeIndex index
  | .refNull type => [Opcode.refNull, type.byte]
  | .refFunc index => Opcode.refFunc :: encodeIndex index

def encode (expr : ConstExpr) : Bytes :=
  expr.instruction ++ [Opcode.endMark]

end ConstExpr

end WasmBinary
