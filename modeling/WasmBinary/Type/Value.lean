import WasmBinary.Bytes

/-!
# Types of values

Each type of value is one byte.  The types of reference are also types of value, with the same
bytes.
-/

namespace WasmBinary

inductive ValType
  | i32
  | i64
  | f32
  | f64
  | v128
  | funcref
  | externref
deriving DecidableEq

namespace ValType

def byte : ValType → UInt8
  | .i32 => 0x7f
  | .i64 => 0x7e
  | .f32 => 0x7d
  | .f64 => 0x7c
  | .v128 => 0x7b
  | .funcref => 0x70
  | .externref => 0x6f

def name : ValType → String
  | .i32 => "i32"
  | .i64 => "i64"
  | .f32 => "f32"
  | .f64 => "f64"
  | .v128 => "v128"
  | .funcref => "funcref"
  | .externref => "externref"

end ValType

inductive RefType
  | funcref
  | externref
deriving DecidableEq

namespace RefType

def toValType : RefType → ValType
  | .funcref => .funcref
  | .externref => .externref

def byte (type : RefType) : UInt8 :=
  type.toValType.byte

end RefType

end WasmBinary
