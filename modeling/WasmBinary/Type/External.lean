import WasmBinary.Type.Value
import WasmBinary.Varint.Writer

/-!
# Types of tables, memories and globals

Tables and memories have limits on their size, with or without an upper one.  A table also has the
type of its references, and a global the type of its value and whether it may change.
-/

namespace WasmBinary

/-! ## Limits -/

/-- Bounds on the size of a table, in references, or of a memory, in pages. -/
structure Limits where
  min : UInt32
  max : Option UInt32 := none
deriving DecidableEq

namespace Limits

def minTag : UInt8 :=
  0

def minMaxTag : UInt8 :=
  1

def encode (limits : Limits) : Bytes :=
  match limits.max with
  | none => minTag :: encodeIndex limits.min
  | some max => minMaxTag :: encodeIndex limits.min ++ encodeIndex max

def text (limits : Limits) : String :=
  match limits.max with
  | none => "min = " ++ toString limits.min.toNat
  | some max => "min = " ++ toString limits.min.toNat ++ ", max = " ++ toString max.toNat

end Limits

/-- The type of a memory is its limits, in pages. -/
abbrev MemoryType := Limits

/-! ## Tables and globals -/

structure TableType where
  elements : RefType
  limits : Limits
deriving DecidableEq

def TableType.encode (table : TableType) : Bytes :=
  table.elements.byte :: table.limits.encode

structure GlobalType where
  value : ValType
  isMutable : Bool
deriving DecidableEq

namespace GlobalType

def encode (type : GlobalType) : Bytes :=
  type.value.byte :: encodeBool type.isMutable

def text (type : GlobalType) : String :=
  (if type.isMutable then "var " else "const ") ++ type.value.name

end GlobalType

end WasmBinary
