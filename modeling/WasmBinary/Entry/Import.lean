import WasmBinary.Counted
import WasmBinary.Type.External

/-!
# Imports

An import names a module and an entity in it, and says what that entity has to be.
-/

namespace WasmBinary

/-- What an imported entity has to be.  A function is described by the index of its signature. -/
inductive ImportDesc
  | function (typeIndex : UInt32)
  | table (type : TableType)
  | memory (type : MemoryType)
  | global (type : GlobalType)
deriving DecidableEq

namespace ImportDesc

def kind : ImportDesc → ExternKind
  | .function _ => .function
  | .table _ => .table
  | .memory _ => .memory
  | .global _ => .global

def encode (desc : ImportDesc) : Bytes :=
  desc.kind.byte ::
    match desc with
    | .function typeIndex => encodeIndex typeIndex
    | .table type => type.encode
    | .memory type => type.encode
    | .global type => type.encode

end ImportDesc

structure Import where
  /-- The name of the module that is imported from. -/
  source : String
  name : String
  desc : ImportDesc
deriving DecidableEq

def Import.encode (entry : Import) : Except ModuleError Bytes := do
  let source ← encodeName entry.source
  let name ← encodeName entry.name
  return source ++ name ++ entry.desc.encode

end WasmBinary
