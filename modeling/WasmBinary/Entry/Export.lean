import WasmBinary.Counted

/-!
# Exports

An export gives a name to an entity of the module: its kind and its index among those of the kind.
-/

namespace WasmBinary

structure Export where
  name : String
  kind : ExternKind
  index : UInt32
deriving DecidableEq

namespace Export

def encode (entry : Export) : Except ModuleError Bytes := do
  let name ← encodeName entry.name
  return name ++ entry.kind.byte :: encodeIndex entry.index

def taken (exports : List Export) (name : String) : Bool :=
  exports.any fun entry ↦ entry.name = name

end Export

end WasmBinary
