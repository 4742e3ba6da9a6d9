/-!
# Kinds of entity

A module imports and exports entities of four kinds, and has one index space for each.
-/

namespace WasmBinary

inductive ExternKind
  | function
  | table
  | memory
  | global
deriving DecidableEq

namespace ExternKind

def byte : ExternKind → UInt8
  | .function => 0
  | .table => 1
  | .memory => 2
  | .global => 3

def name : ExternKind → String
  | .function => "function"
  | .table => "table"
  | .memory => "memory"
  | .global => "global"

end ExternKind

end WasmBinary
