import WasmBinary.Counted
import WasmBinary.Type.Value

/-!
# Function bodies

A body declares the function's locals, beyond its parameters, as runs of one type, and holds its
instructions, which are bytes that nothing here looks into.
-/

namespace WasmBinary

/-- So many locals of one type. -/
structure LocalRun where
  count : UInt32
  type : ValType
deriving DecidableEq

namespace LocalRun

def encode (run : LocalRun) : Bytes :=
  encodeIndex run.count ++ [run.type.byte]

/-- One local more in front of the runs: in the first run if that is of its type. -/
def cons (type : ValType) : List LocalRun → List LocalRun
  | [] => [⟨1, type⟩]
  | run :: runs =>
    if run.type = type then ⟨run.count + 1, type⟩ :: runs else ⟨1, type⟩ :: run :: runs

/-- The runs of locals that are given one by one. -/
def compress (types : List ValType) : List LocalRun :=
  types.foldr cons []

@[simp] theorem compress_nil : compress [] = [] := rfl

@[simp] theorem compress_cons (type : ValType) (types : List ValType) :
    compress (type :: types) = cons type (compress types) := rfl

end LocalRun

structure FuncBody where
  locals : List LocalRun := []
  code : Bytes := []
deriving DecidableEq

namespace FuncBody

/-- A body whose locals are given one by one. -/
def ofLocalTypes (types : List ValType) (code : Bytes) : FuncBody :=
  ⟨LocalRun.compress types, code⟩

def localCount (body : FuncBody) : Nat :=
  body.locals.foldr (fun run total ↦ run.count.toNat + total) 0

def encode (body : FuncBody) : Except ModuleError Bytes := do
  let locals ← encodeVector (fun run ↦ .ok (LocalRun.encode run)) body.locals
  lengthPrefixed (locals ++ body.code)

end FuncBody

end WasmBinary
