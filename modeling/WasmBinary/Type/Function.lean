import WasmBinary.Counted
import WasmBinary.Type.Value

/-!
# Types of functions

The signature of a function: what it takes and what it gives.  It is written as a tag and two
vectors of value types, and shown as `(i32, i64) -> (f64)`.
-/

namespace WasmBinary

structure FuncType where
  params : List ValType := []
  results : List ValType := []
deriving DecidableEq

namespace FuncType

def tag : UInt8 :=
  0x60

def encodeTypes : List ValType → Except ModuleError Bytes :=
  encodeVector fun type ↦ .ok [type.byte]

def encode (signature : FuncType) : Except ModuleError Bytes := do
  let params ← encodeTypes signature.params
  let results ← encodeTypes signature.results
  return tag :: params ++ results

def showTypes (types : List ValType) : String :=
  "(" ++ ", ".intercalate (types.map ValType.name) ++ ")"

def text (signature : FuncType) : String :=
  showTypes signature.params ++ " -> " ++ showTypes signature.results

end FuncType

end WasmBinary
