import WasmBinary.ConstExpr
import WasmBinary.Type.External

/-!
# Globals

A global that the module defines has a type and an initial value.
-/

namespace WasmBinary

structure Global where
  type : GlobalType
  init : ConstExpr
deriving DecidableEq, BEq

def Global.encode (entry : Global) : Bytes :=
  entry.type.encode ++ entry.init.encode

end WasmBinary
