import WasmBinary.ConstExpr
import WasmBinary.Counted

/-!
# Data segments

A data segment holds bytes for memories.  It is written in one of three forms; an active segment
takes the one without a memory index wherever it is for memory 0.
-/

namespace WasmBinary

/-- When a segment's bytes reach a memory. -/
inductive DataMode
  /-- On instantiation, into a memory from an offset on. -/
  | active (memory : UInt32) (offset : ConstExpr)
  /-- When an instruction asks for it. -/
  | passive
deriving DecidableEq, BEq

namespace DataMode

/-- The form of an active segment for memory 0. -/
def activeForm : UInt32 := 0

def passiveForm : UInt32 := 1

/-- The form of an active segment that names its memory. -/
def explicitForm : UInt32 := 2

def encode : DataMode → Bytes
  | .active memory offset =>
    (if memory = 0 then encodeIndex activeForm
      else encodeIndex explicitForm ++ encodeIndex memory) ++ offset.encode
  | .passive => encodeIndex passiveForm

end DataMode

structure DataSegment where
  mode : DataMode
  init : Bytes
deriving DecidableEq, BEq

def DataSegment.encode (segment : DataSegment) : Except ModuleError Bytes := do
  let init ← lengthPrefixed segment.init
  return segment.mode.encode ++ init

end WasmBinary
