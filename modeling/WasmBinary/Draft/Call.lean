import WasmBinary.Draft.Basic

/-!
# Calls on a draft

Every way to change a draft, as data, so that one can speak of runs of calls.  A call that is
refused leaves the draft as it was.
-/

namespace WasmBinary.Draft

inductive Call
  | internType (signature : FuncType)
  | importFunction (source name : String) (signature : FuncType)
  | importTable (source name : String) (type : TableType)
  | importMemory (source name : String) (type : MemoryType)
  | importGlobal (source name : String) (type : GlobalType)
  | addFunction (signature : FuncType) (body : FuncBody)
  | addTable (table : TableType)
  | addMemory (memory : MemoryType)
  | addGlobal (global : Global)
  | addElement (segment : ElemSegment)
  | addData (segment : DataSegment)
  | addCustom (contents : CustomSection)
  | exportEntity (entry : Export)
  | exportFunction (name : String) (index : UInt32)
  | setStart (function : UInt32)
  | requireDataCount
deriving DecidableEq

/-- What a call answers: the index it gives out, if it gives one, or why it is refused. -/
abbrev Answer := Except ModuleError (Option UInt32)

/-- The draft after a call that gives out an index, and the answer. -/
def settle (draft : Draft) : Except ModuleError (Draft × UInt32) → Draft × Answer
  | .ok (next, index) => (next, .ok (some index))
  | .error error => (draft, .error error)

/-- The draft after a call that gives out no index, and the answer. -/
def settleSilent (draft : Draft) : Except ModuleError Draft → Draft × Answer
  | .ok next => (next, .ok none)
  | .error error => (draft, .error error)

def apply (draft : Draft) : Call → Draft × Answer
  | .internType signature => draft.settle (.ok (draft.internType signature))
  | .importFunction source name signature =>
    draft.settle (draft.importFunction source name signature)
  | .importTable source name type => draft.settle (draft.importTable source name type)
  | .importMemory source name type => draft.settle (draft.importMemory source name type)
  | .importGlobal source name type => draft.settle (draft.importGlobal source name type)
  | .addFunction signature body => draft.settle (.ok (draft.addFunction signature body))
  | .addTable table => draft.settle (.ok (draft.addTable table))
  | .addMemory memory => draft.settle (.ok (draft.addMemory memory))
  | .addGlobal global => draft.settle (.ok (draft.addGlobal global))
  | .addElement segment => draft.settle (.ok (draft.addElement segment))
  | .addData segment => draft.settle (.ok (draft.addData segment))
  | .addCustom contents => draft.settleSilent (.ok (draft.addCustom contents))
  | .exportEntity entry => draft.settleSilent (draft.exportEntity entry)
  | .exportFunction name index => draft.settleSilent (draft.exportFunction name index)
  | .setStart function => draft.settleSilent (.ok (draft.setStart function))
  | .requireDataCount => draft.settleSilent (.ok draft.requireDataCount)

def applyLog (draft : Draft) : Call → List Event
  | .internType signature => draft.internTypeLog signature
  | .importFunction _ _ signature =>
    match draft.importObjection? .function with
    | some _ => []
    | none => draft.internTypeLog signature
  | .addFunction signature _ => draft.addFunctionLog signature
  | _ => []

def run (draft : Draft) : List Call → Draft × List Answer
  | [] => (draft, [])
  | call :: calls =>
    let (next, answer) := draft.apply call
    let (last, answers) := next.run calls
    (last, answer :: answers)

end WasmBinary.Draft
