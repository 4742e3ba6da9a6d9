import WasmBinary.Assembly.Image

/-!
# Drafts of modules

A draft is a module under construction, seen as its entities and not as its sections.  Each of the
four kinds of entity has an index space: imported entities have the low indices, and those that the
module defines follow.  So that an index never changes once it is given, an entity cannot be
imported after one of its kind has been defined.  A function type has one index, however often it
is used.
-/

namespace WasmBinary

structure ImportTally where
  functions : UInt32 := 0
  tables : UInt32 := 0
  memories : UInt32 := 0
  globals : UInt32 := 0
deriving DecidableEq

namespace ImportTally

def count (tally : ImportTally) : ExternKind → UInt32
  | .function => tally.functions
  | .table => tally.tables
  | .memory => tally.memories
  | .global => tally.globals

def bump (tally : ImportTally) : ExternKind → ImportTally
  | .function => { tally with functions := tally.functions + 1 }
  | .table => { tally with tables := tally.tables + 1 }
  | .memory => { tally with memories := tally.memories + 1 }
  | .global => { tally with globals := tally.globals + 1 }

theorem count_bump_self (tally : ImportTally) (kind : ExternKind) :
    (tally.bump kind).count kind = tally.count kind + 1 := by
  cases kind <;> rfl

theorem count_bump_ne (tally : ImportTally) {kind other : ExternKind} (h : other ≠ kind) :
    (tally.bump kind).count other = tally.count other := by
  cases kind <;> cases other <;> first | rfl | exact absurd rfl h

end ImportTally

structure Draft where
  /-- The signatures in use, each once. -/
  types : List FuncType := []
  imports : List Import := []
  /-- The index of the signature of each function that the module defines. -/
  functions : List UInt32 := []
  tables : List TableType := []
  memories : List MemoryType := []
  globals : List Global := []
  exports : List Export := []
  start : Option UInt32 := none
  elements : List ElemSegment := []
  code : List FuncBody := []
  data : List DataSegment := []
  customs : List CustomSection := []
  /-- Whether the number of data segments is to be declared ahead of the code. -/
  countsData : Bool := false
  imported : ImportTally := {}
deriving DecidableEq

namespace Draft

/-! ## Index spaces -/

def definedCount (draft : Draft) : ExternKind → Nat
  | .function => draft.functions.length
  | .table => draft.tables.length
  | .memory => draft.memories.length
  | .global => draft.globals.length

/-- The size of an index space, which is also the index of the next entity in it. -/
def indexCount (draft : Draft) (kind : ExternKind) : UInt32 :=
  draft.imported.count kind + UInt32.ofNat (draft.definedCount kind)

def typeCount (draft : Draft) : UInt32 :=
  nextIndex draft.types

/-! ## Types -/

/-- The index of a signature, which is added if it is new. -/
def internType (draft : Draft) (signature : FuncType) : Draft × UInt32 :=
  match typeIndex? draft.types signature with
  | some index => (draft, index)
  | none => ({ draft with types := draft.types ++ [signature] }, draft.typeCount)

def internTypeLog (draft : Draft) (signature : FuncType) : List Event :=
  match typeIndex? draft.types signature with
  | some _ => []
  | none => [.typeAssigned signature draft.types.length]

/-! ## Imports -/

def importObjection? (draft : Draft) (kind : ExternKind) : Option ModuleError :=
  match draft.definedCount kind with
  | 0 => none
  | defined => some (.invalidState (.importAfterDefinition kind defined))

def addImport (draft : Draft) (entry : Import) : Draft × UInt32 :=
  let imported := draft.imported.bump entry.desc.kind
  ({ draft with imports := draft.imports ++ [entry], imported },
    imported.count entry.desc.kind - 1)

def importEntity (draft : Draft) (entry : Import) : Except ModuleError (Draft × UInt32) :=
  match draft.importObjection? entry.desc.kind with
  | some error => .error error
  | none => .ok (draft.addImport entry)

/-- Import a function by its signature, which is added only if the import is possible. -/
def importFunction (draft : Draft) (source name : String) (signature : FuncType) :
    Except ModuleError (Draft × UInt32) :=
  match draft.importObjection? .function with
  | some error => .error error
  | none =>
    let (next, typeIndex) := draft.internType signature
    .ok (next.addImport ⟨source, name, .function typeIndex⟩)

def importTable (draft : Draft) (source name : String) (type : TableType) :
    Except ModuleError (Draft × UInt32) :=
  draft.importEntity ⟨source, name, .table type⟩

def importMemory (draft : Draft) (source name : String) (type : MemoryType) :
    Except ModuleError (Draft × UInt32) :=
  draft.importEntity ⟨source, name, .memory type⟩

def importGlobal (draft : Draft) (source name : String) (type : GlobalType) :
    Except ModuleError (Draft × UInt32) :=
  draft.importEntity ⟨source, name, .global type⟩

/-! ## Definitions -/

def addFunction (draft : Draft) (signature : FuncType) (body : FuncBody) : Draft × UInt32 :=
  let (next, typeIndex) := draft.internType signature
  ({ next with functions := next.functions ++ [typeIndex], code := next.code ++ [body] },
    next.indexCount .function)

def addFunctionLog (draft : Draft) (signature : FuncType) : List Event :=
  draft.internTypeLog signature ++
    [.functionDefined (draft.indexCount .function) (draft.internType signature).2]

def addTable (draft : Draft) (table : TableType) : Draft × UInt32 :=
  ({ draft with tables := draft.tables ++ [table] }, draft.indexCount .table)

def addMemory (draft : Draft) (memory : MemoryType) : Draft × UInt32 :=
  ({ draft with memories := draft.memories ++ [memory] }, draft.indexCount .memory)

def addGlobal (draft : Draft) (global : Global) : Draft × UInt32 :=
  ({ draft with globals := draft.globals ++ [global] }, draft.indexCount .global)

def addElement (draft : Draft) (segment : ElemSegment) : Draft × UInt32 :=
  ({ draft with elements := draft.elements ++ [segment] }, nextIndex draft.elements)

def addData (draft : Draft) (segment : DataSegment) : Draft × UInt32 :=
  ({ draft with data := draft.data ++ [segment] }, nextIndex draft.data)

def addCustom (draft : Draft) (contents : CustomSection) : Draft :=
  { draft with customs := draft.customs ++ [contents] }

/-! ## Exports and the rest -/

def exportEntity (draft : Draft) (entry : Export) : Except ModuleError Draft :=
  if Export.taken draft.exports entry.name then
    .error (.invalidState (.duplicateExport entry.name))
  else
    .ok { draft with exports := draft.exports ++ [entry] }

def exportFunction (draft : Draft) (name : String) (index : UInt32) : Except ModuleError Draft :=
  draft.exportEntity ⟨name, .function, index⟩

/-- Name the function to run first; a later call wins. -/
def setStart (draft : Draft) (function : UInt32) : Draft :=
  { draft with start := some function }

def requireDataCount (draft : Draft) : Draft :=
  { draft with countsData := true }

end Draft

end WasmBinary
