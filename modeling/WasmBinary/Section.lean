import WasmBinary.Entry.Body
import WasmBinary.Entry.Data
import WasmBinary.Entry.Element
import WasmBinary.Entry.Export
import WasmBinary.Entry.Global
import WasmBinary.Entry.Import
import WasmBinary.Type.Function

/-!
# Sections

A section is of one of thirteen kinds and holds what its kind is for: a list of entries, an index
that may be missing, or, in a custom section, a name and any bytes.  Its payload is what a module
holds of it behind the kind and the length.  A section that declares nothing has no payload; a
custom section always has one.
-/

namespace WasmBinary

/-- A section whose meaning is up to its name. -/
structure CustomSection where
  name : String
  payload : Bytes
deriving DecidableEq

def CustomSection.render (contents : CustomSection) : Except ModuleError Bytes := do
  let name ← encodeName contents.name
  return name ++ contents.payload

/-- A section and its contents.  The Boolean `==` compares float constants as numbers. -/
inductive Section
  | types (entries : List FuncType)
  | imports (entries : List Import)
  /-- The index of the signature of each function that the module defines. -/
  | functions (entries : List UInt32)
  | tables (entries : List TableType)
  | memories (entries : List MemoryType)
  | globals (entries : List Global)
  | exports (entries : List Export)
  | start (function : Option UInt32)
  | elements (entries : List ElemSegment)
  /-- The number of data segments, ahead of the code that refers to them. -/
  | dataCount (count : Option UInt32)
  | code (entries : List FuncBody)
  | data (entries : List DataSegment)
  | custom (contents : CustomSection)
deriving DecidableEq, BEq

namespace Section

def kind : Section → SectionKind
  | .types _ => .types
  | .imports _ => .imports
  | .functions _ => .functions
  | .tables _ => .tables
  | .memories _ => .memories
  | .globals _ => .globals
  | .exports _ => .exports
  | .start _ => .start
  | .elements _ => .elements
  | .dataCount _ => .dataCount
  | .code _ => .code
  | .data _ => .data
  | .custom _ => .custom

def entryCount? : Section → Option Nat
  | .types entries => some entries.length
  | .imports entries => some entries.length
  | .functions entries => some entries.length
  | .tables entries => some entries.length
  | .memories entries => some entries.length
  | .globals entries => some entries.length
  | .exports entries => some entries.length
  | .elements entries => some entries.length
  | .code entries => some entries.length
  | .data entries => some entries.length
  | .start _ | .dataCount _ | .custom _ => none

def isEmpty : Section → Bool
  | .types entries => entries.isEmpty
  | .imports entries => entries.isEmpty
  | .functions entries => entries.isEmpty
  | .tables entries => entries.isEmpty
  | .memories entries => entries.isEmpty
  | .globals entries => entries.isEmpty
  | .exports entries => entries.isEmpty
  | .start function => function.isNone
  | .elements entries => entries.isEmpty
  | .dataCount count => count.isNone
  | .code entries => entries.isEmpty
  | .data entries => entries.isEmpty
  | .custom _ => false

def encodeOptional : Option UInt32 → Bytes
  | none => []
  | some index => encodeIndex index

def render : Section → Except ModuleError Bytes
  | .types entries => encodeEntries FuncType.encode entries
  | .imports entries => encodeEntries Import.encode entries
  | .functions entries => encodeEntries (fun index ↦ .ok (encodeIndex index)) entries
  | .tables entries => encodeEntries (fun table ↦ .ok table.encode) entries
  | .memories entries => encodeEntries (fun limits ↦ .ok limits.encode) entries
  | .globals entries => encodeEntries (fun global ↦ .ok global.encode) entries
  | .exports entries => encodeEntries Export.encode entries
  | .start function => .ok (encodeOptional function)
  | .elements entries => encodeEntries ElemSegment.encode entries
  | .dataCount count => .ok (encodeOptional count)
  | .code entries => encodeEntries FuncBody.encode entries
  | .data entries => encodeEntries DataSegment.encode entries
  | .custom contents => contents.render

@[simp] theorem isCustom_kind (contents : CustomSection) :
    (Section.custom contents).kind.isCustom = true := rfl

end Section

/-! ## Indices of entries -/

def nextIndex {α : Type} (entries : List α) : UInt32 :=
  UInt32.ofNat entries.length

/-- The index of the first signature that is equal to the given one. -/
def typeIndex? (types : List FuncType) (signature : FuncType) : Option UInt32 :=
  (types.idxOf? signature).map UInt32.ofNat

end WasmBinary
