import WasmBinary.Event
import WasmBinary.Section

/-!
# Sections put together

An assembly takes sections one after another.  No standard kind may occur twice.  In strict order
the standard sections have to come in the order of their ranks; in canonical order they may come in
any order and are sorted when they are written.  Custom sections may come anywhere, any number of
times.
-/

namespace WasmBinary

inductive SectionOrder
  /-- They are written by rank, each with the custom sections that came right behind it. -/
  | canonical
  /-- They have to come by rank, and all sections are written as they came. -/
  | strict
deriving DecidableEq

structure Assembly where
  order : SectionOrder := .canonical
  sections : List Section := []
deriving DecidableEq

def SectionKind.precedes (kind other : SectionKind) : Bool :=
  match kind.rank?, other.rank? with
  | some rank, some rank' => rank < rank'
  | _, _ => false

namespace Assembly

def size (assembly : Assembly) : Nat :=
  assembly.sections.length

def isEmpty (assembly : Assembly) : Bool :=
  assembly.sections.isEmpty

def holds (assembly : Assembly) (kind : SectionKind) : Bool :=
  assembly.sections.any fun contents ↦ contents.kind = kind

def lastStandard? (assembly : Assembly) : Option SectionKind :=
  (assembly.sections.reverse.map Section.kind).find? fun kind ↦ !kind.isCustom

/-- Why a section of a kind cannot come now. -/
def objection? (assembly : Assembly) (kind : SectionKind) : Option ModuleError :=
  if kind.isCustom then none
  else if assembly.holds kind then some (.duplicateSection kind)
  else
    match assembly.order, assembly.lastStandard? with
    | .strict, some previous =>
      if kind.precedes previous then some (.invalidSectionOrder previous kind) else none
    | _, _ => none

/-- Take one more section.  A section that cannot come leaves the assembly as it was. -/
def add (assembly : Assembly) (contents : Section) : Except ModuleError Assembly :=
  match assembly.objection? contents.kind with
  | some error => .error error
  | none => .ok { assembly with sections := assembly.sections ++ [contents] }

def addLog (assembly : Assembly) (contents : Section) : List Event :=
  match assembly.objection? contents.kind with
  | some _ => []
  | none => [.sectionAdded contents.kind]

/-- Take sections up to the first that cannot come. -/
def addAll (assembly : Assembly) (contents : List Section) : Except ModuleError Assembly :=
  contents.foldlM add assembly

def addAllLog (assembly : Assembly) : List Section → List Event
  | [] => []
  | first :: rest =>
    assembly.addLog first ++
      match assembly.add first with
      | .ok next => next.addAllLog rest
      | .error _ => []

def clear (assembly : Assembly) : Assembly :=
  { assembly with sections := [] }

/-! ## The order of writing -/

/-- Give each section its slot.  A standard section has the slot of its rank; a custom section has
the one behind the standard section before it, whose rank is `anchor`. -/
def slots : Nat → List Section → List (Nat × Section)
  | _, [] => []
  | anchor, first :: rest =>
    match first.kind.rank? with
    | some rank => (2 * rank, first) :: slots rank rest
    | none => (2 * anchor + 1, first) :: slots anchor rest

/-- The sections in the order in which they are written.  Sections in the same slot stay in the
order in which they came. -/
def ordered (assembly : Assembly) : List Section :=
  match assembly.order with
  | .canonical =>
    ((slots 0 assembly.sections).mergeSort fun slot slot' ↦ slot.1 ≤ slot'.1).map Prod.snd
  | .strict => assembly.sections

end Assembly

end WasmBinary
