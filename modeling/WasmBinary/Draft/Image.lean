import WasmBinary.Draft.Call

/-!
# From drafts to modules

A draft is handed over as all its sections: the twelve standard ones by rank, the empty ones among
them, and then the custom sections in the order in which they came.
-/

namespace WasmBinary.Draft

def dataCount? (draft : Draft) : Option UInt32 :=
  if draft.countsData then some (nextIndex draft.data) else none

def standardSections (draft : Draft) : List Section :=
  [ .types draft.types,
    .imports draft.imports,
    .functions draft.functions,
    .tables draft.tables,
    .memories draft.memories,
    .globals draft.globals,
    .exports draft.exports,
    .start draft.start,
    .elements draft.elements,
    .dataCount draft.dataCount?,
    .code draft.code,
    .data draft.data ]

def sections (draft : Draft) : List Section :=
  draft.standardSections ++ draft.customs.map Section.custom

def assembly (draft : Draft) (order : SectionOrder := .canonical) : Except ModuleError Assembly :=
  Assembly.addAll { order } draft.sections

def assemblyLog (draft : Draft) (order : SectionOrder := .canonical) : List Event :=
  Assembly.addAllLog { order } draft.sections

def image (draft : Draft) : Except ModuleError Bytes := do
  let assembly ← draft.assembly
  assembly.image

def imageLog (draft : Draft) : List Event :=
  draft.assemblyLog ++
    match draft.assembly with
    | .ok assembly => assembly.imageLog
    | .error _ => []

end WasmBinary.Draft
