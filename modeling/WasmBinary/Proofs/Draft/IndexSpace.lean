import WasmBinary.Draft.Image
import WasmBinary.Proofs.Assembly.Run
import WasmBinary.Proofs.Counted
import WasmBinary.Proofs.Draft.Step

/-!
# Index spaces

An index space is read off the sections of a module: the imported entities of a kind, and then the
entries of the section of that kind.  The index that a draft gives out is the place of the entity in
the index space, and it stays so.
-/

namespace WasmBinary

/-- What an index denotes. -/
inductive Entity
  | imported (entry : Import)
  | function (typeIndex : UInt32) (body : FuncBody)
  | table (type : TableType)
  | memory (type : MemoryType)
  | global (global : Global)
  | element (segment : ElemSegment)
  | data (segment : DataSegment)
deriving DecidableEq

/-- What a draft gives out indices for. -/
inductive IndexSpace
  | entities (kind : ExternKind)
  | elements
  | data
deriving DecidableEq

theorem IndexSpace.forall_iff {P : IndexSpace → Prop} :
    (∀ space, P space) ↔ P (.entities .function) ∧ P (.entities .table) ∧ P (.entities .memory) ∧
      P (.entities .global) ∧ P .elements ∧ P .data := by
  constructor
  · intro h
    exact ⟨h _, h _, h _, h _, h _, h _⟩
  · rintro ⟨hfunction, htable, hmemory, hglobal, helements, hdata⟩ (kind | _ | _)
    · cases kind with
      | function => exact hfunction
      | table => exact htable
      | memory => exact hmemory
      | global => exact hglobal
    · exact helements
    · exact hdata

/-! ## Index spaces of sections -/

def importsOf (kind : ExternKind) (entries : List Import) : List Import :=
  entries.filter fun entry ↦ entry.desc.kind = kind

theorem importsOf_append_self (entries : List Import) (entry : Import) :
    importsOf entry.desc.kind (entries ++ [entry]) =
      importsOf entry.desc.kind entries ++ [entry] := by
  simp [importsOf]

theorem importsOf_append_ne {kind : ExternKind} {entry : Import} (h : kind ≠ entry.desc.kind)
    (entries : List Import) :
    importsOf kind (entries ++ [entry]) = importsOf kind entries := by
  simp [importsOf, Ne.symm h]

namespace Section

def imported : IndexSpace → Section → List Entity
  | .entities kind, .imports entries => (importsOf kind entries).map Entity.imported
  | _, _ => []

def bodies : Section → List FuncBody
  | .code entries => entries
  | _ => []

/-- The entities that a section defines.  A function is a type index with the body at the same
position in the code. -/
def defined (code : List FuncBody) : IndexSpace → Section → List Entity
  | .entities .function, .functions entries => List.zipWith Entity.function entries code
  | .entities .table, .tables entries => entries.map Entity.table
  | .entities .memory, .memories entries => entries.map Entity.memory
  | .entities .global, .globals entries => entries.map Entity.global
  | .elements, .elements entries => entries.map Entity.element
  | .data, .data entries => entries.map Entity.data
  | _, _ => []

theorem imported_custom (space : IndexSpace) (contents : CustomSection) :
    imported space (.custom contents) = [] := by
  cases space <;> rfl

theorem defined_custom (code : List FuncBody) (space : IndexSpace) (contents : CustomSection) :
    defined code space (.custom contents) = [] := by
  revert space
  rw [IndexSpace.forall_iff]
  exact ⟨rfl, rfl, rfl, rfl, rfl, rfl⟩

end Section

/-- What the indices denote in a module with these sections, from index 0 on. -/
def IndexSpace.denoted (space : IndexSpace) (sections : List Section) : List Entity :=
  sections.flatMap (Section.imported space) ++
    sections.flatMap (Section.defined (sections.flatMap Section.bodies) space)

namespace Draft

/-! ## Index spaces of drafts -/

def importedEntities (draft : Draft) : IndexSpace → List Entity
  | .entities kind => (importsOf kind draft.imports).map Entity.imported
  | _ => []

def definedEntities (draft : Draft) : IndexSpace → List Entity
  | .entities .function => List.zipWith Entity.function draft.functions draft.code
  | .entities .table => draft.tables.map Entity.table
  | .entities .memory => draft.memories.map Entity.memory
  | .entities .global => draft.globals.map Entity.global
  | .elements => draft.elements.map Entity.element
  | .data => draft.data.map Entity.data

def denoted (draft : Draft) (space : IndexSpace) : List Entity :=
  draft.importedEntities space ++ draft.definedEntities space

/-- Custom sections do not count where none of them counts. -/
theorem flatMap_sections {α : Type} {f : Section → List α} (draft : Draft)
    (hcustom : ∀ contents, f (.custom contents) = []) :
    draft.sections.flatMap f = draft.standardSections.flatMap f := by
  rw [sections, List.flatMap_append, List.flatMap_map]
  simp [hcustom, List.flatMap_eq_nil_iff]

theorem denoted_sections (draft : Draft) (space : IndexSpace) :
    space.denoted draft.sections = draft.denoted space := by
  have hbodies : draft.sections.flatMap Section.bodies = draft.code := by
    rw [flatMap_sections draft fun _ ↦ rfl]
    simp [standardSections, Section.bodies]
  rw [IndexSpace.denoted, hbodies, denoted]
  congr 1
  · rw [flatMap_sections draft (Section.imported_custom space)]
    cases space <;> simp [standardSections, Section.imported, importedEntities]
  · rw [flatMap_sections draft (Section.defined_custom draft.code space)]
    revert space
    rw [IndexSpace.forall_iff]
    simp [standardSections, Section.defined, definedEntities]

/-! ## One call -/

/-- The counters of imports count them, and the bodies are as many as the functions. -/
structure Tallied (draft : Draft) : Prop where
  imported : ∀ kind,
    draft.imported.count kind = UInt32.ofNat (importsOf kind draft.imports).length
  bodies : draft.functions.length = draft.code.length

theorem tallied_empty : Tallied {} where
  imported kind := by cases kind <;> rfl
  bodies := rfl

theorem Tallied.length_defined {draft : Draft} (h : draft.Tallied) (kind : ExternKind) :
    (draft.definedEntities (.entities kind)).length = draft.definedCount kind := by
  cases kind with
  | function => simp [definedEntities, definedCount, h.bodies]
  | table => exact List.length_map _
  | memory => exact List.length_map _
  | global => exact List.length_map _

/-- The next index is the size of the index space. -/
theorem Tallied.indexCount_eq {draft : Draft} (h : draft.Tallied) (kind : ExternKind) :
    draft.indexCount kind = UInt32.ofNat (draft.denoted (.entities kind)).length := by
  rw [indexCount, h.imported, ← h.length_defined, denoted, List.length_append, UInt32.ofNat_add,
    importedEntities, List.length_map]

/-- An entity is put at the end of an index space, and the other index spaces stay as they are. -/
structure Puts (draft next : Draft) (space : IndexSpace) (entity : Entity) : Prop where
  tallied : next.Tallied
  denoted_eq : next.denoted space = draft.denoted space ++ [entity]
  denoted_ne : ∀ other, other ≠ space → next.denoted other = draft.denoted other

theorem Puts.of_defined {draft next : Draft} {space : IndexSpace} {entity : Entity}
    (htallied : next.Tallied) (himports : next.imports = draft.imports)
    (hdefined : ∀ other, next.definedEntities other =
      draft.definedEntities other ++ if other = space then [entity] else []) :
    Puts draft next space entity := by
  have himported : next.importedEntities = draft.importedEntities := by
    funext other
    cases other <;> simp [importedEntities, himports]
  refine ⟨htallied, ?_, ?_⟩
  · rw [denoted, denoted, himported, hdefined, if_pos rfl, List.append_assoc]
  · intro other hne
    rw [denoted, denoted, himported, hdefined, if_neg hne, List.append_nil]

/-! ### Types and whatever else has no index space -/

/-- Only what belongs to no index space may change. -/
def Keeps (draft next : Draft) : Prop :=
  ∃ types exports start customs countsData,
    next = { draft with types, exports, start, customs, countsData }

theorem Keeps.refl (draft : Draft) : Keeps draft draft :=
  ⟨_, _, _, _, _, rfl⟩

theorem Keeps.tallied {draft next : Draft} (h : Keeps draft next) (htallied : draft.Tallied) :
    next.Tallied := by
  obtain ⟨types, exports, start, customs, countsData, rfl⟩ := h
  exact ⟨htallied.imported, htallied.bodies⟩

theorem Keeps.denoted_eq {draft next : Draft} (h : Keeps draft next) (space : IndexSpace) :
    next.denoted space = draft.denoted space := by
  obtain ⟨types, exports, start, customs, countsData, rfl⟩ := h
  revert space
  rw [IndexSpace.forall_iff]
  exact ⟨rfl, rfl, rfl, rfl, rfl, rfl⟩

theorem Keeps.puts {draft between next : Draft} {space : IndexSpace} {entity : Entity}
    (hkeeps : Keeps draft between) (h : Puts between next space entity) :
    Puts draft next space entity := by
  refine ⟨h.tallied, ?_, ?_⟩
  · rw [h.denoted_eq, hkeeps.denoted_eq]
  · intro other hne
    rw [h.denoted_ne other hne, hkeeps.denoted_eq]

/-! ### Imports -/

theorem importObjection?_eq_none_iff {draft : Draft} {kind : ExternKind} :
    draft.importObjection? kind = none ↔ draft.definedCount kind = 0 := by
  rw [importObjection?]
  cases draft.definedCount kind <;> simp

theorem Tallied.definedEntities_eq_nil {draft : Draft} {kind : ExternKind} (h : draft.Tallied)
    (hnone : draft.importObjection? kind = none) : draft.definedEntities (.entities kind) = [] := by
  rw [← List.length_eq_zero_iff, h.length_defined]
  exact importObjection?_eq_none_iff.1 hnone

/-- An entity that can be imported has the index of the next import. -/
theorem Tallied.count_imported {draft : Draft} {kind : ExternKind} (h : draft.Tallied)
    (hnone : draft.importObjection? kind = none) :
    draft.imported.count kind = UInt32.ofNat (draft.denoted (.entities kind)).length := by
  rw [h.imported, denoted, h.definedEntities_eq_nil hnone, List.append_nil, importedEntities,
    List.length_map]

theorem puts_addImport {draft : Draft} {entry : Import} (h : draft.Tallied)
    (hnone : draft.importObjection? entry.desc.kind = none) :
    Puts draft (draft.addImport entry).1 (.entities entry.desc.kind) (.imported entry) := by
  have hnil := h.definedEntities_eq_nil hnone
  refine ⟨⟨?_, h.bodies⟩, ?_, ?_⟩
  · intro kind
    by_cases hkind : kind = entry.desc.kind
    · rw [hkind, addImport, ImportTally.count_bump_self, importsOf_append_self, h.imported,
        List.length_append, UInt32.ofNat_add]
      rfl
    · rw [addImport, ImportTally.count_bump_ne _ hkind, importsOf_append_ne hkind, h.imported]
  · change (importsOf entry.desc.kind (draft.imports ++ [entry])).map Entity.imported ++
      draft.definedEntities (.entities entry.desc.kind) = _
    rw [denoted, hnil, importsOf_append_self, List.map_append, List.append_nil, List.append_nil]
    rfl
  · intro other hne
    cases other with
    | entities kind =>
      have hkind : kind ≠ entry.desc.kind := fun heq ↦ hne (congrArg IndexSpace.entities heq)
      change (importsOf kind (draft.imports ++ [entry])).map Entity.imported ++
        draft.definedEntities (.entities kind) = _
      rw [importsOf_append_ne hkind]
      rfl
    | elements => rfl
    | data => rfl

/-! ### Definitions -/

theorem puts_addFunction {draft : Draft} (h : draft.Tallied) (signature : FuncType)
    (body : FuncBody) :
    Puts draft (draft.advance (.addFunction signature body)) (.entities .function)
      (.function (draft.internType signature).2 body) := by
  rw [internType_eq]
  refine Puts.of_defined ⟨h.imported, ?_⟩ rfl ?_
  · simp [advance, h.bodies]
  · rw [IndexSpace.forall_iff]
    simp [advance, definedEntities, List.zipWith_append h.bodies]

theorem puts_addTable {draft : Draft} (h : draft.Tallied) (table : TableType) :
    Puts draft (draft.addTable table).1 (.entities .table) (.table table) := by
  refine Puts.of_defined ⟨h.imported, h.bodies⟩ rfl ?_
  rw [IndexSpace.forall_iff]
  simp [addTable, definedEntities]

theorem puts_addMemory {draft : Draft} (h : draft.Tallied) (memory : MemoryType) :
    Puts draft (draft.addMemory memory).1 (.entities .memory) (.memory memory) := by
  refine Puts.of_defined ⟨h.imported, h.bodies⟩ rfl ?_
  rw [IndexSpace.forall_iff]
  simp [addMemory, definedEntities]

theorem puts_addGlobal {draft : Draft} (h : draft.Tallied) (global : Global) :
    Puts draft (draft.addGlobal global).1 (.entities .global) (.global global) := by
  refine Puts.of_defined ⟨h.imported, h.bodies⟩ rfl ?_
  rw [IndexSpace.forall_iff]
  simp [addGlobal, definedEntities]

theorem puts_addElement {draft : Draft} (h : draft.Tallied) (segment : ElemSegment) :
    Puts draft (draft.addElement segment).1 .elements (.element segment) := by
  refine Puts.of_defined ⟨h.imported, h.bodies⟩ rfl ?_
  rw [IndexSpace.forall_iff]
  simp [addElement, definedEntities]

theorem puts_addData {draft : Draft} (h : draft.Tallied) (segment : DataSegment) :
    Puts draft (draft.addData segment).1 .data (.data segment) := by
  refine Puts.of_defined ⟨h.imported, h.bodies⟩ rfl ?_
  rw [IndexSpace.forall_iff]
  simp [addData, definedEntities]

end Draft

end WasmBinary
