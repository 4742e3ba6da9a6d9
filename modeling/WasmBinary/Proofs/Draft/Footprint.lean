import Mathlib.Data.Fin.VecNotation
import WasmBinary.Proofs.Draft.HandOver
import WasmBinary.Proofs.Rearrangement

/-!
# Calls that do not get into each other's way

A call reads and writes some components of a draft, its footprint.  It leaves the others alone, and
they do not tell what it does.  So calls whose footprints have nothing in common can be made in any
order.
-/

namespace WasmBinary.Draft

/-! ## Components -/

/-- A part of a draft.  The number of imported entities of a kind belongs to the entities of that
kind, and not to the imports. -/
inductive Component
  | types
  | imports
  | entities (kind : ExternKind)
  | exports
  | start
  | elements
  | code
  | data
  | customs
  | dataCount
deriving DecidableEq

/-- Two drafts are the same in a component. -/
def SameIn (draft other : Draft) : Component → Prop
  | .types => draft.types = other.types
  | .imports => draft.imports = other.imports
  | .entities .function =>
    draft.functions = other.functions ∧ draft.imported.functions = other.imported.functions
  | .entities .table =>
    draft.tables = other.tables ∧ draft.imported.tables = other.imported.tables
  | .entities .memory =>
    draft.memories = other.memories ∧ draft.imported.memories = other.imported.memories
  | .entities .global =>
    draft.globals = other.globals ∧ draft.imported.globals = other.imported.globals
  | .exports => draft.exports = other.exports
  | .start => draft.start = other.start
  | .elements => draft.elements = other.elements
  | .code => draft.code = other.code
  | .data => draft.data = other.data
  | .customs => draft.customs = other.customs
  | .dataCount => draft.countsData = other.countsData

namespace SameIn

variable {draft other third : Draft} {component : Component}

theorem refl (draft : Draft) (component : Component) : draft.SameIn draft component := by
  cases component with
  | entities kind => cases kind <;> exact ⟨rfl, rfl⟩
  | _ => rfl

theorem symm (h : draft.SameIn other component) : other.SameIn draft component := by
  cases component with
  | entities kind => cases kind <;> exact ⟨h.1.symm, h.2.symm⟩
  | _ => exact Eq.symm h

theorem trans (h : draft.SameIn other component) (h' : other.SameIn third component) :
    draft.SameIn third component := by
  cases component with
  | entities kind => cases kind <;> exact ⟨h.1.trans h'.1, h.2.trans h'.2⟩
  | _ => exact Eq.trans h h'

theorem definedCount_eq {kind : ExternKind} (h : draft.SameIn other (.entities kind)) :
    draft.definedCount kind = other.definedCount kind := by
  cases kind <;> exact congrArg List.length h.1

theorem count_imported_eq {kind : ExternKind} (h : draft.SameIn other (.entities kind)) :
    draft.imported.count kind = other.imported.count kind := by
  cases kind <;> exact h.2

theorem indexCount_eq {kind : ExternKind} (h : draft.SameIn other (.entities kind)) :
    draft.indexCount kind = other.indexCount kind := by
  rw [indexCount, indexCount, h.count_imported_eq, h.definedCount_eq]

end SameIn

theorem ext_sameIn {draft other : Draft} (h : ∀ component, draft.SameIn other component) :
    draft = other := by
  obtain ⟨hfunctions, hfunctions'⟩ := h (.entities .function)
  obtain ⟨htables, htables'⟩ := h (.entities .table)
  obtain ⟨hmemories, hmemories'⟩ := h (.entities .memory)
  obtain ⟨hglobals, hglobals'⟩ := h (.entities .global)
  rw [Draft.mk.injEq, ImportTally.mk.injEq]
  exact ⟨h .types, h .imports, hfunctions, htables, hmemories, hglobals, h .exports, h .start,
    h .elements, h .code, h .data, h .customs, h .dataCount, hfunctions', htables', hmemories',
    hglobals'⟩

/-! ## Footprints -/

/-- The components that a call reads or writes. -/
def Call.footprint : Call → List Component
  | .internType _ => [.types]
  | .importFunction _ _ _ => [.types, .imports, .entities .function]
  | .importTable _ _ _ => [.imports, .entities .table]
  | .importMemory _ _ _ => [.imports, .entities .memory]
  | .importGlobal _ _ _ => [.imports, .entities .global]
  | .addFunction _ _ => [.types, .entities .function, .code]
  | .addTable _ => [.entities .table]
  | .addMemory _ => [.entities .memory]
  | .addGlobal _ => [.entities .global]
  | .addElement _ => [.elements]
  | .addData _ => [.data]
  | .addCustom _ => [.customs]
  | .exportEntity _ => [.exports]
  | .exportFunction _ _ => [.exports]
  | .setStart _ => [.start]
  | .requireDataCount => [.dataCount]

def Call.Overlap (call other : Call) : Prop :=
  ∃ component ∈ call.footprint, component ∈ other.footprint

instance (call other : Call) : Decidable (call.Overlap other) :=
  inferInstanceAs (Decidable (∃ component ∈ call.footprint, component ∈ other.footprint))

theorem Call.Overlap.symm {call other : Call} (h : call.Overlap other) : other.Overlap call := by
  obtain ⟨component, hcall, hother⟩ := h
  exact ⟨component, hother, hcall⟩

/-- Two drafts are the same in all that a call reads or writes. -/
def SameFor (call : Call) (draft other : Draft) : Prop :=
  ∀ component ∈ call.footprint, draft.SameIn other component

theorem mem_footprint_of_imported? {call : Call} {kind : ExternKind}
    (h : call.imported? = some kind) : .entities kind ∈ call.footprint := by
  cases call <;> cases h <;> simp [Call.footprint]

theorem mem_footprint_of_defined? {call : Call} {kind : ExternKind}
    (h : call.defined? = some kind) : .entities kind ∈ call.footprint := by
  cases call <;> cases h <;> simp [Call.footprint]

theorem mem_footprint_of_exported? {call : Call} {name : String}
    (h : call.exported? = some name) : .exports ∈ call.footprint := by
  cases call <;> cases h <;> simp [Call.footprint]

/-! ## One call -/

theorem index?_of_imported? {draft : Draft} {call : Call} {kind : ExternKind}
    (h : call.imported? = some kind) : call.index? draft = some (draft.imported.count kind) := by
  cases call <;> cases h <;> rfl

theorem index?_of_defined? {draft : Draft} {call : Call} {kind : ExternKind}
    (h : call.defined? = some kind) : call.index? draft = some (draft.indexCount kind) := by
  cases call <;> cases h <;> rfl

theorem sameIn_advance {draft : Draft} {call : Call} {component : Component}
    (h : component ∉ call.footprint) : (draft.advance call).SameIn draft component := by
  -- The draft changes in nothing else, or `h` is absurd.
  cases component with
  | entities kind =>
    cases kind <;> cases call <;> first | exact ⟨rfl, rfl⟩ | simp [Call.footprint] at h
  | _ => cases call <;> first | rfl | simp [Call.footprint] at h

/-- A call leaves the components outside its footprint as they are. -/
theorem sameIn_apply {draft : Draft} {call : Call} {component : Component}
    (h : component ∉ call.footprint) : (draft.apply call).1.SameIn draft component := by
  rw [apply_eq]
  cases call.refusal? draft with
  | some error => exact .refl draft component
  | none => exact sameIn_advance h

namespace SameFor

variable {draft other : Draft} {call : Call}

theorem refusal?_eq (h : SameFor call draft other) :
    call.refusal? draft = call.refusal? other := by
  rw [Call.refusal?, Call.refusal?]
  cases himported : call.imported? with
  | some kind =>
    have hkind := h _ (mem_footprint_of_imported? himported)
    simp only [importObjection?, hkind.definedCount_eq]
  | none =>
    cases hexported : call.exported? with
    | some name =>
      have hexports : draft.exports = other.exports := h _ (mem_footprint_of_exported? hexported)
      simp only [hexports]
    | none => rfl

theorem index?_eq (h : SameFor call draft other) : call.index? draft = call.index? other := by
  have himported {kind : ExternKind} (hcall : call.imported? = some kind) :
      call.index? draft = call.index? other := by
    have hkind := h _ (mem_footprint_of_imported? hcall)
    rw [index?_of_imported? hcall, index?_of_imported? hcall, hkind.count_imported_eq]
  have hdefined {kind : ExternKind} (hcall : call.defined? = some kind) :
      call.index? draft = call.index? other := by
    have hkind := h _ (mem_footprint_of_defined? hcall)
    rw [index?_of_defined? hcall, index?_of_defined? hcall, hkind.indexCount_eq]
  cases call with
  | internType signature =>
    have htypes : draft.types = other.types := h .types List.mem_cons_self
    simp only [Call.index?, htypes]
  | importFunction _ _ _ | importTable _ _ _ | importMemory _ _ _ | importGlobal _ _ _ =>
    exact himported rfl
  | addFunction _ _ | addTable _ | addMemory _ | addGlobal _ => exact hdefined rfl
  | addElement segment =>
    have helements : draft.elements = other.elements := h .elements List.mem_cons_self
    simp only [Call.index?, helements]
  | addData segment =>
    have hdata : draft.data = other.data := h .data List.mem_cons_self
    simp only [Call.index?, hdata]
  | _ => rfl

theorem advance (h : SameFor call draft other) :
    SameFor call (draft.advance call) (other.advance call) := by
  -- Every component that a call changes is made of components of its footprint.
  cases call <;>
    simp only [SameFor, Call.footprint, List.forall_mem_cons, SameIn] at h ⊢ <;>
    simp [Draft.advance, addImport, ImportTally.bump, ImportDesc.kind, addTable, addMemory,
      addGlobal, addElement, addData, addCustom, setStart, requireDataCount, h]

theorem answer_eq (h : SameFor call draft other) :
    (draft.apply call).2 = (other.apply call).2 := by
  rw [apply_eq, apply_eq, h.refusal?_eq, h.index?_eq]
  cases call.refusal? other <;> rfl

theorem apply (h : SameFor call draft other) :
    SameFor call (draft.apply call).1 (other.apply call).1 := by
  rw [apply_eq, apply_eq, h.refusal?_eq]
  cases call.refusal? other with
  | some error => exact h
  | none => exact h.advance

theorem sameIn_apply {component : Component} (h : SameFor call draft other)
    (hcomponent : draft.SameIn other component) :
    (draft.apply call).1.SameIn (other.apply call).1 component := by
  -- Outside its footprint the call changes neither draft.
  by_cases hmem : component ∈ call.footprint
  · exact h.apply component hmem
  · exact ((Draft.sameIn_apply hmem).trans hcomponent).trans (Draft.sameIn_apply hmem).symm

end SameFor

/-! ## Two calls -/

section Apart

variable {call other : Call}

theorem sameFor_apply (h : ¬ call.Overlap other) (draft : Draft) :
    SameFor call (draft.apply other).1 draft := by
  intro component hcall
  refine sameIn_apply ?_
  intro hother
  exact h ⟨component, hcall, hother⟩

theorem sameIn_apply_comm {component : Component} (h : ¬ call.Overlap other)
    (hother : component ∉ other.footprint) (draft : Draft) :
    ((draft.apply call).1.apply other).1.SameIn ((draft.apply other).1.apply call).1 component :=
  (sameIn_apply hother).trans
    ((sameFor_apply h draft).sameIn_apply (sameIn_apply hother)).symm

theorem apply_comm (h : ¬ call.Overlap other) (draft : Draft) :
    ((draft.apply call).1.apply other).1 = ((draft.apply other).1.apply call).1 := by
  refine ext_sameIn ?_
  intro component
  -- One of the two calls does not touch the component.
  by_cases hother : component ∈ other.footprint
  · have hcall : component ∉ call.footprint := fun hcall ↦ h ⟨component, hcall, hother⟩
    exact (sameIn_apply_comm (fun hoverlap ↦ h hoverlap.symm) hcall draft).symm
  · exact sameIn_apply_comm h hother draft

/-- Calls whose footprints have nothing in common can be swapped, even if one is refused. -/
theorem swappable (h : ¬ call.Overlap other) : Swappable apply call other where
  state := apply_comm h
  first draft := (sameFor_apply h draft).answer_eq
  second draft := (sameFor_apply (fun hoverlap ↦ h hoverlap.symm) draft).answer_eq

end Apart

/-! ## Runs -/

/-- If the calls of a run come in another order, but those that overlap as they came, then each call
has the answer that it had, and the run ends in the same draft, which makes the same module. -/
theorem rearranged_run (draft : Draft) {calls others : List Call}
    (rearrangement : Rearrangement Call.Overlap calls others) :
    (∀ i : Fin calls.length, ∃ answer, (draft.run calls).2[i]? = some answer ∧
        (draft.run others).2[rearrangement.place i]? = some answer) ∧
      (draft.run others).1 = (draft.run calls).1 ∧
      (draft.run others).1.image = (draft.run calls).1.image := by
  obtain ⟨hdraft, hanswers⟩ :=
    runs.rearranged (fun _ _ ↦ Call.Overlap.symm) (fun _ _ ↦ swappable) rearrangement draft
  refine ⟨?_, hdraft, congrArg image hdraft⟩
  intro i
  obtain ⟨answer, hanswer⟩ := runs.exists_answer draft i
  exact ⟨answer, hanswer, (hanswers i).trans hanswer⟩

/-- The import comes after the memory and is refused. -/
def memoryFirst : List Call :=
  [.addMemory ⟨1, none⟩, .importMemory "env" "late" ⟨1, none⟩, .internType ⟨[.i32], []⟩,
    .exportFunction "main" 0, .addFunction ⟨[], []⟩ ⟨[], [0x0b]⟩]

def typeFirst : List Call :=
  [.internType ⟨[.i32], []⟩, .addMemory ⟨1, none⟩, .addFunction ⟨[], []⟩ ⟨[], [0x0b]⟩,
    .importMemory "env" "late" ⟨1, none⟩, .exportFunction "main" 0]

def crossing : Fin 5 ≃ Fin 5 where
  toFun := ![1, 3, 0, 4, 2]
  invFun := ![2, 0, 4, 1, 3]
  left_inv := by
    unfold Function.LeftInverse
    decide
  right_inv := by
    unfold Function.RightInverse Function.LeftInverse
    decide

def memoryToType : Rearrangement Call.Overlap memoryFirst typeFirst where
  place := crossing
  same := by decide
  keeps := by decide

theorem rearranged_run_memoryFirst :
    (run {} typeFirst).2[3]? = (run {} memoryFirst).2[1]? ∧
      (run {} memoryFirst).2[1]? =
        some (.error (.invalidState (.importAfterDefinition .memory 1))) ∧
      (run {} typeFirst).1 = (run {} memoryFirst).1 ∧
      (run {} typeFirst).1.image = (run {} memoryFirst).1.image := by
  obtain ⟨hanswers, hdraft, himage⟩ := rearranged_run {} memoryToType
  obtain ⟨answer, hbefore, hafter⟩ := hanswers (1 : Fin 5)
  exact ⟨hafter.trans hbefore.symm, by decide, hdraft, himage⟩

end WasmBinary.Draft
