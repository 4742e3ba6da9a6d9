import Mathlib.Data.List.Basic
import WasmBinary.Draft.Call
import WasmBinary.Proofs.Transcript

/-!
# One call on a draft

A call is told by three things: why it is refused, if it is, the draft that it makes otherwise, and
the index that it gives out.  Each can be read off without following how the call is carried out.
-/

namespace WasmBinary

/-! ## Signatures, each once -/

/-- A list of signatures with one more, unless it is there already. -/
def interned (types : List FuncType) (signature : FuncType) : List FuncType :=
  if signature ∈ types then types else types ++ [signature]

def indexIn (types : List FuncType) (signature : FuncType) : UInt32 :=
  UInt32.ofNat (types.idxOf signature)

theorem mem_interned (types : List FuncType) (signature : FuncType) :
    signature ∈ interned types signature := by
  rw [interned]
  split
  · assumption
  · exact List.mem_append_right _ List.mem_cons_self

namespace Draft

theorem internType_eq (draft : Draft) (signature : FuncType) :
    draft.internType signature =
      ({ draft with types := interned draft.types signature },
        indexIn (interned draft.types signature) signature) := by
  rw [internType, typeIndex?]
  cases hindex : draft.types.idxOf? signature with
  | none =>
    have hnew := List.idxOf?_eq_none_iff.1 hindex
    have hlast : (draft.types ++ [signature]).idxOf signature = draft.types.length := by
      simp [List.idxOf_append, hnew]
    rw [interned, if_neg hnew, indexIn, hlast]
    rfl
  | some index =>
    have hmem : signature ∈ draft.types := by
      rw [← List.isSome_idxOf?, hindex]
      rfl
    have hfirst : draft.types.idxOf signature = index := by
      rw [List.idxOf_eq_getD_idxOf?, hindex]
      rfl
    rw [interned, if_pos hmem, indexIn, hfirst]
    rfl

/-! ## Imports, definitions and exports -/

/-- The kind of entity that a call imports. -/
def Call.imported? : Call → Option ExternKind
  | .importFunction _ _ _ => some .function
  | .importTable _ _ _ => some .table
  | .importMemory _ _ _ => some .memory
  | .importGlobal _ _ _ => some .global
  | _ => none

def Call.defined? : Call → Option ExternKind
  | .addFunction _ _ => some .function
  | .addTable _ => some .table
  | .addMemory _ => some .memory
  | .addGlobal _ => some .global
  | _ => none

def Call.exported? : Call → Option String
  | .exportEntity entry => some entry.name
  | .exportFunction name _ => some name
  | _ => none

def Call.refusal? (draft : Draft) (call : Call) : Option ModuleError :=
  match call.imported?, call.exported? with
  | some kind, _ => draft.importObjection? kind
  | none, some name =>
    if Export.taken draft.exports name then some (.invalidState (.duplicateExport name)) else none
  | none, none => none

/-- The draft after a call that is not refused. -/
def advance (draft : Draft) : Call → Draft
  | .internType signature => { draft with types := interned draft.types signature }
  | .importFunction source name signature =>
    (addImport { draft with types := interned draft.types signature }
      ⟨source, name, .function (indexIn (interned draft.types signature) signature)⟩).1
  | .importTable source name type => (draft.addImport ⟨source, name, .table type⟩).1
  | .importMemory source name type => (draft.addImport ⟨source, name, .memory type⟩).1
  | .importGlobal source name type => (draft.addImport ⟨source, name, .global type⟩).1
  | .addFunction signature body =>
    { draft with
      types := interned draft.types signature
      functions := draft.functions ++ [indexIn (interned draft.types signature) signature]
      code := draft.code ++ [body] }
  | .addTable table => (draft.addTable table).1
  | .addMemory memory => (draft.addMemory memory).1
  | .addGlobal global => (draft.addGlobal global).1
  | .addElement segment => (draft.addElement segment).1
  | .addData segment => (draft.addData segment).1
  | .addCustom contents => draft.addCustom contents
  | .exportEntity entry => { draft with exports := draft.exports ++ [entry] }
  | .exportFunction name index =>
    { draft with exports := draft.exports ++ [⟨name, .function, index⟩] }
  | .setStart function => draft.setStart function
  | .requireDataCount => draft.requireDataCount

/-- The index that a call gives out if it is not refused. -/
def Call.index? (draft : Draft) : Call → Option UInt32
  | .internType signature => some (indexIn (interned draft.types signature) signature)
  | .importFunction _ _ _ => some (draft.imported.count .function)
  | .importTable _ _ _ => some (draft.imported.count .table)
  | .importMemory _ _ _ => some (draft.imported.count .memory)
  | .importGlobal _ _ _ => some (draft.imported.count .global)
  | .addFunction _ _ => some (draft.indexCount .function)
  | .addTable _ => some (draft.indexCount .table)
  | .addMemory _ => some (draft.indexCount .memory)
  | .addGlobal _ => some (draft.indexCount .global)
  | .addElement _ => some (nextIndex draft.elements)
  | .addData _ => some (nextIndex draft.data)
  | _ => none

/-- The index of an import is the number of imports of its kind before it. -/
theorem addImport_index (draft : Draft) (entry : Import) :
    (draft.addImport entry).2 = draft.imported.count entry.desc.kind := by
  simp only [addImport, ImportTally.count_bump_self, UInt32.add_sub_cancel]

theorem settle_importEntity (draft : Draft) (entry : Import) :
    draft.settle (draft.importEntity entry) =
      match draft.importObjection? entry.desc.kind with
      | some error => (draft, .error error)
      | none =>
        ((draft.addImport entry).1, .ok (some (draft.imported.count entry.desc.kind))) := by
  rw [importEntity, ← addImport_index]
  cases draft.importObjection? entry.desc.kind <;> rfl

theorem settle_importFunction (draft : Draft) (source name : String) (signature : FuncType) :
    draft.settle (draft.importFunction source name signature) =
      match draft.importObjection? .function with
      | some error => (draft, .error error)
      | none => (draft.advance (.importFunction source name signature),
          .ok (some (draft.imported.count .function))) := by
  rw [importFunction, internType_eq]
  cases draft.importObjection? .function with
  | some error => rfl
  | none =>
    -- The signature that is added does not count for the index.
    have hindex := addImport_index { draft with types := interned draft.types signature }
      ⟨source, name, .function (indexIn (interned draft.types signature) signature)⟩
    exact Prod.ext rfl (congrArg (fun index ↦ Except.ok (some index)) hindex)

theorem settleSilent_exportEntity (draft : Draft) (entry : Export) :
    draft.settleSilent (draft.exportEntity entry) =
      match if Export.taken draft.exports entry.name then
        some (ModuleError.invalidState (.duplicateExport entry.name)) else none with
      | some error => (draft, .error error)
      | none => ({ draft with exports := draft.exports ++ [entry] }, .ok none) := by
  rw [exportEntity]
  cases Export.taken draft.exports entry.name <;> rfl

/-- What every call does. -/
theorem apply_eq (draft : Draft) (call : Call) :
    draft.apply call =
      match call.refusal? draft with
      | some error => (draft, .error error)
      | none => (draft.advance call, .ok (call.index? draft)) := by
  cases call with
  | internType signature =>
    rw [apply, internType_eq]
    rfl
  | importFunction source name signature => exact draft.settle_importFunction _ _ _
  | importTable source name type => exact draft.settle_importEntity _
  | importMemory source name type => exact draft.settle_importEntity _
  | importGlobal source name type => exact draft.settle_importEntity _
  | addFunction signature body =>
    rw [apply, addFunction, internType_eq]
    rfl
  | exportEntity entry => exact draft.settleSilent_exportEntity entry
  | exportFunction name index => exact draft.settleSilent_exportEntity _
  | _ => rfl

section Apply

variable {draft : Draft} {call : Call} {error : ModuleError}

theorem apply_of_refusal?_none (h : call.refusal? draft = none) :
    draft.apply call = (draft.advance call, .ok (call.index? draft)) := by
  rw [apply_eq, h]

theorem answer_eq_error_iff :
    (draft.apply call).2 = .error error ↔ call.refusal? draft = some error := by
  rw [apply_eq]
  cases call.refusal? draft <;> simp

/-- A refused call leaves the draft as it was. -/
theorem apply_of_error (h : (draft.apply call).2 = .error error) :
    (draft.apply call).1 = draft := by
  rw [apply_eq, answer_eq_error_iff.1 h]

theorem refusal?_of_ok {index? : Option UInt32} (h : (draft.apply call).2 = .ok index?) :
    call.refusal? draft = none := by
  rw [Option.eq_none_iff_forall_ne_some]
  intro error hrefusal
  rw [answer_eq_error_iff.2 hrefusal] at h
  exact absurd h nofun

end Apply

/-! ## Runs -/

theorem runs : Runs apply run where
  nil _ := rfl
  cons _ _ _ := rfl

/-- What holds at first and is kept by every call that is not refused holds along every run, of the
draft and of the calls that were granted. -/
theorem run_induction {P : Draft → List Call → Prop} {draft : Draft} (hfirst : P draft [])
    (hstep : ∀ next calls call, P next calls → call.refusal? next = none →
      P (next.advance call) (calls ++ [call]))
    (calls : List Call) : P (draft.run calls).1 (grantedCalls run draft calls) := by
  refine runs.granted_induction (fun _ _ _ ↦ apply_of_error) hfirst ?_ calls
  intro next calls call index? ih hanswer
  have hnone := refusal?_of_ok hanswer
  rw [apply_of_refusal?_none hnone]
  exact hstep next calls call ih hnone

/-- What comes with calls that are never refused, and is put at the end of a part of the draft, is
what the part holds after any run. -/
theorem collected_run {α : Type} {part : Draft → List α} {passed? : Call → Option α}
    (hempty : part {} = [])
    (hfree : ∀ draft call error, call.refusal? draft = some error → passed? call = none)
    (hadvance : ∀ draft call, part (draft.advance call) = part draft ++ (passed? call).toList)
    (calls : List Call) : part (run {} calls).1 = calls.filterMap passed? := by
  rw [← runs.filterMap_grantedCalls (fun _ _ _ h ↦ hfree _ _ _ (answer_eq_error_iff.1 h)) {} calls]
  refine run_induction (P := fun draft calls ↦ part draft = calls.filterMap passed?) hempty ?_ calls
  intro draft calls call ih _
  rw [hadvance, ih, List.filterMap_append]
  cases hcall : passed? call <;> simp [hcall]

end Draft

end WasmBinary
