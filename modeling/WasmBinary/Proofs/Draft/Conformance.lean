import WasmBinary.Proofs.Draft.HandOver
import WasmBinary.Proofs.Draft.Refusal
import WasmBinary.Proofs.Draft.Signatures
import WasmBinary.Proofs.Grammar.Module

/-!
# Sections that agree with each other

The format has conditions that no section shows by itself: each function that is declared has a
body, the data segments are as many as are announced, no two exports have one name, and the
sections come in their order.  They hold of the sections that are read back from an image, whatever
calls the draft has had.
-/

namespace WasmBinary

/-! ## What sections hold -/

namespace Section

def typeIndices : Section → List UInt32
  | .functions entries => entries
  | _ => []

def dataSegments : Section → List DataSegment
  | .data entries => entries
  | _ => []

def exportNames : Section → List String
  | .exports entries => entries.map Export.name
  | _ => []

end Section

/-- There is nothing in a section. -/
structure Section.Vacant (contents : Section) : Prop where
  signatures : contents.signatures = []
  typeIndices : contents.typeIndices = []
  exportNames : contents.exportNames = []
  bodies : contents.bodies = []
  dataSegments : contents.dataSegments = []

theorem Section.vacant_of_isEmpty {contents : Section} (h : contents.isEmpty = true) :
    contents.Vacant := by
  cases contents with
  | types entries | functions entries | exports entries | code entries | data entries =>
    obtain rfl := List.isEmpty_iff.1 h
    exact ⟨rfl, rfl, rfl, rfl, rfl⟩
  | _ => exact ⟨rfl, rfl, rfl, rfl, rfl⟩

/-- Sections that declare nothing can be left out where they hold nothing. -/
theorem flatMap_framed {α : Type} {f : Section → List α}
    (hvacant : ∀ contents, contents.Vacant → f contents = []) (sections : List Section) :
    (framed sections).flatMap f = sections.flatMap f := by
  induction sections with
  | nil => rfl
  | cons first rest ih =>
    cases hfirst : first.isEmpty with
    | true =>
      have hnil : f first = [] := hvacant _ (Section.vacant_of_isEmpty hfirst)
      rw [framed_cons_of_isEmpty hfirst, List.flatMap_cons, hnil]
      exact ih
    | false =>
      rw [framed_cons_of_not_isEmpty hfirst, List.flatMap_cons, List.flatMap_cons]
      exact congrArg _ ih

theorem length_lt_of_encodeEntries {α : Type} {encode : α → Except ModuleError Bytes}
    {entries : List α} {written : Bytes} (h : encodeEntries encode entries = .ok written) :
    entries.length < 0x100000000 := by
  cases entries with
  | nil => exact Nat.zero_lt_succ _
  | cons entry entries => exact (encodeVector_eq_ok_iff.1 h).1

def Declaration.local? {Signature : Type} (declaration : Declaration Signature) :
    Option Signature :=
  match declaration.origin with
  | some _ => none
  | none => some declaration.signature

theorem Declaration.local?_map {Signature Other : Type} (f : Signature → Other)
    (declaration : Declaration Signature) :
    (declaration.map f).local? = declaration.local?.map f := by
  obtain ⟨origin, signature⟩ := declaration
  cases origin <;> rfl

namespace Draft

/-! ## What calls pass -/

def Call.function? : Call → Option (FuncType × FuncBody)
  | .addFunction signature body => some (signature, body)
  | _ => none

def addedFunctions (calls : List Call) : List (FuncType × FuncBody) :=
  calls.filterMap Call.function?

/-- The function that a call names as the one to run first. -/
def Call.start? : Call → Option UInt32
  | .setStart function => some function
  | _ => none

def lastStart? (calls : List Call) : Option UInt32 :=
  (calls.filterMap Call.start?).getLast?

theorem function?_of_refusal {draft : Draft} {call : Call} {error : ModuleError}
    (h : call.refusal? draft = some error) : call.function? = none := by
  cases call with
  | addFunction signature body => exact absurd h nofun
  | _ => rfl

theorem addedFunctions_grantedCalls (calls : List Call) :
    addedFunctions (grantedCalls run {} calls) = addedFunctions calls := by
  apply runs.filterMap_grantedCalls
  intro draft call error hanswer
  exact function?_of_refusal (answer_eq_error_iff.1 hanswer)

theorem code_run (calls : List Call) :
    (run {} calls).1.code = (addedFunctions calls).map Prod.snd := by
  rw [addedFunctions, List.map_filterMap]
  refine collected_run rfl ?_ ?_ calls
  · intro draft call error hrefusal
    rw [function?_of_refusal hrefusal]
    rfl
  · intro draft call
    cases call <;> first | rfl | exact (List.append_nil _).symm

theorem start_advance (draft : Draft) (call : Call) :
    (draft.advance call).start = call.start?.or draft.start := by
  cases call <;> rfl

theorem lastStart?_concat (calls : List Call) (call : Call) :
    lastStart? (calls ++ [call]) = call.start?.or (lastStart? calls) := by
  cases hcall : call.start? <;> simp [lastStart?, hcall]

theorem start_run (calls : List Call) : (run {} calls).1.start = lastStart? calls := by
  have hgranted : (grantedCalls run {} calls).filterMap Call.start? =
      calls.filterMap Call.start? := by
    apply runs.filterMap_grantedCalls
    intro draft call error hanswer
    have hrefusal := answer_eq_error_iff.1 hanswer
    cases call with
    | setStart function => exact absurd hrefusal nofun
    | _ => rfl
  rw [lastStart?, ← hgranted]
  refine run_induction (P := fun draft calls ↦ draft.start = lastStart? calls) rfl ?_ calls
  intro draft calls call ih _
  rw [start_advance, lastStart?_concat, ih]

theorem countsData_advance (draft : Draft) (call : Call) :
    (draft.advance call).countsData = true ↔
      draft.countsData = true ∨ call = .requireDataCount := by
  cases call with
  | requireDataCount => exact iff_of_true rfl (.inr rfl)
  | _ => exact (or_iff_left nofun).symm

theorem countsData_run (calls : List Call) :
    (run {} calls).1.countsData = true ↔ .requireDataCount ∈ calls := by
  have hfree : ∀ draft error, (apply draft .requireDataCount).2 ≠ .error error :=
    fun _ _ h ↦ absurd (answer_eq_error_iff.1 h) nofun
  rw [← runs.mem_grantedCalls hfree {} calls]
  refine run_induction (P := fun draft calls ↦ draft.countsData = true ↔
    .requireDataCount ∈ calls) ?_ ?_ calls
  · exact iff_of_false Bool.false_ne_true List.not_mem_nil
  intro draft calls call ih _
  rw [countsData_advance, ih, List.mem_append, List.mem_singleton, eq_comm (a := call)]

theorem nodup_exports_advance {draft : Draft} {call : Call}
    (h : (draft.exports.map Export.name).Nodup) (hnone : call.refusal? draft = none) :
    ((draft.advance call).exports.map Export.name).Nodup := by
  rw [exports_advance]
  cases hname : call.exported? with
  | none => simpa [exportedNames, hname] using h
  | some name =>
    -- With a name that is taken the call would have been refused.
    have hnew : name ∉ draft.exports.map Export.name := by
      intro hmem
      have herror := ((verdict_apply draft call).exported name hname _).2 ⟨hmem, rfl⟩
      rw [answer_eq_error_iff, hnone] at herror
      exact Option.some_ne_none _ herror.symm
    refine List.nodup_append.2 ⟨h, by simp [exportedNames, hname], ?_⟩
    rintro other hother _ hmem rfl
    obtain rfl : other = name := by simpa [exportedNames, hname] using hmem
    exact hnew hother

theorem nodup_exports_run (calls : List Call) :
    ((run {} calls).1.exports.map Export.name).Nodup := by
  refine run_induction (P := fun draft _ ↦ (draft.exports.map Export.name).Nodup) ?_ ?_ calls
  · exact List.nodup_nil
  intro draft calls call ih hnone
  exact nodup_exports_advance ih hnone

/-! ## Functions by their signatures -/

theorem local_declarations (draft : Draft) :
    (draft.sections.flatMap Section.declarations).filterMap Declaration.local? =
      draft.functions := by
  have himports : (draft.imports.filterMap Import.declaration?).filterMap Declaration.local? =
      [] := by
    rw [List.filterMap_filterMap, List.filterMap_eq_nil_iff]
    rintro ⟨source, name, desc⟩ _
    cases desc <;> rfl
  rw [declarations_sections, List.filterMap_append, himports, List.filterMap_map]
  exact List.filterMap_some

theorem local_declared (calls : List Call) :
    (declared calls).filterMap Declaration.local? = (addedFunctions calls).map Prod.fst := by
  rw [declared, addedFunctions, List.filterMap_filterMap, List.map_filterMap]
  congr 1
  funext call
  cases call <;> rfl

/-- The type indices of the functions stand for the signatures with which they were defined. -/
theorem signatures_functions_run (calls : List Call)
    (hfew : (run {} calls).1.types.length < 0x100000000) :
    (run {} calls).1.functions.map (fun typeIndex ↦ (run {} calls).1.types[typeIndex.toNat]?) =
      (addedFunctions calls).map fun function ↦ some function.1 := by
  -- Every declaration refers to its signature; the imported ones are left out here.
  have hrefers := (interns_run calls (List.prefix_refl _) hfew).refers
  have hlocal := congrArg (List.filterMap Declaration.local?) hrefers
  simp only [List.filterMap_map, Function.comp_def, Declaration.local?_map, signatures_sections,
    ← List.map_filterMap, local_declarations, local_declared, addedFunctions_grantedCalls,
    List.map_map] at hlocal
  exact hlocal

/-! ## The sections of an image -/

section Framed

variable (draft : Draft)

theorem flatMap_framed_sections {α : Type} {f : Section → List α}
    (hvacant : ∀ contents, contents.Vacant → f contents = [])
    (hcustom : ∀ contents, f (.custom contents) = []) :
    (framed draft.sections).flatMap f = draft.standardSections.flatMap f := by
  rw [flatMap_framed hvacant, flatMap_sections draft hcustom]

theorem typeIndices_framed :
    (framed draft.sections).flatMap Section.typeIndices = draft.functions := by
  rw [flatMap_framed_sections draft (fun _ ↦ Section.Vacant.typeIndices) fun _ ↦ rfl]
  simp [standardSections, Section.typeIndices]

theorem signatures_framed :
    (framed draft.sections).flatMap Section.signatures = draft.types := by
  rw [flatMap_framed_sections draft (fun _ ↦ Section.Vacant.signatures) fun _ ↦ rfl]
  simp [standardSections, Section.signatures]

theorem bodies_framed : (framed draft.sections).flatMap Section.bodies = draft.code := by
  rw [flatMap_framed_sections draft (fun _ ↦ Section.Vacant.bodies) fun _ ↦ rfl]
  simp [standardSections, Section.bodies]

theorem dataSegments_framed :
    (framed draft.sections).flatMap Section.dataSegments = draft.data := by
  rw [flatMap_framed_sections draft (fun _ ↦ Section.Vacant.dataSegments) fun _ ↦ rfl]
  simp [standardSections, Section.dataSegments]

theorem exportNames_framed :
    (framed draft.sections).flatMap Section.exportNames = draft.exports.map Export.name := by
  rw [flatMap_framed_sections draft (fun _ ↦ Section.Vacant.exportNames) fun _ ↦ rfl]
  simp [standardSections, Section.exportNames]

theorem functions_mem_framed (entries : List UInt32) :
    .functions entries ∈ framed draft.sections ↔ entries = draft.functions ∧ entries ≠ [] := by
  simp [mem_framed, sections, standardSections, Section.isEmpty]

theorem code_mem_framed (entries : List FuncBody) :
    .code entries ∈ framed draft.sections ↔ entries = draft.code ∧ entries ≠ [] := by
  simp [mem_framed, sections, standardSections, Section.isEmpty]

theorem dataCount_mem_framed (count : Option UInt32) :
    .dataCount count ∈ framed draft.sections ↔ count = draft.dataCount? ∧ count.isSome := by
  simp [mem_framed, sections, standardSections, Section.isEmpty]

theorem start_mem_framed (function : Option UInt32) :
    .start function ∈ framed draft.sections ↔ function = draft.start ∧ function.isSome := by
  simp [mem_framed, sections, standardSections, Section.isEmpty]

theorem ranks_framed :
    ∃ ranks : List Nat, (framed draft.standardSections).map (fun contents ↦ contents.kind.rank?) =
      ranks.map some ∧ ranks.Pairwise (· < ·) := by
  have hsub : ((framed draft.standardSections).map fun contents ↦ contents.kind.rank?).Sublist
      ((List.range' 1 12).map some) :=
    List.filter_sublist.map _
  obtain ⟨ranks, hranks, heq⟩ := List.sublist_map_iff.1 hsub
  exact ⟨ranks, heq, List.Pairwise.sublist hranks List.pairwise_lt_range'⟩

end Framed

/-- What the sections of a module have to do with each other, and with the calls on the draft that
it was made of. -/
structure Conforms (calls : List Call) (sections : List Section) : Prop where
  /-- The ranks ascend, and the custom sections come last, as they were added. -/
  order : ∃ (standard : List Section) (ranks : List Nat),
    sections = standard ++ (addedCustoms calls).map Section.custom ∧
      standard.map (fun contents ↦ contents.kind.rank?) = ranks.map some ∧
      ranks.Pairwise (· < ·)
  functions_iff : (∃ entries, .functions entries ∈ sections) ↔ addedFunctions calls ≠ []
  code_iff : (∃ entries, .code entries ∈ sections) ↔ addedFunctions calls ≠ []
  lockstep : (sections.flatMap Section.typeIndices).length =
    (sections.flatMap Section.bodies).length
  /-- The signatures and the bodies are those that were passed together. -/
  signatures : (sections.flatMap Section.typeIndices).map (fun typeIndex ↦
      (sections.flatMap Section.signatures)[typeIndex.toNat]?) =
    (addedFunctions calls).map fun function ↦ some function.1
  bodies : sections.flatMap Section.bodies = (addedFunctions calls).map Prod.snd
  dataCount_iff : (∃ count, .dataCount count ∈ sections) ↔ .requireDataCount ∈ calls
  /-- The announced number of data segments is their number, wherever the call stood. -/
  dataCount : ∀ count, .dataCount count ∈ sections →
    count.map UInt32.toNat = some (sections.flatMap Section.dataSegments).length
  start : ∀ function, .start function ∈ sections ↔
    function = lastStart? calls ∧ function.isSome
  names : (sections.flatMap Section.exportNames).Nodup

theorem conforms_framed {calls : List Call}
    (htypes : (run {} calls).1.types.length < 0x100000000)
    (hdata : (run {} calls).1.data.length < 0x100000000) :
    Conforms calls (framed (run {} calls).1.sections) := by
  -- Type indices and bodies come from the same calls, so there are as many of both.
  have hcode := code_run calls
  have hsignatures := signatures_functions_run calls htypes
  have hlengths : (run {} calls).1.functions.length = (addedFunctions calls).length := by
    simpa using congrArg List.length hsignatures
  have hfunctions : (run {} calls).1.functions ≠ [] ↔ addedFunctions calls ≠ [] := by
    rw [← List.length_pos_iff, ← List.length_pos_iff, hlengths]
  constructor
  case order =>
    obtain ⟨ranks, hranks, hasc⟩ := ranks_framed (run {} calls).1
    refine ⟨_, ranks, ?_, hranks, hasc⟩
    have hcustoms : framed ((addedCustoms calls).map Section.custom) =
        (addedCustoms calls).map Section.custom := framed_customs (by simp)
    rw [sections_run, framed_append, hcustoms]
  case functions_iff => simpa [functions_mem_framed] using hfunctions
  case code_iff => simp [code_mem_framed, hcode]
  case lockstep => rw [typeIndices_framed, bodies_framed, hcode, hlengths, List.length_map]
  case signatures => rw [typeIndices_framed, signatures_framed, hsignatures]
  case bodies => rw [bodies_framed, hcode]
  case dataCount_iff =>
    rw [← countsData_run]
    cases hcounts : (run {} calls).1.countsData <;>
      simp [dataCount_mem_framed, dataCount?, hcounts]
  case dataCount =>
    intro count hmem
    obtain ⟨rfl, hsome⟩ := (dataCount_mem_framed _ count).1 hmem
    rw [dataSegments_framed]
    cases hcounts : (run {} calls).1.countsData with
    | false => simp [dataCount?, hcounts] at hsome
    | true => simp [dataCount?, hcounts, nextIndex, toNat_ofNat_of_lt hdata]
  case start =>
    intro function
    rw [start_mem_framed, start_run]
  case names =>
    rw [exportNames_framed]
    exact nodup_exports_run calls

theorem exists_render_of_image {draft : Draft} {order : SectionOrder} {bytes : Bytes}
    (himage : Assembly.image ⟨order, draft.sections⟩ = .ok bytes) {contents : Section}
    (hmem : contents ∈ draft.standardSections) : ∃ payload, contents.render = .ok payload := by
  apply Assembly.exists_render_of_image himage
  rw [(draft.complete_assembly order).ordered_eq]
  exact List.mem_append_left _ hmem

/-- Whatever calls a draft has had, if a module can be made of it in either order, the sections that
the grammar reads back from the bytes agree with each other and with the calls. -/
theorem conforms_image {calls : List Call} {order : SectionOrder} {assembly : Assembly}
    {bytes : Bytes} (hassembly : (run {} calls).1.assembly order = .ok assembly)
    (himage : assembly.image = .ok bytes) :
    ∃ sections, readModule bytes = some sections ∧ Conforms calls sections := by
  obtain rfl : ⟨order, (run {} calls).1.sections⟩ = assembly :=
    Except.ok.inj ((assembly_eq_ok _ order).symm.trans hassembly)
  have hread := Assembly.readModule_image himage
  rw [((run {} calls).1.complete_assembly order).ordered_eq] at hread
  -- The sections that count entries have been rendered, so that their counts fit.
  obtain ⟨_, htypes⟩ : ∃ payload, (Section.types (run {} calls).1.types).render = .ok payload :=
    exists_render_of_image himage (by simp [standardSections])
  obtain ⟨_, hdata⟩ : ∃ payload, (Section.data (run {} calls).1.data).render = .ok payload :=
    exists_render_of_image himage (by simp [standardSections])
  exact ⟨_, hread, conforms_framed (length_lt_of_encodeEntries htypes)
    (length_lt_of_encodeEntries hdata)⟩

/-- The number of data segments is asked for before there is one, and the start is set twice. -/
def earlyCount : List Call :=
  [.addFunction ⟨[], []⟩ ⟨[], [0x0b]⟩, .requireDataCount, .addCustom ⟨"a", [7]⟩, .setStart 0,
    .addData ⟨.passive, [1, 2]⟩, .exportFunction "f" 0, .addFunction ⟨[.i32], []⟩ ⟨[], [0x0b]⟩,
    .exportFunction "f" 1, .setStart 1]

def earlyCountImage : Bytes :=
  preamble ++ [1, 8, 2, 0x60, 0, 0, 0x60, 1, 0x7f, 0, 3, 3, 2, 0, 1, 7, 5, 1, 1, 0x66, 0, 0, 8, 1,
    1, 12, 1, 1, 10, 7, 2, 2, 0, 0x0b, 2, 0, 0x0b, 11, 5, 1, 1, 2, 1, 2, 0, 3, 1, 0x61, 7]

theorem conforms_image_earlyCount :
    (run {} earlyCount).1.image = .ok earlyCountImage ∧
      ∃ sections, readModule earlyCountImage = some sections ∧ Conforms earlyCount sections := by
  have hassembly := assembly_eq_ok (run {} earlyCount).1 .canonical
  have himage : Assembly.image ⟨.canonical, (run {} earlyCount).1.sections⟩ =
      .ok earlyCountImage := by
    rw [Assembly.image, ((run {} earlyCount).1.complete_assembly .canonical).ordered_eq]
    decide +kernel
  refine ⟨?_, conforms_image hassembly himage⟩
  rw [image_eq, himage]

end Draft

end WasmBinary
