import Mathlib.Data.Finset.Card
import WasmBinary.Proofs.Draft.Run
import WasmBinary.Proofs.Draft.Step

/-!
# Signatures of a draft

A signature has the index of the place that it got when it was presented first, and has it for good.
All type indices in the sections that a draft hands over are such indices, each of the signature
with which the function was imported or defined.
-/

namespace WasmBinary

/-! ## Signatures of sections -/

/-- A function as it is declared: where it is imported from, if it is, and its signature, which
sections have by its index. -/
structure Declaration (Signature : Type) where
  origin : Option (String × String)
  signature : Signature
deriving DecidableEq

def Declaration.map {Signature Other : Type} (f : Signature → Other)
    (declaration : Declaration Signature) : Declaration Other :=
  ⟨declaration.origin, f declaration.signature⟩

def Import.declaration? (entry : Import) : Option (Declaration UInt32) :=
  match entry.desc with
  | .function typeIndex => some ⟨some (entry.source, entry.name), typeIndex⟩
  | _ => none

namespace Section

def signatures : Section → List FuncType
  | .types entries => entries
  | _ => []

/-- The functions that a section declares. -/
def declarations : Section → List (Declaration UInt32)
  | .imports entries => entries.filterMap Import.declaration?
  | .functions entries => entries.map fun typeIndex ↦ ⟨none, typeIndex⟩
  | _ => []

end Section

/-! ## Indices of signatures -/

theorem prefix_interned (types : List FuncType) (signature : FuncType) :
    types <+: interned types signature := by
  rw [interned]
  split
  · exact List.prefix_refl _
  · exact List.prefix_append _ _

theorem nodup_interned {types : List FuncType} (h : types.Nodup) (signature : FuncType) :
    (interned types signature).Nodup := by
  rw [interned]
  split
  · exact h
  · rename_i hnew
    refine List.nodup_append.2 ⟨h, List.nodup_singleton _, ?_⟩
    rintro other hmem _ hmem' rfl
    exact hnew (List.mem_singleton.1 hmem' ▸ hmem)

/-- Adding to what is there already is what keeping first occurrences does. -/
theorem interned_eraseDups (presented : List FuncType) (signature : FuncType) :
    interned presented.eraseDups signature = (presented ++ [signature]).eraseDups := by
  rw [interned, List.eraseDups_append]
  by_cases hmem : signature ∈ presented
  · rw [if_pos (List.mem_eraseDups.2 hmem)]
    simp [List.removeAll, hmem]
  · rw [if_neg (mt List.mem_eraseDups.1 hmem)]
    simp [List.removeAll, hmem, List.eraseDups_cons]

/-- The index of a signature does not change when others are added. -/
theorem indexIn_of_grown {types more : List FuncType} {signature : FuncType}
    (hmem : signature ∈ types) (hgrown : types <+: more) :
    indexIn more signature = indexIn types signature := by
  obtain ⟨added, rfl⟩ := hgrown
  rw [indexIn, indexIn, List.idxOf_append_of_mem hmem]

theorem getElem?_indexIn {types : List FuncType} {signature : FuncType}
    (hmem : signature ∈ types) (hfew : types.length < 0x100000000) :
    (indexIn types signature).toNat < types.length ∧
      types[(indexIn types signature).toNat]? = some signature := by
  have hlt := List.idxOf_lt_length_of_mem hmem
  rw [indexIn, toNat_ofNat_of_lt (Nat.lt_trans hlt hfew)]
  exact ⟨hlt, List.getElem?_idxOf hmem⟩

namespace Draft

/-! ## Calls that present signatures -/

/-- The function that a call declares, with its signature in full. -/
def Call.declaration? : Call → Option (Declaration FuncType)
  | .importFunction source name signature => some ⟨some (source, name), signature⟩
  | .addFunction signature _ => some ⟨none, signature⟩
  | _ => none

/-- The signature that a call presents. -/
def Call.signature? : Call → Option FuncType
  | .internType signature => some signature
  | call => call.declaration?.map Declaration.signature

def presented (calls : List Call) : List FuncType :=
  calls.filterMap Call.signature?

theorem presented_append (before after : List Call) :
    presented (before ++ after) = presented before ++ presented after :=
  List.filterMap_append

def declared (calls : List Call) : List (Declaration FuncType) :=
  calls.filterMap Call.declaration?

theorem declared_append (before after : List Call) :
    declared (before ++ after) = declared before ++ declared after :=
  List.filterMap_append

theorem signatures_sections (draft : Draft) :
    draft.sections.flatMap Section.signatures = draft.types := by
  rw [flatMap_sections draft fun _ ↦ rfl]
  simp [standardSections, Section.signatures]

theorem declarations_sections (draft : Draft) :
    draft.sections.flatMap Section.declarations =
      draft.imports.filterMap Import.declaration? ++
        draft.functions.map fun typeIndex ↦ ⟨none, typeIndex⟩ := by
  rw [flatMap_sections draft fun _ ↦ rfl]
  simp [standardSections, Section.declarations]

/-! ## One call -/

theorem types_advance (draft : Draft) (call : Call) :
    (draft.advance call).types = (presented [call]).foldl interned draft.types := by
  cases call <;> rfl

theorem types_prefix_advance (draft : Draft) (call : Call) :
    draft.types <+: (draft.advance call).types := by
  cases call <;> first | exact List.prefix_refl _ | exact prefix_interned _ _

theorem apply_internType (draft : Draft) (signature : FuncType) :
    draft.apply (.internType signature) =
      (draft.advance (.internType signature),
        .ok (some (indexIn (interned draft.types signature) signature))) :=
  apply_eq draft _

theorem functions_eq_nil {draft : Draft} (h : draft.importObjection? .function = none) :
    draft.functions = [] :=
  List.length_eq_zero_iff.1 (importObjection?_eq_none_iff.1 h)

theorem declarations_addImport {draft : Draft} {entry : Import}
    (h : draft.functions = [] ∨ entry.declaration? = none) :
    (draft.addImport entry).1.sections.flatMap Section.declarations =
      draft.sections.flatMap Section.declarations ++ entry.declaration?.toList := by
  rw [declarations_sections, declarations_sections, addImport, List.filterMap_append]
  rcases h with hnil | hnone
  · rw [hnil]
    cases hentry : entry.declaration? <;> simp [hentry]
  · simp [hnone]

/-- A function is declared behind all others, with the index that its signature then has. -/
theorem declarations_advance {draft : Draft} {call : Call} (hnone : call.refusal? draft = none) :
    (draft.advance call).sections.flatMap Section.declarations =
      draft.sections.flatMap Section.declarations ++
        (declared [call]).map (Declaration.map (indexIn (draft.advance call).types)) := by
  cases call with
  | importFunction source name signature =>
    exact declarations_addImport (.inl (functions_eq_nil hnone))
  | importTable source name type => exact declarations_addImport (.inr rfl)
  | importMemory source name type => exact declarations_addImport (.inr rfl)
  | importGlobal source name type => exact declarations_addImport (.inr rfl)
  | addFunction signature body =>
    rw [declarations_sections, declarations_sections, List.append_assoc]
    exact congrArg _ List.map_append
  | _ =>
    rw [declarations_sections, declarations_sections]
    exact (List.append_nil _).symm

theorem mem_types_advance {draft : Draft} {call : Call} {declaration : Declaration FuncType}
    (h : call.declaration? = some declaration) :
    declaration.signature ∈ (draft.advance call).types := by
  cases call with
  | importFunction source name signature =>
    obtain rfl := Option.some.inj h
    exact mem_interned _ _
  | addFunction signature body =>
    obtain rfl := Option.some.inj h
    exact mem_interned _ _
  | _ => cases h

/-! ## Whole runs -/

theorem nodup_types_run (calls : List Call) : (run {} calls).1.types.Nodup := by
  refine run_induction (P := fun draft _ ↦ draft.types.Nodup) List.nodup_nil ?_ calls
  intro draft calls call ih _
  cases call <;> first | exact ih | exact nodup_interned ih _

theorem types_run (calls : List Call) :
    (run {} calls).1.types = (presented (grantedCalls run {} calls)).eraseDups := by
  refine run_induction (P := fun draft calls ↦ draft.types = (presented calls).eraseDups)
    rfl ?_ calls
  intro draft calls call ih _
  rw [types_advance, ih, presented_append]
  cases hsignature : call.signature? with
  | none => simp [presented, hsignature]
  | some signature => simp [presented, hsignature, interned_eraseDups]

theorem types_prefix_run (draft : Draft) (calls : List Call) :
    draft.types <+: (draft.run calls).1.types := by
  refine run_induction (P := fun next _ ↦ draft.types <+: next.types) (List.prefix_refl _) ?_ calls
  intro next calls call ih _
  exact ih.trans (types_prefix_advance next call)

/-- What is declared refers to signatures by the indices that they have ever after. -/
theorem declarations_run {types : List FuncType} (calls : List Call)
    (hgrown : (run {} calls).1.types <+: types) :
    (run {} calls).1.sections.flatMap Section.declarations =
      (declared (grantedCalls run {} calls)).map (Declaration.map (indexIn types)) := by
  revert hgrown
  refine run_induction (P := fun draft calls ↦ draft.types <+: types →
    draft.sections.flatMap Section.declarations =
      (declared calls).map (Declaration.map (indexIn types))) (fun _ ↦ rfl) ?_ calls
  intro draft calls call ih hnone hgrown
  have hnew : (declared [call]).map (Declaration.map (indexIn (draft.advance call).types)) =
      (declared [call]).map (Declaration.map (indexIn types)) := by
    apply List.map_congr_left
    intro declaration hmem
    obtain ⟨_, hcall, hdeclaration⟩ := List.mem_filterMap.1 hmem
    rw [List.mem_singleton.1 hcall] at hdeclaration
    rw [Declaration.map, Declaration.map, indexIn_of_grown (mem_types_advance hdeclaration) hgrown]
  rw [declarations_advance hnone, ih ((types_prefix_advance draft call).trans hgrown), hnew,
    ← List.map_append, declared_append]

/-! ## The type section -/

/-- What the sections of a draft have to do with the signatures that calls presented, when each
signature has an index for good. -/
structure Interns (index : FuncType → UInt32) (draft : Draft) (calls : List Call) : Prop where
  nodup : (draft.sections.flatMap Section.signatures).Nodup
  /-- They are listed in the order in which they were presented first. -/
  order : draft.sections.flatMap Section.signatures = (presented calls).eraseDups
  count : draft.typeCount.toNat = (presented calls).toFinset.card
  resolves : ∀ signature ∈ presented calls, (index signature).toNat < draft.typeCount.toNat ∧
    (draft.sections.flatMap Section.signatures)[(index signature).toNat]? = some signature
  /-- Every function is declared as the call had it that declared it. -/
  declares : draft.sections.flatMap Section.declarations =
    (declared calls).map (Declaration.map index)
  /-- So its type index stands for the signature that was passed. -/
  refers : (draft.sections.flatMap Section.declarations).map (Declaration.map fun typeIndex ↦
      (draft.sections.flatMap Section.signatures)[typeIndex.toNat]?) =
    (declared calls).map (Declaration.map some)

theorem length_types_run (calls : List Call) :
    (run {} calls).1.types.length = (presented (grantedCalls run {} calls)).toFinset.card := by
  rw [← List.toFinset_card_of_nodup (nodup_types_run calls), types_run]
  congr 1
  ext signature
  simp

theorem mem_presented {calls : List Call} {declaration : Declaration FuncType}
    (hmem : declaration ∈ declared calls) : declaration.signature ∈ presented calls := by
  obtain ⟨call, hcall, hdeclaration⟩ := List.mem_filterMap.1 hmem
  refine List.mem_filterMap.2 ⟨call, hcall, ?_⟩
  cases call with
  | internType signature => cases hdeclaration
  | _ => exact congrArg (Option.map Declaration.signature) hdeclaration

theorem interns_run {types : List FuncType} (calls : List Call)
    (hgrown : (run {} calls).1.types <+: types) (hfew : types.length < 0x100000000) :
    Interns (indexIn types) (run {} calls).1 (grantedCalls run {} calls) := by
  have hfew' := Nat.lt_of_le_of_lt hgrown.length_le hfew
  have hcount : (run {} calls).1.typeCount.toNat = (run {} calls).1.types.length :=
    toNat_ofNat_of_lt hfew'
  have hresolves : ∀ signature ∈ presented (grantedCalls run {} calls),
      (indexIn types signature).toNat < (run {} calls).1.types.length ∧
        (run {} calls).1.types[(indexIn types signature).toNat]? = some signature := by
    intro signature hmem
    rw [← List.mem_eraseDups, ← types_run] at hmem
    rw [indexIn_of_grown hmem hgrown]
    exact getElem?_indexIn hmem hfew'
  have hdeclares := declarations_run calls hgrown
  constructor
  · rw [signatures_sections]
    exact nodup_types_run calls
  · rw [signatures_sections]
    exact types_run calls
  · rw [hcount]
    exact length_types_run calls
  · rw [hcount, signatures_sections]
    exact hresolves
  · exact hdeclares
  · rw [hdeclares, signatures_sections, List.map_map]
    apply List.map_congr_left
    intro declaration hmem
    exact congrArg _ (hresolves _ (mem_presented hmem)).2

/-- Along every run a signature has one index for good, from the time when it is presented first. -/
theorem signatures_run (calls : List Call)
    (hfew : (presented (grantedCalls run {} calls)).toFinset.card < 0x100000000) :
    ∃ index : FuncType → UInt32,
      (∀ before signature after, calls = before ++ .internType signature :: after →
        (run {} calls).2[before.length]? = some (.ok (some (index signature)))) ∧
      (∀ before after, calls = before ++ after →
        Interns index (run {} before).1 (grantedCalls run {} before)) ∧
      ∀ order, (run {} calls).1.assembly order = .ok ⟨order, (run {} calls).1.sections⟩ := by
  rw [← length_types_run] at hfew
  refine ⟨indexIn (run {} calls).1.types, ?_, ?_, assembly_eq_ok _⟩
  · rintro before signature after rfl
    have hgrown : interned (run {} before).1.types signature <+:
        (run {} (before ++ .internType signature :: after)).1.types := by
      rw [run_append, runs.cons, apply_internType]
      exact types_prefix_run ((run {} before).1.advance (.internType signature)) after
    rw [runs.answer, apply_internType, indexIn_of_grown (mem_interned _ _) hgrown]
  · rintro before after rfl
    apply interns_run before _ hfew
    rw [run_append]
    exact types_prefix_run _ after

/-- The second import comes too late, and its signature is not added. -/
def repeatedSignatures : List Call :=
  [.internType ⟨[.i32], []⟩, .importFunction "env" "log" ⟨[.i32], []⟩,
    .addFunction ⟨[], [.i64]⟩ ⟨[], [0x42, 0, 0x0b]⟩, .importFunction "env" "late" ⟨[.f32], []⟩,
    .addFunction ⟨[.i32], []⟩ ⟨[], [0x0b]⟩, .internType ⟨[.i32], []⟩]

theorem signatures_run_repeated :
    (presented (grantedCalls run {} repeatedSignatures)).toFinset.card < 0x100000000 ∧
      ∃ index : FuncType → UInt32,
        (run {} repeatedSignatures).2[5]? = some (.ok (some (index ⟨[.i32], []⟩))) ∧
          Interns index (run {} repeatedSignatures).1
            (grantedCalls run {} repeatedSignatures) := by
  have hcard : (presented (grantedCalls run {} repeatedSignatures)).toFinset.card = 2 := by
    decide
  have hfew : (presented (grantedCalls run {} repeatedSignatures)).toFinset.card < 0x100000000 := by
    rw [hcard]
    decide
  obtain ⟨index, hanswer, hinterns, -⟩ := signatures_run repeatedSignatures hfew
  exact ⟨hfew, index, hanswer (repeatedSignatures.take 5) _ [] rfl,
    hinterns repeatedSignatures [] (List.append_nil _).symm⟩

end Draft

end WasmBinary
