import WasmBinary.Proofs.Draft.Step

/-!
# Which calls a draft refuses

An import is refused if and only if an entity of its kind has been defined before, and an export if
and only if its name has been given before; nothing else is refused.  So the calls that were granted
before decide, and the run can do without the others.
-/

namespace WasmBinary.Draft

/-! ## What has been defined and exported -/

/-- How many entities of a kind the calls define. -/
def definitions (calls : List Call) (kind : ExternKind) : Nat :=
  calls.countP fun call ↦ call.defined? = some kind

theorem definitions_append (before after : List Call) (kind : ExternKind) :
    definitions (before ++ after) kind = definitions before kind + definitions after kind :=
  List.countP_append

def exportedNames (calls : List Call) : List String :=
  calls.filterMap Call.exported?

theorem exportedNames_append (before after : List Call) :
    exportedNames (before ++ after) = exportedNames before ++ exportedNames after :=
  List.filterMap_append

theorem definedCount_advance (draft : Draft) (call : Call) (kind : ExternKind) :
    (draft.advance call).definedCount kind =
      draft.definedCount kind + definitions [call] kind := by
  cases call with
  | addFunction signature body => cases kind <;> first | rfl | exact List.length_append
  | addTable table => cases kind <;> first | rfl | exact List.length_append
  | addMemory memory => cases kind <;> first | rfl | exact List.length_append
  | addGlobal global => cases kind <;> first | rfl | exact List.length_append
  | _ => cases kind <;> rfl

theorem exports_advance (draft : Draft) (call : Call) :
    (draft.advance call).exports.map Export.name =
      draft.exports.map Export.name ++ exportedNames [call] := by
  cases call with
  | exportEntity entry => exact List.map_append
  | exportFunction name index => exact List.map_append
  | _ => exact (List.append_nil _).symm

theorem definedCount_run (calls : List Call) (kind : ExternKind) :
    (run {} calls).1.definedCount kind = definitions (grantedCalls run {} calls) kind := by
  refine run_induction (P := fun draft calls ↦ draft.definedCount kind = definitions calls kind)
    (by cases kind <;> rfl) ?_ calls
  intro draft calls call ih _
  rw [definedCount_advance, ih, definitions_append]

theorem exports_run (calls : List Call) :
    (run {} calls).1.exports.map Export.name = exportedNames (grantedCalls run {} calls) := by
  refine run_induction (P := fun draft calls ↦ draft.exports.map Export.name = exportedNames calls)
    rfl ?_ calls
  intro draft calls call ih _
  rw [exports_advance, ih, exportedNames_append]

/-! ## The verdict -/

/-- The answer to a call, as far as it is a refusal, when some entities have been defined and some
names have been given. -/
structure Verdict (defined : ExternKind → Nat) (names : List String) (call : Call)
    (answer : Answer) : Prop where
  imported : ∀ kind, call.imported? = some kind → ∀ error, answer = .error error ↔
    0 < defined kind ∧ error = .invalidState (.importAfterDefinition kind (defined kind))
  /-- The refusal of an import says how many entities of which kind have been defined. -/
  worded : ∀ kind, call.imported? = some kind → ∀ error, answer = .error error →
    error.message = "invalid state: " ++ ("cannot import a " ++ kind.name ++ " after " ++
      toString (defined kind) ++ " local " ++ kind.name ++ "(s) were defined")
  exported : ∀ name, call.exported? = some name → ∀ error, answer = .error error ↔
    name ∈ names ∧ error = .invalidState (.duplicateExport name)
  others : call.imported? = none → call.exported? = none → ∀ error, answer ≠ .error error

theorem importObjection?_eq_some_iff {draft : Draft} {kind : ExternKind} {error : ModuleError} :
    draft.importObjection? kind = some error ↔ 0 < draft.definedCount kind ∧
      error = .invalidState (.importAfterDefinition kind (draft.definedCount kind)) := by
  rw [importObjection?]
  cases draft.definedCount kind <;> simp [eq_comm (a := error)]

theorem taken_iff {exports : List Export} {name : String} :
    Export.taken exports name = true ↔ name ∈ exports.map Export.name := by
  simp [Export.taken]

theorem answer_import_iff {draft : Draft} {call : Call} {kind : ExternKind} {error : ModuleError}
    (hkind : call.imported? = some kind) :
    (draft.apply call).2 = .error error ↔ 0 < draft.definedCount kind ∧
      error = .invalidState (.importAfterDefinition kind (draft.definedCount kind)) := by
  rw [answer_eq_error_iff, Call.refusal?, hkind]
  exact importObjection?_eq_some_iff

theorem imported?_of_exported? {call : Call} {name : String} (hname : call.exported? = some name) :
    call.imported? = none := by
  cases call <;> first | rfl | cases hname

theorem verdict_apply (draft : Draft) (call : Call) :
    Verdict draft.definedCount (draft.exports.map Export.name) call (draft.apply call).2 where
  imported kind hkind error := answer_import_iff hkind
  worded kind hkind error herror := by
    obtain ⟨-, rfl⟩ := (answer_import_iff hkind).1 herror
    rfl
  exported name hname error := by
    rw [answer_eq_error_iff, Call.refusal?, imported?_of_exported? hname, hname, ← taken_iff]
    cases htaken : Export.taken draft.exports name <;> simp [htaken, eq_comm (a := error)]
  others hnone hnone' error := by
    rw [Ne, answer_eq_error_iff, Call.refusal?, hnone, hnone']
    exact nofun

/-- Along every run an import is refused for the entities of its kind that have been defined, and an
export for the names that have been given, and nothing else is refused.  A refused call changes
nothing: without the refused calls, all other answers and the draft are the same. -/
theorem refusals_run (calls : List Call) :
    (∀ before call after, calls = before ++ call :: after →
      ∃ answer, (run {} calls).2[before.length]? = some answer ∧
        Verdict (definitions (grantedCalls run {} before))
          (exportedNames (grantedCalls run {} before)) call answer ∧
        ∀ error, answer = .error error → (run {} (before ++ [call])).1 = (run {} before).1) ∧
      (run {} (grantedCalls run {} calls)).1 = (run {} calls).1 ∧
      transcript run {} (grantedCalls run {} calls) = granted (transcript run {} calls) := by
  refine ⟨?_, runs.without_refused (fun _ _ _ ↦ apply_of_error) {} calls⟩
  rintro before call after rfl
  refine ⟨_, runs.answer {} before after call, ?_, ?_⟩
  · rw [← funext (definedCount_run before), ← exports_run]
    exact verdict_apply _ call
  · intro error herror
    rw [runs.state_concat]
    exact apply_of_error herror

/-- A definition of one kind leaves the imports of another alone. -/
example : (run {} [.addMemory ⟨1, none⟩, .importFunction "env" "f" ⟨[], []⟩,
    .importMemory "env" "m" ⟨1, none⟩]).2 = [.ok (some 0), .ok (some 0),
    .error (.invalidState (.importAfterDefinition .memory 1))] := by
  decide

end WasmBinary.Draft
