import Mathlib.Data.List.DropRight
import WasmBinary.Proofs.Assembly.Run
import WasmBinary.Proofs.Transcript

/-!
# Which sections are taken

Whether a section is taken depends on nothing but the sections that have been taken since the
assembly was last cleared.  In strict order the last standard one of them has the greatest rank, so
a section that belongs before any of them belongs before that one.
-/

namespace WasmBinary

namespace SectionKind

theorem precedes_trans {kind between other : SectionKind} (h : kind.precedes between = true)
    (h' : between.precedes other = true) : kind.precedes other = true := by
  obtain ⟨rank, middle, hkind, hbetween, hlt⟩ := precedes_iff.1 h
  obtain ⟨middle', rank', hbetween', hother, hlt'⟩ := precedes_iff.1 h'
  obtain rfl : middle = middle' := Option.some.inj (hbetween.symm.trans hbetween')
  exact precedes_iff.2 ⟨rank, rank', hkind, hother, Nat.lt_trans hlt hlt'⟩

theorem exists_rank? {kind : SectionKind} (h : kind.isCustom = false) :
    ∃ rank, kind.rank? = some rank := by
  rw [← Option.ne_none_iff_exists', Ne, rank?_eq_none_iff]
  simpa [isCustom] using h

/-- Of two standard kinds one precedes the other. -/
theorem precedes_of_not_precedes {kind other : SectionKind} (hkind : kind.isCustom = false)
    (hother : other.isCustom = false) (hne : kind ≠ other) (h : kind.precedes other = false) :
    other.precedes kind = true := by
  obtain ⟨rank, hrank⟩ := exists_rank? hkind
  obtain ⟨rank', hrank'⟩ := exists_rank? hother
  have hle : rank' ≤ rank := by
    rw [precedes, hrank, hrank'] at h
    exact Nat.not_lt.1 (of_decide_eq_false h)
  have hrank_ne : rank' ≠ rank := by
    rintro rfl
    exact hne (rank?_injective (hrank.trans hrank'.symm))
  exact precedes_iff.2 ⟨rank', rank, hrank', hrank, Nat.lt_of_le_of_ne hle hrank_ne⟩

end SectionKind

/-- The last of ascending kinds comes behind all others. -/
theorem eq_or_precedes_getLast? {kinds : List SectionKind} {last kind : SectionKind}
    (hasc : kinds.Pairwise fun kind other ↦ kind.precedes other = true)
    (hlast : kinds.getLast? = some last) (hmem : kind ∈ kinds) :
    kind = last ∨ kind.precedes last = true := by
  obtain ⟨init, rfl⟩ := List.getLast?_eq_some_iff.1 hlast
  rcases List.mem_append.1 hmem with hinit | hsingle
  · exact .inr ((List.pairwise_append.1 hasc).2.2 kind hinit last List.mem_cons_self)
  · exact .inl (List.mem_singleton.1 hsingle)

/-- The standard sections come by strictly ascending rank. -/
def ByRank (sections : List Section) : Prop :=
  (standardKinds sections).Pairwise fun kind other ↦ kind.precedes other = true

theorem byRank_nil : ByRank [] :=
  List.Pairwise.nil

namespace Assembly

/-! ## Strict order -/

/-- In strict order the ranks of the standard sections ascend. -/
def Sorted (assembly : Assembly) : Prop :=
  assembly.order = .strict → ByRank assembly.sections

theorem Sorted.misplaced_iff {assembly : Assembly} {kind : SectionKind} (h : assembly.Sorted)
    (hkind : kind.isCustom = false) (hnew : kind ∉ standardKinds assembly.sections) :
    (∃ previous, assembly.objection? kind = some (.invalidSectionOrder previous kind)) ↔
      assembly.order = .strict ∧
        ∃ other ∈ standardKinds assembly.sections, kind.precedes other = true := by
  constructor
  · rintro ⟨previous, hsome⟩
    obtain ⟨hstrict, last, hlast, hprecedes, -⟩ := (objection?_of_not_mem hkind hnew _).1 hsome
    exact ⟨hstrict, last, List.mem_of_getLast? hlast, hprecedes⟩
  · rintro ⟨hstrict, other, hmem, hprecedes⟩
    obtain ⟨last, hlast⟩ := Option.ne_none_iff_exists'.1
      (mt List.getLast?_eq_none_iff.1 (List.ne_nil_of_mem hmem))
    refine ⟨last, (objection?_of_not_mem hkind hnew _).2 ⟨hstrict, last, hlast, ?_, rfl⟩⟩
    rcases eq_or_precedes_getLast? (h hstrict) hlast hmem with rfl | hother
    · exact hprecedes
    · exact SectionKind.precedes_trans hprecedes hother

theorem Sorted.greatest {assembly : Assembly} {kind previous refused : SectionKind}
    (h : assembly.Sorted)
    (hsome : assembly.objection? kind = some (.invalidSectionOrder previous refused)) :
    refused = kind ∧ previous ∈ standardKinds assembly.sections ∧
      ∀ other ∈ standardKinds assembly.sections, previous.precedes other = false := by
  have hkind := isCustom_of_objection? hsome
  have hnew : kind ∉ standardKinds assembly.sections := by
    intro hmem
    rw [(objection?_eq_duplicate_iff hkind).2 hmem] at hsome
    exact ModuleError.noConfusion (Option.some.inj hsome)
  obtain ⟨hstrict, last, hlast, -, herror⟩ := (objection?_of_not_mem hkind hnew _).1 hsome
  obtain ⟨rfl, rfl⟩ := ModuleError.invalidSectionOrder.inj herror
  refine ⟨rfl, List.mem_of_getLast? hlast, ?_⟩
  intro other hmem
  rw [← Bool.not_eq_true]
  intro hprecedes
  rcases eq_or_precedes_getLast? (h hstrict) hlast hmem with rfl | hother
  · exact SectionKind.ne_of_precedes hprecedes rfl
  · rw [SectionKind.not_precedes_of_precedes hother] at hprecedes
    exact Bool.false_ne_true hprecedes

/-- What is taken in strict order belongs behind all that has come. -/
theorem Sorted.precedes {assembly : Assembly} {kind other : SectionKind} (h : assembly.Sorted)
    (hstrict : assembly.order = .strict) (hkind : kind.isCustom = false)
    (hnone : assembly.objection? kind = none)
    (hmem : other ∈ standardKinds assembly.sections) : other.precedes kind = true := by
  have hnew := not_mem_of_objection? hkind hnone
  have hne : kind ≠ other := by
    rintro rfl
    exact hnew hmem
  have hnot : kind.precedes other = false := by
    rw [← Bool.not_eq_true]
    intro hprecedes
    obtain ⟨previous, hsome⟩ :=
      (h.misplaced_iff hkind hnew).2 ⟨hstrict, other, hmem, hprecedes⟩
    rw [hnone] at hsome
    exact Option.some_ne_none _ hsome.symm
  exact SectionKind.precedes_of_not_precedes hkind (mem_standardKinds.1 hmem).2 hne hnot

theorem Sorted.apply {assembly : Assembly} (h : assembly.Sorted) (call : Call) :
    (assembly.apply call).1.Sorted := by
  rcases assembly.apply_cases call with hnext | hnext | ⟨contents, hnone, hnext⟩ <;> rw [hnext]
  · exact h
  · intro _
    exact byRank_nil
  · intro hstrict
    rw [ByRank, standardKinds_append]
    cases hkind : contents.kind.isCustom with
    | true => simpa [ByRank, standardKinds, hkind] using h hstrict
    | false =>
      rw [standardKinds_singleton hkind, List.pairwise_append]
      refine ⟨h hstrict, List.pairwise_singleton _ _, ?_⟩
      intro other hmem kind hmem'
      rw [List.mem_singleton.1 hmem']
      exact h.precedes hstrict hkind hnone hmem

theorem sorted_run (order : SectionOrder) (calls : List Call) : (run { order } calls).1.Sorted :=
  run_induction Sorted (fun _ call h ↦ h.apply call) (fun _ ↦ byRank_nil) calls

/-! ## What has been taken -/

theorem runs : Runs apply run where
  nil _ := rfl
  cons _ _ _ := rfl

def Call.section? : Call → Option Section
  | .add contents => some contents
  | .clear => none

/-- The sections that were taken since the last clearing. -/
def taken (calls : List Call) : List Section :=
  (calls.rtakeWhile (· ≠ .clear)).filterMap Call.section?

theorem taken_clear (calls : List Call) : taken (calls ++ [.clear]) = [] := by
  rw [taken, List.rtakeWhile_concat_neg _ _ _ (by simp)]
  rfl

theorem taken_add (calls : List Call) (contents : Section) :
    taken (calls ++ [.add contents]) = taken calls ++ [contents] := by
  rw [taken, List.rtakeWhile_concat_pos _ _ _ (by simp), List.filterMap_append]
  rfl

theorem apply_add (assembly : Assembly) (contents : Section) :
    assembly.apply (.add contents) =
      match assembly.objection? contents.kind with
      | some error => (assembly, .error error)
      | none => ({ assembly with sections := assembly.sections ++ [contents] }, .ok ()) := by
  rw [apply, add]
  cases assembly.objection? contents.kind <;> rfl

/-! ## The verdict -/

/-- The answer to a section that comes after standard sections of some kinds. -/
structure Verdict (order : SectionOrder) (kinds : List SectionKind) (kind : SectionKind)
    (answer : Answer) : Prop where
  custom : kind.isCustom = true → answer = .ok ()
  duplicate : kind.isCustom = false → (answer = .error (.duplicateSection kind) ↔ kind ∈ kinds)
  misplaced : kind.isCustom = false → kind ∉ kinds →
    ((∃ previous, answer = .error (.invalidSectionOrder previous kind)) ↔
      order = .strict ∧ ∃ other ∈ kinds, kind.precedes other = true)
  /-- A refusal for the order names the kind of greatest rank. -/
  greatest : ∀ previous refused, answer = .error (.invalidSectionOrder previous refused) →
    refused = kind ∧ previous ∈ kinds ∧ ∀ other ∈ kinds, previous.precedes other = false
  otherwise : kind.isCustom = false → kind ∉ kinds →
    ¬(order = .strict ∧ ∃ other ∈ kinds, kind.precedes other = true) → answer = .ok ()

theorem answer_add_eq_error_iff {assembly : Assembly} {contents : Section} {error : ModuleError} :
    (assembly.apply (.add contents)).2 = .error error ↔
      assembly.objection? contents.kind = some error := by
  rw [apply_add]
  cases assembly.objection? contents.kind <;> simp

theorem answer_add_eq_ok_iff {assembly : Assembly} {contents : Section} :
    (assembly.apply (.add contents)).2 = .ok () ↔
      assembly.objection? contents.kind = none := by
  rw [apply_add]
  cases assembly.objection? contents.kind <;> simp

theorem Sorted.verdict {assembly : Assembly} (h : assembly.Sorted) (contents : Section) :
    Verdict assembly.order (standardKinds assembly.sections) contents.kind
      (assembly.apply (.add contents)).2 where
  custom hcustom := answer_add_eq_ok_iff.2 (objection?_custom hcustom)
  duplicate hkind := answer_add_eq_error_iff.trans (objection?_eq_duplicate_iff hkind)
  misplaced hkind hnew := by
    simp only [answer_add_eq_error_iff]
    exact h.misplaced_iff hkind hnew
  greatest previous refused hanswer := h.greatest (answer_add_eq_error_iff.1 hanswer)
  otherwise hkind hnew hnot := by
    refine answer_add_eq_ok_iff.2 (objection?_eq_none (fun _ ↦ hnew) ?_)
    intro hstrict previous hmem
    rw [← Bool.not_eq_true]
    exact fun hprecedes ↦ hnot ⟨hstrict, previous, hmem, hprecedes⟩

theorem sections_add_of_ok {assembly : Assembly} {contents : Section}
    (h : (assembly.apply (.add contents)).2 = .ok ()) :
    (assembly.apply (.add contents)).1.sections = assembly.sections ++ [contents] := by
  rw [apply_add, answer_add_eq_ok_iff.1 h]

theorem apply_of_error {assembly : Assembly} {call : Call} {error : ModuleError}
    (h : (assembly.apply call).2 = .error error) : (assembly.apply call).1 = assembly := by
  cases call with
  | clear => exact absurd h nofun
  | add contents => rw [apply_add, answer_add_eq_error_iff.1 h]

/-- An assembly holds what it has taken since it was last cleared. -/
theorem sections_run (order : SectionOrder) (calls : List Call) :
    (run { order } calls).1.sections = taken (grantedCalls run { order } calls) := by
  refine runs.granted_induction (fun _ _ _ ↦ apply_of_error)
    (P := fun assembly calls ↦ assembly.sections = taken calls) rfl ?_ calls
  intro assembly calls call answer ih hanswer
  cases call with
  | clear =>
    rw [taken_clear]
    rfl
  | add contents => rw [taken_add, ← ih, sections_add_of_ok hanswer]

/-- Along every run a section is taken or refused by what has been taken since the assembly was last
cleared, and it is put at the end or nothing changes.  Without the calls that are refused, all other
answers and the assembly are the same. -/
theorem verdict_run (order : SectionOrder) (calls : List Call) :
    (run { order } calls).1.sections = taken (grantedCalls run { order } calls) ∧
      (∀ before contents after, calls = before ++ .add contents :: after →
        ∃ answer, (run { order } calls).2[before.length]? = some answer ∧
          Verdict order (standardKinds (taken (grantedCalls run { order } before))) contents.kind
            answer ∧
          (answer = .ok () → (run { order } (before ++ [.add contents])).1.sections =
            (run { order } before).1.sections ++ [contents]) ∧
          ∀ error, answer = .error error →
            (run { order } (before ++ [.add contents])).1 = (run { order } before).1) ∧
      (run { order } (grantedCalls run { order } calls)).1 = (run { order } calls).1 ∧
      transcript run { order } (grantedCalls run { order } calls) =
        granted (transcript run { order } calls) := by
  have hgranted := runs.without_refused (fun _ _ _ ↦ apply_of_error) { order } calls
  refine ⟨sections_run order calls, ?_, hgranted⟩
  rintro before contents after rfl
  refine ⟨_, runs.answer { order } before after _, ?_, ?_, ?_⟩
  · have hverdict := (sorted_run order before).verdict contents
    rwa [order_run, sections_run] at hverdict
  · rw [runs.state_concat]
    exact sections_add_of_ok
  · intro error herror
    rw [runs.state_concat]
    exact apply_of_error herror

/-- That a kind has come already counts for more than that it comes too late. -/
example : (run { order := .strict } [.add (.types []), .add (.code []), .add (.types []),
    .add (.start none)]).2 = [.ok (), .ok (), .error (.duplicateSection .types),
    .error (.invalidSectionOrder .code .start)] := by
  decide

end Assembly

end WasmBinary
