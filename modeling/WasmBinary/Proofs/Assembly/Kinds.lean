import Mathlib.Data.List.Perm.Subperm
import Mathlib.Data.List.Sort
import WasmBinary.Assembly.Basic

/-!
# The standard kinds of a list of sections

What an assembly refuses depends on the kinds of its standard sections alone, in the order in which
they came.
-/

namespace WasmBinary

namespace SectionKind

/-! ## Kinds by rank -/

theorem rank?_injective : Function.Injective rank? := by
  intro kind other h
  cases kind <;> cases other <;> first | rfl | exact absurd h (by decide)

theorem one_le_of_rank? {kind : SectionKind} {rank : Nat} (h : kind.rank? = some rank) :
    1 ≤ rank := by
  cases kind <;> simp_all [rank?] <;> omega

theorem isCustom_eq_false_of_rank? {kind : SectionKind} {rank : Nat} (h : kind.rank? = some rank) :
    kind.isCustom = false := by
  cases kind <;> simp_all [rank?, isCustom]

theorem precedes_iff {kind other : SectionKind} :
    kind.precedes other = true ↔
      ∃ rank rank', kind.rank? = some rank ∧ other.rank? = some rank' ∧ rank < rank' := by
  rw [precedes]
  cases kind.rank? <;> cases other.rank? <;> simp

theorem not_precedes_of_precedes {kind other : SectionKind} (h : kind.precedes other = true) :
    other.precedes kind = false := by
  obtain ⟨rank, rank', hkind, hother, hlt⟩ := precedes_iff.1 h
  rw [precedes, hkind, hother]
  exact decide_eq_false (Nat.not_lt.2 (Nat.le_of_lt hlt))

theorem ne_of_precedes {kind other : SectionKind} (h : kind.precedes other = true) :
    kind ≠ other := by
  rintro rfl
  rw [not_precedes_of_precedes h] at h
  exact Bool.false_ne_true h

instance : Std.Antisymm fun kind other : SectionKind ↦ kind.precedes other = true where
  antisymm kind other h h' := by
    rw [not_precedes_of_precedes h] at h'
    exact absurd h' Bool.false_ne_true

/-- The standard kinds in the order that they have in a module. -/
def wireOrder : List SectionKind :=
  [.types, .imports, .functions, .tables, .memories, .globals, .exports, .start, .elements,
    .dataCount, .code, .data]

theorem mem_wireOrder {kind : SectionKind} (h : kind.isCustom = false) : kind ∈ wireOrder := by
  cases kind <;> simp_all [wireOrder, isCustom]

theorem pairwise_wireOrder : wireOrder.Pairwise fun kind other ↦ kind.precedes other = true := by
  decide

/-- Standard kinds by ascending rank are some of the standard kinds in their order. -/
theorem sublist_wireOrder {kinds : List SectionKind}
    (hstandard : ∀ kind ∈ kinds, kind.isCustom = false)
    (hasc : kinds.Pairwise fun kind other ↦ kind.precedes other = true) :
    kinds.Sublist wireOrder := by
  have hnodup : kinds.Nodup := hasc.imp ne_of_precedes
  refine List.sublist_of_subperm_of_pairwise (List.Nodup.subperm hnodup ?_) hasc pairwise_wireOrder
  intro kind hmem
  exact mem_wireOrder (hstandard kind hmem)

end SectionKind

/-! ## The kinds of standard sections -/

/-- The kinds of the standard sections. -/
def standardKinds (sections : List Section) : List SectionKind :=
  (sections.map Section.kind).filter fun kind ↦ !kind.isCustom

theorem mem_standardKinds {sections : List Section} {kind : SectionKind} :
    kind ∈ standardKinds sections ↔
      (∃ contents ∈ sections, contents.kind = kind) ∧ kind.isCustom = false := by
  simp [standardKinds]

theorem standardKinds_append (sections others : List Section) :
    standardKinds (sections ++ others) = standardKinds sections ++ standardKinds others := by
  simp [standardKinds]

theorem standardKinds_singleton {contents : Section} (h : contents.kind.isCustom = false) :
    standardKinds [contents] = [contents.kind] := by
  simp [standardKinds, h]

theorem standardKinds_customs (customs : List CustomSection) :
    standardKinds (customs.map Section.custom) = [] := by
  simp [standardKinds, List.filter_eq_nil_iff]

theorem standardKinds_perm {sections others : List Section} (h : sections.Perm others) :
    (standardKinds sections).Perm (standardKinds others) :=
  (h.map _).filter _

namespace Assembly

theorem holds_iff {assembly : Assembly} {kind : SectionKind} (h : kind.isCustom = false) :
    assembly.holds kind = true ↔ kind ∈ standardKinds assembly.sections := by
  simp [holds, mem_standardKinds, h]

theorem lastStandard?_eq (assembly : Assembly) :
    assembly.lastStandard? = (standardKinds assembly.sections).getLast? := by
  rw [lastStandard?, ← List.head?_filter, List.map_reverse, List.filter_reverse,
    List.head?_reverse]
  rfl

/-! ## Why a section is refused -/

section Objection

variable {assembly : Assembly} {kind : SectionKind}

theorem objection?_custom (h : kind.isCustom = true) : assembly.objection? kind = none :=
  if_pos h

theorem isCustom_of_objection? {error : ModuleError}
    (h : assembly.objection? kind = some error) : kind.isCustom = false := by
  rw [← Bool.not_eq_true]
  intro hcustom
  rw [objection?_custom hcustom] at h
  exact Option.some_ne_none _ h.symm

/-- A kind that has not come yet is refused in strict order alone, for the last standard kind. -/
theorem objection?_of_not_mem (hkind : kind.isCustom = false)
    (h : kind ∉ standardKinds assembly.sections) (error : ModuleError) :
    assembly.objection? kind = some error ↔
      assembly.order = .strict ∧
        ∃ previous, (standardKinds assembly.sections).getLast? = some previous ∧
          kind.precedes previous = true ∧ error = .invalidSectionOrder previous kind := by
  have hholds : assembly.holds kind = false := by
    rwa [← Bool.not_eq_true, holds_iff hkind]
  rw [objection?, hkind, hholds, lastStandard?_eq]
  cases assembly.order with
  | canonical => simp
  | strict =>
    cases (standardKinds assembly.sections).getLast? with
    | none => simp
    | some previous =>
      cases hprecedes : kind.precedes previous with
      | false => simp [hprecedes]
      | true => simp [hprecedes, eq_comm (a := error)]

theorem objection?_eq_duplicate_iff (hkind : kind.isCustom = false) :
    assembly.objection? kind = some (.duplicateSection kind) ↔
      kind ∈ standardKinds assembly.sections := by
  constructor
  · intro h
    by_contra hnew
    obtain ⟨-, previous, -, -, herror⟩ := (objection?_of_not_mem hkind hnew _).1 h
    exact ModuleError.noConfusion herror
  · intro hmem
    rw [objection?, hkind, (holds_iff hkind).2 hmem]
    rfl

/-- Whatever the order, a standard kind is refused if it has come. -/
theorem not_mem_of_objection? (hkind : kind.isCustom = false)
    (h : assembly.objection? kind = none) : kind ∉ standardKinds assembly.sections := by
  intro hmem
  rw [(objection?_eq_duplicate_iff hkind).2 hmem] at h
  exact Option.some_ne_none _ h

/-- A standard kind is taken if it has not come and does not belong before the last one. -/
theorem objection?_eq_none (hnew : kind.isCustom = false → kind ∉ standardKinds assembly.sections)
    (hlast : assembly.order = .strict → ∀ previous ∈ standardKinds assembly.sections,
      kind.precedes previous = false) : assembly.objection? kind = none := by
  cases hkind : kind.isCustom with
  | true => exact objection?_custom hkind
  | false =>
    rw [Option.eq_none_iff_forall_ne_some]
    intro error hsome
    obtain ⟨hstrict, previous, hprevious, hprecedes, -⟩ :=
      (objection?_of_not_mem hkind (hnew hkind) error).1 hsome
    rw [hlast hstrict previous (List.mem_of_getLast? hprevious)] at hprecedes
    exact Bool.false_ne_true hprecedes

end Objection

/-- In canonical order nothing else is refused. -/
theorem objection?_canonical {sections : List Section} {kind : SectionKind}
    (h : kind.isCustom = false → kind ∉ standardKinds sections) :
    (mk .canonical sections).objection? kind = none :=
  objection?_eq_none h nofun

/-- In any order a standard kind can come if it belongs behind all that have come. -/
theorem objection?_of_precedes {assembly : Assembly} {kind : SectionKind}
    (h : kind.isCustom = false →
      ∀ other ∈ standardKinds assembly.sections, other.precedes kind = true) :
    assembly.objection? kind = none := by
  cases hkind : kind.isCustom with
  | true => exact objection?_custom hkind
  | false =>
    refine objection?_eq_none ?_ ?_
    · intro _ hmem
      exact SectionKind.ne_of_precedes (h hkind kind hmem) rfl
    · intro _ previous hmem
      exact SectionKind.not_precedes_of_precedes (h hkind previous hmem)

end Assembly

end WasmBinary
