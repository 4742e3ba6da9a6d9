import WasmBinary.Proofs.Draft.HandOver
import WasmBinary.Proofs.Emissions

/-!
# Sections that declare nothing

Such a section takes part in the ordering of an assembly, but it leaves no byte in the image.  If it
is left out, the image stays as it is.  In canonical order there is one condition: no custom section
may have come right behind it, since the custom section would move to another place.
-/

namespace WasmBinary

/-- What remains of the sections of an assembly when some of those are shed that declare nothing.
In canonical order a section is shed only if no custom section came right behind it. -/
inductive Sheds (order : SectionOrder) : List Section → List Section → Prop
  | nil : Sheds order [] []
  | keep (first : Section) {rest kept : List Section} (h : Sheds order rest kept) :
    Sheds order (first :: rest) (first :: kept)
  | shed {first : Section} {rest kept : List Section} (hempty : first.isEmpty = true)
    (hbehind : order = .canonical → ∀ next ∈ rest.head?, next.kind.isCustom = false)
    (h : Sheds order rest kept) : Sheds order (first :: rest) kept

namespace Sheds

variable {order : SectionOrder} {sections kept : List Section}

theorem sublist (h : Sheds order sections kept) : kept.Sublist sections := by
  induction h with
  | nil => exact List.Sublist.refl []
  | keep first h ih => exact ih.cons_cons first
  | shed hempty hbehind h ih => exact ih.cons _

theorem standardKinds_sublist (h : Sheds order sections kept) :
    (standardKinds kept).Sublist (standardKinds sections) :=
  (h.sublist.map Section.kind).filter _

theorem framed_eq (h : Sheds order sections kept) : framed kept = framed sections := by
  induction h with
  | nil => rfl
  | keep first h ih =>
    cases hempty : first.isEmpty with
    | true => rw [framed_cons_of_isEmpty hempty, framed_cons_of_isEmpty hempty, ih]
    | false => rw [framed_cons_of_not_isEmpty hempty, framed_cons_of_not_isEmpty hempty, ih]
  | shed hempty hbehind h ih => rw [framed_cons_of_isEmpty hempty, ih]

end Sheds

/-! ## Canonical order -/

theorem Section.isCustom_of_isEmpty {contents : Section} (h : contents.isEmpty = true) :
    contents.kind.isCustom = false := by
  cases contents with
  | custom contents => exact absurd h Bool.false_ne_true
  | _ => rfl

namespace Assembly

/-- The anchor matters to the custom sections in front of the first standard section alone. -/
theorem slots_eq_of_head? {sections : List Section}
    (h : ∀ next ∈ sections.head?, next.kind.isCustom = false) (anchor anchor' : Nat) :
    slots anchor sections = slots anchor' sections := by
  cases sections with
  | nil => rfl
  | cons first rest =>
    obtain ⟨rank, hrank⟩ := SectionKind.exists_rank? (h first rfl)
    simp only [slots, hrank]

/-- The slots of the sections that declare something. -/
def framedSlots (anchor : Nat) (sections : List Section) : List (Nat × Section) :=
  (slots anchor sections).filter fun slot ↦ !slot.2.isEmpty

theorem framed_ordered (sections : List Section) :
    framed (ordered ⟨.canonical, sections⟩) =
      ((framedSlots 0 sections).mergeSort fun slot slot' ↦ slot.1 ≤ slot'.1).map Prod.snd := by
  rw [framedSlots, ← filter_mergeSort Prod.fst, framed, ordered, List.filter_map]
  rfl

theorem framedSlots_cons (anchor : Nat) (first : Section) (rest : List Section) :
    framedSlots anchor (first :: rest) =
      match first.kind.rank? with
      | some rank => if first.isEmpty then framedSlots rank rest
        else (2 * rank, first) :: framedSlots rank rest
      | none => if first.isEmpty then framedSlots anchor rest
        else (2 * anchor + 1, first) :: framedSlots anchor rest := by
  rw [framedSlots, slots]
  cases first.kind.rank? <;> cases hempty : first.isEmpty <;> simp [framedSlots, hempty]

theorem framedSlots_of_sheds {sections kept : List Section}
    (h : Sheds .canonical sections kept) (anchor : Nat) :
    framedSlots anchor kept = framedSlots anchor sections := by
  induction h generalizing anchor with
  | nil => rfl
  | keep first h ih => simp only [framedSlots_cons, ih]
  | @shed first rest kept hempty hbehind h ih =>
    -- A section that declares nothing is a standard one, and only its rank is left of it.
    obtain ⟨rank, hrank⟩ := SectionKind.exists_rank? (Section.isCustom_of_isEmpty hempty)
    have hslots := slots_eq_of_head? (hbehind rfl) rank anchor
    rw [ih, framedSlots_cons, hrank]
    simp only [hempty, framedSlots, hslots, if_true]

theorem framed_ordered_of_sheds {order : SectionOrder} {sections kept : List Section}
    (h : Sheds order sections kept) :
    framed (ordered ⟨order, kept⟩) = framed (ordered ⟨order, sections⟩) := by
  cases order with
  | strict => exact h.framed_eq
  | canonical => rw [framed_ordered, framed_ordered, framedSlots_of_sheds h]

/-! ## Images -/

/-- What remains can be put together as before. -/
theorem addAll_of_sheds {order : SectionOrder} {calls : List Call} {kept : List Section}
    (h : Sheds order (run { order } calls).1.sections kept) :
    addAll { order } kept = .ok ⟨order, kept⟩ := by
  cases order with
  | strict =>
    exact addAll_ascending .strict ((sorted_run .strict calls (order_run _ _)).sublist
      h.standardKinds_sublist)
  | canonical => exact addAll_canonical ((nodup_run .canonical calls).sublist
      h.standardKinds_sublist)

theorem image_eq_preamble_iff (assembly : Assembly) :
    assembly.image = .ok preamble ↔
      ∀ contents ∈ assembly.sections, contents.kind.isCustom = false ∧ contents.isEmpty = true := by
  have hframed : framed assembly.ordered = [] ↔
      ∀ contents ∈ assembly.sections, contents.kind.isCustom = false ∧ contents.isEmpty = true := by
    simp only [framed, List.filter_eq_nil_iff, Bool.not_eq_true', Bool.not_eq_false,
      assembly.ordered_perm.mem_iff]
    refine forall₂_congr fun contents _ ↦ ⟨fun hempty ↦ ?_, And.right⟩
    exact ⟨Section.isCustom_of_isEmpty hempty, hempty⟩
  rw [← hframed, image_eq_ok_iff]
  constructor
  · rintro ⟨frames, hframes, -, hbytes⟩
    have hnil : frames = [] := by
      cases frames with
      | nil => rfl
      | cons frame frames => simp [Frame.encode] at hbytes
    subst hnil
    exact List.forall₂_nil_right_iff.1 (forall₂_of_mapM hframes)
  · intro hnil
    exact ⟨[], by rw [hnil]; rfl, List.forall_mem_nil _, by simp⟩

end Assembly

/-! ## Drafts -/

theorem framed_framed (sections : List Section) : framed (framed sections) = framed sections := by
  simp [framed]

namespace Draft

/-- What has to be put together of a draft: the standard sections that declare something, by rank,
and the custom sections as they came. -/
def framedSections (draft : Draft) : List Section :=
  framed draft.standardSections ++ draft.customs.map Section.custom

theorem framed_framedSections (draft : Draft) :
    framed draft.framedSections = framed draft.sections := by
  rw [framedSections, sections, framed_append, framed_append, framed_framed]

theorem byRank_framedSections (draft : Draft) : ByRank draft.framedSections := by
  have hsub : draft.framedSections.Sublist draft.sections :=
    List.filter_sublist.append (List.Sublist.refl _)
  have hkinds : (standardKinds draft.framedSections).Sublist (standardKinds draft.sections) :=
    (hsub.map _).filter _
  rw [standardKinds_sections] at hkinds
  exact SectionKind.pairwise_wireOrder.sublist hkinds

theorem image_framedSections (draft : Draft) (order : SectionOrder) :
    Assembly.image ⟨order, draft.framedSections⟩ = draft.image := by
  rw [image_eq]
  apply Assembly.image_eq_of_framed_eq
  rw [Assembly.ordered_eq_of_byRank draft.byRank_framedSections,
    (draft.complete_assembly .canonical).ordered_eq, framed_framedSections]

end Draft

/-- Sections that declare nothing are inert.  Some of them can be left out of an assembly, those of
them in canonical order behind which no custom section came, and the image is the same.  The image
is the preamble alone exactly if there is nothing else.  Of the twelve standard sections of a draft
only those that declare something have to be put together for its image. -/
theorem emptySections_inert :
    (∀ order calls kept, Sheds order (Assembly.run { order } calls).1.sections kept →
      Assembly.addAll { order } kept = .ok ⟨order, kept⟩ ∧
        Assembly.image ⟨order, kept⟩ = (Assembly.run { order } calls).1.image) ∧
    (∀ order calls, (Assembly.run { order } calls).1.image = .ok preamble ↔
      ∀ contents ∈ (Assembly.run { order } calls).1.sections,
        contents.kind.isCustom = false ∧ contents.isEmpty = true) ∧
    ∀ calls draft, (Draft.run {} calls).1 = draft → ∀ order, ∃ assembly,
      Assembly.addAll { order }
          (framed
              [ .types draft.types, .imports draft.imports, .functions draft.functions,
                .tables draft.tables, .memories draft.memories, .globals draft.globals,
                .exports draft.exports, .start draft.start, .elements draft.elements,
                .dataCount (if draft.countsData then some (nextIndex draft.data) else none),
                .code draft.code, .data draft.data ] ++
            (Draft.addedCustoms calls).map Section.custom) = .ok assembly ∧
        assembly.image = draft.image := by
  refine ⟨?_, fun order calls ↦ Assembly.image_eq_preamble_iff _, ?_⟩
  · intro order calls kept h
    refine ⟨Assembly.addAll_of_sheds h, ?_⟩
    apply Assembly.image_eq_of_framed_eq
    rw [Assembly.framed_ordered_of_sheds h]
    have horder := Assembly.order_run { order } calls
    generalize (Assembly.run { order } calls).1 = assembly at horder
    subst horder
    rfl
  · rintro calls draft rfl order
    rw [← Draft.customs_run]
    exact ⟨_, Assembly.addAll_ascending order (Draft.byRank_framedSections _),
      Draft.image_framedSections _ order⟩

/-- The custom section came behind the start, so that the code and the types can both be shed. -/
def idleCalls : List Assembly.Call :=
  [.add (.code []), .add (.start (some 7)), .add (.custom ⟨"a", []⟩), .add (.types [])]

/-- A draft with a custom section, a function and its signature. -/
def singleFunction : List Draft.Call :=
  [.addCustom ⟨"a", []⟩, .addFunction ⟨[], []⟩ ⟨[], [0x0b]⟩]

theorem emptySections_inert_idleCalls :
    Sheds .canonical (Assembly.run {} idleCalls).1.sections
        [.start (some 7), .custom ⟨"a", []⟩] ∧
      Assembly.addAll {} [.start (some 7), .custom ⟨"a", []⟩] =
        .ok ⟨.canonical, [.start (some 7), .custom ⟨"a", []⟩]⟩ ∧
      Assembly.image ⟨.canonical, [.start (some 7), .custom ⟨"a", []⟩]⟩ =
        (Assembly.run {} idleCalls).1.image ∧
      ∃ assembly,
        Assembly.addAll { order := .strict }
            [ .types [⟨[], []⟩], .functions [0], .code [⟨[], [0x0b]⟩], .custom ⟨"a", []⟩ ] =
          .ok assembly ∧
        assembly.image = (Draft.run {} singleFunction).1.image := by
  have hsheds : Sheds .canonical (Assembly.run {} idleCalls).1.sections
      [.start (some 7), .custom ⟨"a", []⟩] := by
    refine .shed rfl ?_ (.keep _ (.keep _ (.shed rfl ?_ .nil)))
    · rintro - next ⟨⟩
      rfl
    · exact fun _ ↦ nofun
  obtain ⟨hadded, himage⟩ := emptySections_inert.1 .canonical idleCalls _ hsheds
  exact ⟨hsheds, hadded, himage, emptySections_inert.2.2 singleFunction _ rfl .strict⟩

/-- Without the start in front of it, the custom section would be written ahead of the types. -/
example :
    Assembly.ordered ⟨.canonical, [.start none, .custom ⟨"a", []⟩, .types [⟨[], []⟩]]⟩ =
      [.types [⟨[], []⟩], .start none, .custom ⟨"a", []⟩] ∧
    Assembly.ordered ⟨.canonical, [.custom ⟨"a", []⟩, .types [⟨[], []⟩]]⟩ =
      [.custom ⟨"a", []⟩, .types [⟨[], []⟩]] :=
  ⟨by cbv, by cbv⟩

end WasmBinary
