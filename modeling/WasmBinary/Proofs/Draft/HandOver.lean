import WasmBinary.Proofs.Assembly.Modes
import WasmBinary.Proofs.Draft.Run
import WasmBinary.Proofs.Framing

/-!
# Handing over a draft

A draft can be handed over at any time, and in either order it makes the same module.  What is
handed over holds every standard kind, so no standard section can come any more.  Custom sections
can, and they are written behind everything else.
-/

namespace WasmBinary

namespace Assembly

/-! ## Assemblies with every standard kind -/

/-- Every standard kind has come, by rank. -/
def Complete (assembly : Assembly) : Prop :=
  standardKinds assembly.sections = SectionKind.wireOrder

def customsOf (sections : List Section) : List Section :=
  sections.filter fun contents ↦ contents.kind.isCustom

theorem isCustom_of_mem_customsOf {sections : List Section} {contents : Section}
    (h : contents ∈ customsOf sections) : contents.kind.isCustom = true :=
  (List.mem_filter.1 h).2

theorem standardKinds_customsOf (sections : List Section) :
    standardKinds (customsOf sections) = [] := by
  refine List.filter_eq_nil_iff.2 ?_
  intro kind hmem
  obtain ⟨contents, hcontents, rfl⟩ := List.mem_map.1 hmem
  simp [isCustom_of_mem_customsOf hcontents]

/-- The answer to a section that comes when every standard kind has come. -/
def lateAnswer (contents : Section) : Answer :=
  if contents.kind.isCustom then .ok () else .error (.duplicateSection contents.kind)

theorem Complete.append_customsOf {assembly : Assembly} (h : assembly.Complete)
    (more : List Section) :
    Complete { assembly with sections := assembly.sections ++ customsOf more } := by
  simp only [Complete, standardKinds_append, standardKinds_customsOf, List.append_nil]
  exact h

/-- Nothing is left to be sorted. -/
theorem Complete.ordered_eq {assembly : Assembly} (h : assembly.Complete) :
    assembly.ordered = assembly.sections := by
  apply ordered_eq_of_byRank
  rw [ByRank, h]
  exact SectionKind.pairwise_wireOrder

theorem Complete.apply_add {assembly : Assembly} (h : assembly.Complete) (contents : Section) :
    assembly.apply (.add contents) =
      ({ assembly with sections := assembly.sections ++ customsOf [contents] },
        lateAnswer contents) := by
  rw [Assembly.apply_add]
  cases hkind : contents.kind.isCustom with
  | true => simp [objection?_custom hkind, customsOf, lateAnswer, hkind]
  | false =>
    have hmem : contents.kind ∈ standardKinds assembly.sections := by
      rw [h]
      exact SectionKind.mem_wireOrder hkind
    simp [(objection?_eq_duplicate_iff hkind).2 hmem, customsOf, lateAnswer, hkind]

/-- Of all sections that still come, the custom ones are put at the end. -/
theorem Complete.run_adds {assembly : Assembly} (h : assembly.Complete) (more : List Section) :
    assembly.run (more.map Call.add) =
      ({ assembly with sections := assembly.sections ++ customsOf more },
        more.map lateAnswer) := by
  induction more generalizing assembly with
  | nil => simp [run, customsOf]
  | cons first rest ih =>
    -- Whatever comes first, every standard kind is there afterwards too.
    have hrest := ih (h.append_customsOf [first])
    rw [List.map_cons, runs.cons, h.apply_add, hrest]
    simp [customsOf, ← List.filter_append]

/-- Custom sections that are written last make their frames at the end of the image. -/
theorem image_append_customs {assembly next : Assembly} {customs : List Section}
    (hcustoms : ∀ contents ∈ customs, contents.kind.isCustom = true)
    (hordered : next.ordered = assembly.ordered ++ customs) (bytes : Bytes) :
    next.image = .ok bytes ↔ ∃ image frames, assembly.image = .ok image ∧
      customs.mapM Section.frame = .ok frames ∧ (∀ frame ∈ frames, frame.Fits) ∧
      bytes = image ++ frames.flatMap Frame.encode := by
  simp only [image_eq_ok_iff, hordered, framed_append, framed_customs hcustoms, List.mapM_append]
  constructor
  · rintro ⟨all, hall, hfit, rfl⟩
    obtain ⟨frames, hframes, hall⟩ := bind_eq_ok_iff.1 hall
    obtain ⟨later, hlater, ⟨⟩⟩ := bind_eq_ok_iff.1 hall
    rw [List.forall_mem_append] at hfit
    exact ⟨_, later, ⟨frames, hframes, hfit.1, rfl⟩, hlater, hfit.2, by simp⟩
  · rintro ⟨image, later, ⟨frames, hframes, hfit, rfl⟩, hlater, hfit', rfl⟩
    refine ⟨frames ++ later, ?_, List.forall_mem_append.2 ⟨hfit, hfit'⟩, by simp⟩
    exact bind_eq_ok_iff.2 ⟨_, hframes, bind_eq_ok_iff.2 ⟨_, hlater, rfl⟩⟩

end Assembly

namespace Draft

/-! ## What is handed over -/

theorem complete_assembly (draft : Draft) (order : SectionOrder) :
    Assembly.Complete ⟨order, draft.sections⟩ :=
  draft.standardKinds_sections

theorem image_eq (draft : Draft) :
    draft.image = Assembly.image ⟨.canonical, draft.sections⟩ := by
  rw [image, assembly_eq_ok]
  rfl

def Call.custom? : Call → Option CustomSection
  | .addCustom contents => some contents
  | _ => none

def addedCustoms (calls : List Call) : List CustomSection :=
  calls.filterMap Call.custom?

theorem customs_run (calls : List Call) : (run {} calls).1.customs = addedCustoms calls := by
  refine collected_run rfl ?_ ?_ calls
  · intro draft call error hrefusal
    cases call with
    | addCustom contents => exact absurd hrefusal nofun
    | _ => rfl
  · intro draft call
    cases call <;> first | rfl | exact (List.append_nil _).symm

theorem sections_run (calls : List Call) :
    (run {} calls).1.sections =
      (run {} calls).1.standardSections ++ (addedCustoms calls).map Section.custom := by
  rw [sections, customs_run]

/-- What an assembly is that has been made of a draft with some custom sections. -/
structure HandedOver (draft : Draft) (customs : List CustomSection) (order : SectionOrder)
    (assembly : Assembly) : Prop where
  order_eq : assembly.order = order
  /-- All standard sections are there, the empty ones too. -/
  sections_eq : assembly.sections =
    [ .types draft.types, .imports draft.imports, .functions draft.functions,
      .tables draft.tables, .memories draft.memories, .globals draft.globals,
      .exports draft.exports, .start draft.start, .elements draft.elements,
      .dataCount (if draft.countsData then some (nextIndex draft.data) else none),
      .code draft.code, .data draft.data ] ++ customs.map Section.custom
  /-- The ranks of the standard sections ascend, and the custom sections have none. -/
  ranks : assembly.sections.map (fun contents ↦ contents.kind.rank?) =
    (List.range' 1 12).map some ++ customs.map fun _ ↦ none
  ordered_eq : assembly.ordered = assembly.sections
  image_eq : assembly.image = draft.image
  /-- Of the sections that come afterwards, the standard ones are refused as duplicates, and the
  custom ones are taken and written behind everything else. -/
  later : ∀ more : List Section, ∃ next,
    assembly.run (more.map .add) = (next, more.map Assembly.lateAnswer) ∧
      next.order = order ∧
      next.sections = assembly.sections ++ Assembly.customsOf more ∧
      next.ordered = next.sections ∧
      ∀ bytes, next.image = .ok bytes ↔ ∃ image frames, assembly.image = .ok image ∧
        (Assembly.customsOf more).mapM Section.frame = .ok frames ∧
        (∀ frame ∈ frames, frame.Fits) ∧ bytes = image ++ frames.flatMap Frame.encode

/-- After any run a draft can be handed over in either order, as its standard sections by rank and
then its custom sections as they came. -/
theorem handedOver_run (calls : List Call) (order : SectionOrder) :
    ∃ assembly, (run {} calls).1.assembly order = .ok assembly ∧
      HandedOver (run {} calls).1 (addedCustoms calls) order assembly := by
  have hcomplete := (run {} calls).1.complete_assembly order
  have hordered := hcomplete.ordered_eq
  refine ⟨_, assembly_eq_ok _ order, ?_⟩
  constructor
  · rfl
  · exact sections_run calls
  · rw [sections_run, List.map_append, List.map_map]
    rfl
  · exact hordered
  · rw [Draft.image_eq]
    apply Assembly.image_eq_of_ordered_eq
    rw [hordered, ((run {} calls).1.complete_assembly .canonical).ordered_eq]
  · intro more
    have hnext := (hcomplete.append_customsOf more).ordered_eq
    refine ⟨_, hcomplete.run_adds more, rfl, rfl, hnext, ?_⟩
    apply Assembly.image_append_customs
    · intro contents hmem
      exact Assembly.isCustom_of_mem_customsOf hmem
    · rw [hnext, hordered]

/-- The custom section came first and is handed over last. -/
example :
    (run {} [.addCustom ⟨"a", []⟩, .requireDataCount, .importMemory "env" "m" ⟨1, none⟩,
        .addFunction ⟨[.i32], []⟩ ⟨[], [0x0b]⟩, .setStart 0]).1.assembly .strict =
      .ok ⟨.strict, [ .types [⟨[.i32], []⟩], .imports [⟨"env", "m", .memory ⟨1, none⟩⟩],
        .functions [0], .tables [], .memories [], .globals [], .exports [], .start (some 0),
        .elements [], .dataCount (some 0), .code [⟨[], [0x0b]⟩], .data [],
        .custom ⟨"a", []⟩ ]⟩ := by
  rfl

end Draft

end WasmBinary
