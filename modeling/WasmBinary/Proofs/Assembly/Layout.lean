import WasmBinary.Proofs.Assembly.Kinds

/-!
# The layout of an assembly

The sections of an assembly are custom sections ahead of all standard ones, and then blocks: a
standard section with the custom sections that came right behind it.  In canonical order the blocks
are sorted by the ranks of their standard sections, and nothing moves within them.
-/

namespace WasmBinary

/-! ## Slots -/

namespace Assembly

theorem map_snd_slots (anchor : Nat) (sections : List Section) :
    (slots anchor sections).map Prod.snd = sections := by
  induction sections generalizing anchor with
  | nil => rfl
  | cons first rest ih =>
    rw [slots]
    cases first.kind.rank? <;> simp [ih]

/-- The same sections are written as have come, whatever the order. -/
theorem ordered_perm (assembly : Assembly) : assembly.ordered.Perm assembly.sections := by
  obtain ⟨order, sections⟩ := assembly
  cases order with
  | strict => exact List.Perm.refl _
  | canonical =>
    have h := ((slots 0 sections).mergeSort_perm fun slot slot' ↦ slot.1 ≤ slot'.1).map Prod.snd
    rwa [map_snd_slots] at h

end Assembly

/-! ## Blocks -/

/-- A standard section and the custom sections up to the next standard one. -/
structure Block where
  head : Section
  rank : Nat
  customs : List CustomSection
  rank_head : head.kind.rank? = some rank

namespace Block

def sections (block : Block) : List Section :=
  block.head :: block.customs.map Section.custom

def slots (block : Block) : List (Nat × Section) :=
  (2 * block.rank, block.head) ::
    block.customs.map fun contents ↦ (2 * block.rank + 1, .custom contents)

theorem slot_of_mem {block : Block} {slot : Nat × Section} (h : slot ∈ block.slots) :
    slot.1 = 2 * block.rank ∨ slot.1 = 2 * block.rank + 1 := by
  rcases List.mem_cons.1 h with rfl | h
  · exact .inl rfl
  · obtain ⟨contents, -, rfl⟩ := List.mem_map.1 h
    exact .inr rfl

theorem pairwise_slots (block : Block) : block.slots.Pairwise fun a b ↦ a.1 ≤ b.1 := by
  rw [slots, List.pairwise_cons, List.pairwise_map]
  refine ⟨?_, List.pairwise_of_forall fun _ _ ↦ Nat.le_refl _⟩
  intro slot hmem
  obtain ⟨contents, -, rfl⟩ := List.mem_map.1 hmem
  exact Nat.le_succ _

end Block

/-! ## Layouts -/

structure Layout where
  /-- The custom sections ahead of all standard ones. -/
  leading : List CustomSection
  blocks : List Block

namespace Layout

def sections (layout : Layout) : List Section :=
  layout.leading.map Section.custom ++ layout.blocks.flatMap Block.sections

def slots (layout : Layout) : List (Nat × Section) :=
  layout.leading.map (fun contents ↦ (1, .custom contents)) ++ layout.blocks.flatMap Block.slots

theorem slots_customs (anchor : Nat) (customs : List CustomSection) (rest : List Section) :
    Assembly.slots anchor (customs.map Section.custom ++ rest) =
      customs.map (fun contents ↦ (2 * anchor + 1, .custom contents)) ++
        Assembly.slots anchor rest := by
  induction customs with
  | nil => rfl
  | cons contents customs ih =>
    rw [List.map_cons, List.map_cons, List.cons_append, List.cons_append, ← ih]
    rfl

theorem slots_blocks (anchor : Nat) (blocks : List Block) :
    Assembly.slots anchor (blocks.flatMap Block.sections) = blocks.flatMap Block.slots := by
  induction blocks generalizing anchor with
  | nil => rfl
  | cons block blocks ih =>
    rw [List.flatMap_cons, List.flatMap_cons, Block.sections, List.cons_append, Assembly.slots,
      block.rank_head]
    simp only [slots_customs, ih]
    rfl

/-- The slots of the sections do not depend on where they are counted from. -/
theorem slots_sections (layout : Layout) :
    Assembly.slots 0 layout.sections = layout.slots := by
  rw [sections, slots_customs, slots_blocks]
  rfl

theorem map_snd_slots (layout : Layout) : layout.slots.map Prod.snd = layout.sections := by
  rw [← slots_sections, Assembly.map_snd_slots]

end Layout

theorem Section.exists_eq_custom {contents : Section} (h : contents.kind.rank? = none) :
    ∃ custom, contents = .custom custom := by
  rw [SectionKind.rank?_eq_none_iff] at h
  cases contents with
  | custom contents => exact ⟨contents, rfl⟩
  | _ => exact absurd h SectionKind.noConfusion

/-- All sections have a layout. -/
theorem exists_layout (sections : List Section) :
    ∃ layout : Layout, sections = layout.sections := by
  induction sections with
  | nil => exact ⟨⟨[], []⟩, rfl⟩
  | cons first rest ih =>
    obtain ⟨layout, rfl⟩ := ih
    cases hrank : first.kind.rank? with
    | none =>
      obtain ⟨contents, rfl⟩ := Section.exists_eq_custom hrank
      exact ⟨⟨contents :: layout.leading, layout.blocks⟩, rfl⟩
    | some rank => exact ⟨⟨[], ⟨first, rank, layout.leading, hrank⟩ :: layout.blocks⟩, rfl⟩

/-! ## Standard sections of a layout -/

theorem standardKinds_blocks (blocks : List Block) :
    standardKinds (blocks.flatMap Block.sections) = blocks.map fun block ↦ block.head.kind := by
  induction blocks with
  | nil => rfl
  | cons block blocks ih =>
    have hhead := SectionKind.isCustom_eq_false_of_rank? block.rank_head
    rw [List.flatMap_cons, Block.sections, ← List.singleton_append, standardKinds_append,
      standardKinds_append, standardKinds_singleton hhead, standardKinds_customs, ih]
    rfl

theorem Layout.standardKinds_sections (layout : Layout) :
    standardKinds layout.sections = layout.blocks.map fun block ↦ block.head.kind := by
  rw [sections, standardKinds_append, standardKinds_customs, standardKinds_blocks,
    List.nil_append]

end WasmBinary
