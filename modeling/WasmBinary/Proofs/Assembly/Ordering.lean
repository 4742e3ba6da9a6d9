import WasmBinary.Proofs.Assembly.Layout
import WasmBinary.Proofs.Assembly.Verdict
import WasmBinary.Proofs.StableSort

/-!
# The canonical order

What is written in canonical order are the custom sections ahead of all standard ones, and then the
blocks by strictly ascending rank, each as it came.  So the order in which the blocks came makes no
difference.
-/

namespace WasmBinary

/-- Blocks by strictly ascending rank. -/
def Ascending (blocks : List Block) : Prop :=
  blocks.Pairwise fun block other ↦ block.rank < other.rank

namespace Layout

variable {leading : List CustomSection} {blocks sorted : List Block}

theorem sections_perm (leading : List CustomSection) (hperm : sorted.Perm blocks) :
    (mk leading sorted).sections.Perm (mk leading blocks).sections :=
  (hperm.flatMap_right _).append_left _

/-! ## Sorting -/

theorem pairwise_slots (hasc : Ascending sorted) :
    (mk leading sorted).slots.Pairwise fun a b ↦ a.1 ≤ b.1 := by
  rw [slots, List.pairwise_append, List.pairwise_map, List.pairwise_flatMap]
  refine ⟨List.pairwise_of_forall fun _ _ ↦ Nat.le_refl 1, ⟨?_, hasc.imp ?_⟩, ?_⟩
  · intro block _
    exact block.pairwise_slots
  · intro block other hlt slot hslot slot' hslot'
    have h := Block.slot_of_mem hslot
    have h' := Block.slot_of_mem hslot'
    omega
  · intro slot hslot slot' hslot'
    obtain ⟨contents, -, rfl⟩ := List.mem_map.1 hslot
    obtain ⟨block, -, hslot'⟩ := List.mem_flatMap.1 hslot'
    have hrank := SectionKind.one_le_of_rank? block.rank_head
    have h' := Block.slot_of_mem hslot'
    change 1 ≤ slot'.1
    omega

theorem withKey_slots_eq_nil {block : Block} {k : Nat} (h : k ≠ 2 * block.rank)
    (h' : k ≠ 2 * block.rank + 1) : withKey Prod.fst k block.slots = [] := by
  rw [List.eq_nil_iff_forall_not_mem]
  intro slot hmem
  obtain ⟨hslot, rfl⟩ := mem_withKey.1 hmem
  rcases Block.slot_of_mem hslot with hkey | hkey
  · exact h hkey
  · exact h' hkey

/-- Blocks of different rank have no slot in common. -/
theorem withKey_slots_disjoint {block other : Block} (h : block.rank < other.rank) (k : Nat) :
    withKey Prod.fst k block.slots = [] ∨ withKey Prod.fst k other.slots = [] := by
  rcases Nat.lt_or_ge k (2 * other.rank) with hk | hk
  · exact .inr (withKey_slots_eq_nil (by omega) (by omega))
  · exact .inl (withKey_slots_eq_nil (by omega) (by omega))

theorem withKey_slots (hperm : sorted.Perm blocks) (hasc : Ascending sorted) (k : Nat) :
    withKey Prod.fst k (mk leading sorted).slots =
      withKey Prod.fst k (mk leading blocks).slots := by
  have hblocks : (sorted.flatMap fun block ↦ withKey Prod.fst k block.slots) =
      blocks.flatMap fun block ↦ withKey Prod.fst k block.slots :=
    flatMap_eq_of_perm hperm (hasc.imp fun h ↦ withKey_slots_disjoint h k)
  simp only [withKey] at hblocks
  simp only [slots, withKey, List.filter_append, List.filter_flatMap, hblocks]

theorem ordered_sections (hperm : sorted.Perm blocks) (hasc : Ascending sorted) :
    Assembly.ordered ⟨.canonical, (mk leading blocks).sections⟩ =
      (mk leading sorted).sections := by
  rw [Assembly.ordered, slots_sections]
  change ((mk leading blocks).slots.mergeSort fun a b ↦ a.1 ≤ b.1).map Prod.snd = _
  rw [mergeSort_eq_of_withKey_eq (pairwise_slots hasc) (withKey_slots hperm hasc),
    map_snd_slots]

/-- If no standard kind occurs twice, the blocks can be put in order. -/
theorem exists_ascending {layout : Layout} (h : (standardKinds layout.sections).Nodup) :
    ∃ sorted, sorted.Perm layout.blocks ∧ Ascending sorted := by
  have hblocks : layout.blocks.Pairwise fun block other ↦ block.rank ≠ other.rank := by
    rw [standardKinds_sections] at h
    refine (List.pairwise_map.1 h).imp ?_
    intro block other hkind hrank
    apply hkind
    apply SectionKind.rank?_injective
    rw [block.rank_head, other.rank_head, hrank]
  have hperm := layout.blocks.mergeSort_perm fun a b ↦ a.rank ≤ b.rank
  have hsorted := pairwise_mergeSort_key Block.rank layout.blocks
  have hne := (hperm.pairwise_iff fun h ↦ Ne.symm h).2 hblocks
  exact ⟨_, hperm, (hsorted.and hne).imp fun h ↦ Nat.lt_of_le_of_ne h.1 h.2⟩

end Layout

theorem Layout.sublist_wireOrder {layout : Layout} (hasc : Ascending layout.blocks) :
    (standardKinds layout.sections).Sublist SectionKind.wireOrder := by
  apply SectionKind.sublist_wireOrder
  · intro kind hmem
    simpa using (List.mem_filter.1 hmem).2
  · rw [standardKinds_sections, List.pairwise_map]
    refine hasc.imp ?_
    intro block other hlt
    exact SectionKind.precedes_iff.2 ⟨_, _, block.rank_head, other.rank_head, hlt⟩

/-! ## Every run -/

namespace Assembly

/-- After any run in canonical order, the sections that have been taken are written as custom
sections ahead of all standard ones, and then the blocks by strictly ascending rank, each as it
came.  The same would be written had the blocks come in another order. -/
theorem ordered_run_canonical (calls : List Call) :
    ∃ (layout : Layout) (sorted : List Block),
      taken (grantedCalls run { order := .canonical } calls) = layout.sections ∧
      (run { order := .canonical } calls).1.sections = layout.sections ∧
      sorted.Perm layout.blocks ∧ Ascending sorted ∧
      (run { order := .canonical } calls).1.ordered =
        (Layout.mk layout.leading sorted).sections ∧
      (run { order := .canonical } calls).1.ordered.Perm
        (run { order := .canonical } calls).1.sections ∧
      (standardKinds (run { order := .canonical } calls).1.ordered).Sublist
        SectionKind.wireOrder ∧
      ∀ others, others.Perm layout.blocks →
        ∃ next, addAll { order := .canonical } (Layout.mk layout.leading others).sections =
            .ok next ∧
          next.ordered = (run { order := .canonical } calls).1.ordered ∧
          next.image = (run { order := .canonical } calls).1.image := by
  have hnodup := nodup_run .canonical calls
  have horder := order_run { order := .canonical } calls
  rw [← sections_run]
  generalize (run { order := .canonical } calls).1 = assembly at hnodup horder ⊢
  obtain ⟨order, sections⟩ := assembly
  obtain rfl : order = .canonical := horder
  obtain ⟨layout, rfl⟩ := exists_layout sections
  obtain ⟨sorted, hperm, hasc⟩ := Layout.exists_ascending hnodup
  have hordered : ∀ {others : List Block}, others.Perm layout.blocks →
      ordered ⟨.canonical, (Layout.mk layout.leading others).sections⟩ =
        (Layout.mk layout.leading sorted).sections := by
    intro others hothers
    exact Layout.ordered_sections (hperm.trans hothers.symm) hasc
  have hthis := hordered (List.Perm.refl layout.blocks)
  refine ⟨layout, sorted, rfl, rfl, hperm, hasc, hthis, ordered_perm _, ?_, ?_⟩
  · rw [hthis]
    exact Layout.sublist_wireOrder hasc
  · intro others hothers
    have hadded := standardKinds_perm (Layout.sections_perm layout.leading hothers)
    refine ⟨_, addAll_canonical (hadded.nodup_iff.2 hnodup), ?_, ?_⟩
    · rw [hordered hothers, hthis]
    · rw [image, image, hordered hothers, hthis]

example : ordered ⟨.canonical, [.custom ⟨"a", []⟩, .start (some 0), .custom ⟨"b", []⟩, .types []]⟩ =
    [.custom ⟨"a", []⟩, .types [], .start (some 0), .custom ⟨"b", []⟩] := by cbv

end Assembly

end WasmBinary
