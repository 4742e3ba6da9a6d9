import WasmBinary.Proofs.Assembly.Ordering
import WasmBinary.Proofs.Assembly.Verdict
import WasmBinary.Proofs.Counted

/-!
# Strict and canonical order

What strict order takes is by rank already, so that canonical order takes it too and leaves it as it
is.  What canonical order writes is by rank, so that strict order takes it, and sorting it once more
changes nothing.
-/

namespace WasmBinary

/-! ## Layouts by rank -/

theorem Layout.byRank_iff (layout : Layout) :
    ByRank layout.sections ↔ Ascending layout.blocks := by
  rw [ByRank, standardKinds_sections, List.pairwise_map]
  refine List.Pairwise.iff fun block other ↦ ?_
  simp [SectionKind.precedes, block.rank_head, other.rank_head]

theorem ByRank.nodup {sections : List Section} (h : ByRank sections) :
    (standardKinds sections).Nodup :=
  h.imp SectionKind.ne_of_precedes

namespace Assembly

/-- Sections that come by rank are written as they came. -/
theorem ordered_of_byRank {sections : List Section} (h : ByRank sections) :
    ordered ⟨.canonical, sections⟩ = sections := by
  obtain ⟨layout, rfl⟩ := exists_layout sections
  exact Layout.ordered_sections (List.Perm.refl _) (layout.byRank_iff.1 h)

theorem ordered_eq_of_byRank {assembly : Assembly} (h : ByRank assembly.sections) :
    assembly.ordered = assembly.sections := by
  obtain ⟨order, sections⟩ := assembly
  cases order with
  | strict => rfl
  | canonical => exact ordered_of_byRank h

/-- In canonical order sections are written by rank. -/
theorem byRank_ordered {sections : List Section} (h : (standardKinds sections).Nodup) :
    ByRank (ordered ⟨.canonical, sections⟩) := by
  obtain ⟨layout, rfl⟩ := exists_layout sections
  obtain ⟨sorted, hperm, hasc⟩ := Layout.exists_ascending h
  rw [Layout.ordered_sections hperm hasc]
  exact (Layout.byRank_iff _).2 hasc

theorem byRank_ordered_run (calls : List Call) :
    ByRank (run { order := .canonical } calls).1.ordered := by
  have hnodup := nodup_run .canonical calls
  have horder := order_run { order := .canonical } calls
  generalize (run { order := .canonical } calls).1 = assembly at hnodup horder ⊢
  obtain ⟨order, sections⟩ := assembly
  obtain rfl : order = .canonical := horder
  exact byRank_ordered hnodup

theorem image_eq_of_ordered_eq {assembly other : Assembly}
    (h : assembly.ordered = other.ordered) : assembly.image = other.image := by
  rw [image, image, h]

/-! ## Many sections at once -/

theorem apply_of_add {assembly next : Assembly} {contents : Section}
    (h : assembly.add contents = .ok next) : assembly.apply (.add contents) = (next, .ok ()) := by
  rw [apply, h]

/-- What is taken as a whole is put at the end as a whole. -/
theorem Sorted.addAll {assembly next : Assembly} {contents : List Section} (h : assembly.Sorted)
    (hok : assembly.addAll contents = .ok next) :
    next.Sorted ∧ next = { assembly with sections := assembly.sections ++ contents } := by
  induction contents generalizing assembly with
  | nil =>
    obtain rfl := Except.ok.inj hok
    exact ⟨h, by rw [List.append_nil]⟩
  | cons first rest ih =>
    rw [Assembly.addAll, List.foldlM_cons] at hok
    obtain ⟨between, hfirst, hrest⟩ := bind_eq_ok_iff.1 hok
    have hbetween := h.apply (.add first)
    rw [apply_of_add hfirst] at hbetween
    obtain ⟨hnext, rfl⟩ := ih hbetween hrest
    obtain ⟨-, rfl⟩ := add_eq_ok_iff.1 hfirst
    refine ⟨hnext, ?_⟩
    rw [List.append_assoc, List.singleton_append]

/-- Whatever is taken in strict order is taken in canonical order and written as it came, with the
same image.  Whatever is written in canonical order is taken in strict order with the same image,
and in canonical order it is written as it is. -/
theorem strict_agrees_canonical :
    (∀ contents strict, addAll { order := .strict } contents = .ok strict →
      ∃ canonical, addAll { order := .canonical } contents = .ok canonical ∧
        canonical.ordered = contents ∧ canonical.image = strict.image) ∧
    ∀ calls,
      (∃ strict, addAll { order := .strict } (run { order := .canonical } calls).1.ordered =
          .ok strict ∧
        strict.image = (run { order := .canonical } calls).1.image) ∧
      ∃ again, addAll { order := .canonical } (run { order := .canonical } calls).1.ordered =
          .ok again ∧
        again.ordered = (run { order := .canonical } calls).1.ordered := by
  constructor
  · intro contents strict hstrict
    have hempty : Sorted { order := .strict } := fun _ ↦ byRank_nil
    obtain ⟨hsorted, rfl⟩ := hempty.addAll hstrict
    have hbyRank : ByRank contents := hsorted rfl
    have hordered := ordered_of_byRank hbyRank
    exact ⟨_, addAll_canonical hbyRank.nodup, hordered, image_eq_of_ordered_eq hordered⟩
  · intro calls
    have hbyRank := byRank_ordered_run calls
    refine ⟨⟨_, addAll_ascending .strict hbyRank, ?_⟩, _, addAll_ascending .canonical hbyRank, ?_⟩
    · exact image_eq_of_ordered_eq rfl
    · exact ordered_of_byRank hbyRank

end Assembly

end WasmBinary
