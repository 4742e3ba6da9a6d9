import WasmBinary.Assembly.Call
import WasmBinary.Proofs.Assembly.Kinds

/-!
# Runs of an assembly

Whatever sections come, and however often the assembly is cleared, it keeps its order, and no
standard kind occurs twice in it.
-/

namespace WasmBinary.Assembly

theorem add_eq_ok_iff {assembly next : Assembly} {contents : Section} :
    assembly.add contents = .ok next ↔
      assembly.objection? contents.kind = none ∧
        next = { assembly with sections := assembly.sections ++ [contents] } := by
  rw [add]
  cases assembly.objection? contents.kind with
  | some error => simp
  | none => simp [eq_comm]

/-! ## One call after another -/

/-- What one call does: nothing, drop all sections, or take one that is not refused. -/
theorem apply_cases (assembly : Assembly) (call : Call) :
    (assembly.apply call).1 = assembly ∨ (assembly.apply call).1 = assembly.clear ∨
      ∃ contents, assembly.objection? contents.kind = none ∧
        (assembly.apply call).1 =
          { assembly with sections := assembly.sections ++ [contents] } := by
  cases call with
  | clear => exact .inr (.inl rfl)
  | add contents =>
    cases hadd : assembly.add contents with
    | error error =>
      left
      rw [apply, hadd]
    | ok next =>
      obtain ⟨hnone, rfl⟩ := add_eq_ok_iff.1 hadd
      refine .inr (.inr ⟨contents, hnone, ?_⟩)
      rw [apply, hadd]

/-- What every call preserves, a run preserves. -/
theorem run_induction (P : Assembly → Prop)
    (hstep : ∀ assembly call, P assembly → P (assembly.apply call).1)
    {assembly : Assembly} (h : P assembly) (calls : List Call) : P (assembly.run calls).1 := by
  induction calls generalizing assembly with
  | nil => exact h
  | cons call calls ih => exact ih (hstep assembly call h)

theorem order_apply (assembly : Assembly) (call : Call) :
    (assembly.apply call).1.order = assembly.order := by
  rcases assembly.apply_cases call with h | h | ⟨contents, -, h⟩ <;> rw [h]
  rfl

theorem order_run (assembly : Assembly) (calls : List Call) :
    (assembly.run calls).1.order = assembly.order := by
  refine run_induction (fun next ↦ next.order = assembly.order) ?_ rfl calls
  intro next call h
  rw [order_apply, h]

theorem nodup_apply {assembly : Assembly} (h : (standardKinds assembly.sections).Nodup)
    (call : Call) : (standardKinds (assembly.apply call).1.sections).Nodup := by
  rcases assembly.apply_cases call with hnext | hnext | ⟨contents, hnone, hnext⟩ <;> rw [hnext]
  · exact h
  · exact List.nodup_nil
  · rw [standardKinds_append]
    cases hkind : contents.kind.isCustom with
    | true => simpa [standardKinds, hkind] using h
    | false =>
      rw [standardKinds_singleton hkind, List.nodup_append]
      refine ⟨h, List.nodup_singleton _, ?_⟩
      rintro kind hmem _ hmem' rfl
      rw [List.mem_singleton.1 hmem'] at hmem
      exact not_mem_of_objection? hkind hnone hmem

/-- No standard kind ever occurs twice. -/
theorem nodup_run (order : SectionOrder) (calls : List Call) :
    (standardKinds (run { order } calls).1.sections).Nodup := by
  refine run_induction (fun assembly ↦ (standardKinds assembly.sections).Nodup) ?_ ?_ calls
  · intro assembly call h
    exact nodup_apply h call
  · exact List.nodup_nil

/-! ## Many sections at once -/

/-- All sections are taken if each could come behind those before it. -/
theorem addAll_eq_ok {order : SectionOrder} {sections contents : List Section}
    (h : ∀ before next after, contents = before ++ next :: after →
      (mk order (sections ++ before)).objection? next.kind = none) :
    addAll ⟨order, sections⟩ contents = .ok ⟨order, sections ++ contents⟩ := by
  induction contents generalizing sections with
  | nil =>
    rw [List.append_nil]
    rfl
  | cons first rest ih =>
    have hfirst := h [] first rest rfl
    rw [List.append_nil] at hfirst
    have hadd : add ⟨order, sections⟩ first = .ok ⟨order, sections ++ [first]⟩ :=
      add_eq_ok_iff.2 ⟨hfirst, rfl⟩
    have hrest : addAll ⟨order, sections ++ [first]⟩ rest =
        .ok ⟨order, sections ++ [first] ++ rest⟩ := by
      apply ih
      rintro before next after rfl
      have hnext := h (first :: before) next after rfl
      rwa [List.append_assoc]
    rw [List.append_assoc, List.singleton_append] at hrest
    rw [addAll, List.foldlM_cons, hadd]
    exact hrest

theorem addAll_canonical {contents : List Section} (h : (standardKinds contents).Nodup) :
    addAll { order := .canonical } contents = .ok ⟨.canonical, contents⟩ := by
  apply addAll_eq_ok
  rintro before next after rfl
  apply objection?_canonical
  intro hkind hmem
  rw [← List.singleton_append, standardKinds_append, standardKinds_append,
    standardKinds_singleton hkind] at h
  exact (List.nodup_append.1 h).2.2 _ hmem _ List.mem_cons_self rfl

theorem addAll_ascending (order : SectionOrder) {contents : List Section}
    (h : (standardKinds contents).Pairwise fun kind other ↦ kind.precedes other = true) :
    addAll { order } contents = .ok ⟨order, contents⟩ := by
  apply addAll_eq_ok
  rintro before next after rfl
  apply objection?_of_precedes
  intro hkind other hmem
  rw [← List.singleton_append, standardKinds_append, standardKinds_append,
    standardKinds_singleton hkind] at h
  exact (List.pairwise_append.1 h).2.2 _ hmem _ List.mem_cons_self

end WasmBinary.Assembly
