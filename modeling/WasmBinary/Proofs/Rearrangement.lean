import Mathlib.Data.List.FinRange
import Mathlib.Logic.Equiv.Defs
import WasmBinary.Proofs.Transcript

/-!
# Rearranged runs

Calls that do not overlap can be swapped.  So a run can make its calls in any order in which
overlapping calls come as they came: each call has the same answer, and the run ends in the same
state.

The calls of a rearrangement are told apart by numbers, since the same call can come several times.
-/

namespace WasmBinary

/-- The same calls in another order, in which overlapping calls come in the order that they had. -/
structure Rearrangement {Call : Type} (Overlap : Call → Call → Prop)
    (calls others : List Call) where
  /-- Where each call comes in the other order. -/
  place : Fin calls.length ≃ Fin others.length
  same : ∀ i, others[place i] = calls[i]
  keeps : ∀ i j, i < j → Overlap calls[i] calls[j] → place i < place j

section Swapping

variable {State Call Reason Value ι : Type}

/-- Neither of two calls makes a difference to the other. -/
structure Swappable (apply : State → Call → State × Except Reason Value) (call other : Call) :
    Prop where
  state : ∀ state, (apply (apply state call).1 other).1 = (apply (apply state other).1 call).1
  first : ∀ state, (apply (apply state other).1 call).2 = (apply state call).2
  second : ∀ state, (apply (apply state call).1 other).2 = (apply state other).2

/-- The numbered calls of a run, each with its answer. -/
def answered (run : State → List Call → State × List (Except Reason Value)) (state : State)
    (numbered : List (Call × ι)) : List ((Call × ι) × Except Reason Value) :=
  numbered.zip (run state (numbered.map Prod.fst)).2

def numbered (calls : List Call) (number : Fin calls.length → ι) : List (Call × ι) :=
  List.ofFn fun i ↦ (calls[i], number i)

theorem map_fst_numbered (calls : List Call) (number : Fin calls.length → ι) :
    (numbered calls number).map Prod.fst = calls := by
  rw [numbered, List.map_ofFn]
  exact List.ofFn_getElem

theorem mem_numbered {calls : List Call} {number : Fin calls.length → ι} {entry : Call × ι} :
    entry ∈ numbered calls number ↔ ∃ i, calls[i] = entry.1 ∧ number i = entry.2 := by
  simp [numbered, List.mem_ofFn, Prod.ext_iff]

theorem nodup_numbered {calls : List Call} {number : Fin calls.length → ι}
    (h : Function.Injective number) : (numbered calls number).Nodup := by
  refine List.nodup_ofFn.2 ?_
  intro i j hij
  exact h (congrArg Prod.snd hij)

theorem mem_answered_numbered {run : State → List Call → State × List (Except Reason Value)}
    {state : State} {calls : List Call} {number : Fin calls.length → ι} {entry : Call × ι}
    {answer : Except Reason Value} :
    (entry, answer) ∈ answered run state (numbered calls number) ↔
      ∃ i, calls[i] = entry.1 ∧ number i = entry.2 ∧ (run state calls).2[i]? = some answer := by
  rw [answered, map_fst_numbered, List.mem_iff_getElem?]
  simp only [List.getElem?_zip_eq_some, numbered, List.getElem?_ofFn,
    Option.dite_none_right_eq_some, Option.some.injEq, Prod.ext_iff]
  constructor
  · rintro ⟨k, ⟨hk, hcall, hnumber⟩, hanswer⟩
    exact ⟨⟨k, hk⟩, hcall, hnumber, hanswer⟩
  · rintro ⟨i, hcall, hnumber, hanswer⟩
    exact ⟨i, ⟨i.isLt, hcall, hnumber⟩, hanswer⟩

namespace Rearrangement

variable {Overlap : Call → Call → Prop} {calls others : List Call}
  (rearrangement : Rearrangement Overlap calls others)

theorem same_symm (k : Fin others.length) : calls[rearrangement.place.symm k] = others[k] := by
  simpa using (rearrangement.same (rearrangement.place.symm k)).symm

theorem numbered_perm :
    (numbered others rearrangement.place.symm).Perm (numbered calls id) := by
  rw [List.perm_ext_iff_of_nodup (nodup_numbered rearrangement.place.symm.injective)
    (nodup_numbered Function.injective_id)]
  intro entry
  simp only [mem_numbered, id]
  constructor
  · rintro ⟨k, hcall, hnumber⟩
    exact ⟨_, (rearrangement.same_symm k).trans hcall, hnumber⟩
  · rintro ⟨i, hcall, hnumber⟩
    exact ⟨_, (rearrangement.same i).trans hcall, (Equiv.symm_apply_apply _ _).trans hnumber⟩

theorem pairwise_numbered (hsymm : ∀ call other, Overlap call other → Overlap other call) :
    (numbered others rearrangement.place.symm).Pairwise fun a b ↦ Overlap a.1 b.1 → a.2 < b.2 := by
  refine List.pairwise_ofFn.2 ?_
  intro k l hlt hoverlap
  rw [← rearrangement.same_symm, ← rearrangement.same_symm] at hoverlap
  rcases lt_trichotomy (rearrangement.place.symm k) (rearrangement.place.symm l) with h | h | h
  · exact h
  · exact absurd (rearrangement.place.symm.injective h) hlt.ne
  · have hkept := rearrangement.keeps _ _ h (hsymm _ _ hoverlap)
    rw [Equiv.apply_symm_apply, Equiv.apply_symm_apply] at hkept
    exact absurd hkept hlt.asymm

end Rearrangement

namespace Runs

variable {apply : State → Call → State × Except Reason Value}
  {run : State → List Call → State × List (Except Reason Value)} (h : Runs apply run)

include h

theorem answered_cons (state : State) (first : Call × ι) (rest : List (Call × ι)) :
    answered run state (first :: rest) =
      (first, (apply state first.1).2) :: answered run (apply state first.1).1 rest := by
  simp only [answered, List.map_cons, h.cons, List.zip_cons_cons]

theorem move_to_front {call : Call × ι} {before : List (Call × ι)}
    (hswap : ∀ other ∈ before, Swappable apply other.1 call.1) (state : State)
    (after : List (Call × ι)) :
    (run state ((before ++ call :: after).map Prod.fst)).1 =
        (run state ((call :: (before ++ after)).map Prod.fst)).1 ∧
      (answered run state (before ++ call :: after)).Perm
        (answered run state (call :: (before ++ after))) := by
  induction before generalizing state with
  | nil => exact ⟨rfl, List.Perm.refl _⟩
  | cons other before ih =>
    rw [List.forall_mem_cons] at hswap
    obtain ⟨hfirst, hrest⟩ := hswap
    -- By induction the call comes right behind `other`, with which it is swapped last.
    obtain ⟨hstate, hanswered⟩ := ih hrest (apply state other.1).1
    simp only [List.cons_append, List.map_cons, h.cons, h.answered_cons, hfirst.state,
      hfirst.first, hfirst.second] at hstate hanswered ⊢
    exact ⟨hstate, (hanswered.cons _).trans (List.Perm.swap _ _ _)⟩

/-- A run of numbered calls by ascending number can be made in any order in which overlapping calls
still come by ascending number. -/
theorem run_of_perm [LinearOrder ι] {Overlap : Call → Call → Prop}
    (hswap : ∀ call other, ¬ Overlap call other → Swappable apply call other)
    {sorted others : List (Call × ι)} (hsorted : sorted.Pairwise fun a b ↦ a.2 < b.2)
    (hperm : others.Perm sorted)
    (hkeeps : others.Pairwise fun a b ↦ Overlap a.1 b.1 → a.2 < b.2) (state : State) :
    (run state (others.map Prod.fst)).1 = (run state (sorted.map Prod.fst)).1 ∧
      (answered run state others).Perm (answered run state sorted) := by
  induction sorted generalizing others state with
  | nil =>
    obtain rfl := hperm.eq_nil
    exact ⟨rfl, List.Perm.refl _⟩
  | cons call rest ih =>
    rw [List.pairwise_cons] at hsorted
    obtain ⟨hlowest, hsorted⟩ := hsorted
    -- Wherever the call with the lowest number comes, it can be made at once.
    obtain ⟨before, after, rfl⟩ := List.append_of_mem (hperm.mem_iff.2 List.mem_cons_self)
    have hfront : ∀ other ∈ before, Swappable apply other.1 call.1 := by
      intro other hmem
      apply hswap
      intro hoverlap
      have hlt : other.2 < call.2 :=
        (List.pairwise_append.1 hkeeps).2.2 other hmem call List.mem_cons_self hoverlap
      rcases List.mem_cons.1 (hperm.mem_iff.1 (List.mem_append_left _ hmem)) with rfl | hmem'
      · exact lt_irrefl _ hlt
      · exact lt_asymm hlt (hlowest other hmem')
    have hrest : (before ++ after).Perm rest :=
      (List.perm_middle.symm.trans hperm).cons_inv
    have hkept := hkeeps.sublist ((List.sublist_cons_self call after).append_left before)
    obtain ⟨hstate, hanswered⟩ := h.move_to_front hfront state after
    obtain ⟨hstate', hanswered'⟩ := ih hsorted hrest hkept (apply state call.1).1
    rw [List.map_cons, h.cons] at hstate
    rw [h.answered_cons] at hanswered
    rw [List.map_cons, h.cons, h.answered_cons]
    exact ⟨hstate.trans hstate', hanswered.trans (hanswered'.cons _)⟩

/-- If calls that do not overlap can be swapped, a rearrangement of a run ends in the same state,
and each call has the answer that it had. -/
theorem rearranged {Overlap : Call → Call → Prop}
    (hsymm : ∀ call other, Overlap call other → Overlap other call)
    (hswap : ∀ call other, ¬ Overlap call other → Swappable apply call other)
    {calls others : List Call} (rearrangement : Rearrangement Overlap calls others)
    (state : State) :
    (run state others).1 = (run state calls).1 ∧
      ∀ i, (run state others).2[rearrangement.place i]? = (run state calls).2[i]? := by
  have hsorted : (numbered calls id).Pairwise fun a b ↦ a.2 < b.2 :=
    List.pairwise_ofFn.2 fun i j hlt ↦ hlt
  obtain ⟨hstate, hanswers⟩ := h.run_of_perm hswap hsorted rearrangement.numbered_perm
    (rearrangement.pairwise_numbered hsymm) state
  rw [map_fst_numbered, map_fst_numbered] at hstate
  refine ⟨hstate, ?_⟩
  intro i
  obtain ⟨answer, hanswer⟩ := h.exists_answer state i
  have hmem : ((calls[i], i), answer) ∈ answered run state (numbered calls id) :=
    mem_answered_numbered.2 ⟨i, rfl, rfl, hanswer⟩
  obtain ⟨k, -, hnumber, hother⟩ := mem_answered_numbered.1 (hanswers.mem_iff.2 hmem)
  obtain rfl : k = rearrangement.place i := rearrangement.place.symm_apply_eq.1 hnumber
  rw [hother, hanswer]

end Runs

end Swapping

end WasmBinary
