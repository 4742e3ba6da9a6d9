import Mathlib.Data.List.Induction

/-!
# Transcripts

The transcript of a run is its calls, each with its answer.  If a refused call changes nothing, only
the granted calls count: the run can do without the others, and no other answer tells the
difference.
-/

namespace WasmBinary

section Transcript

variable {State Call Reason Value : Type}

/-- A run makes one call after another and collects the answers. -/
structure Runs (apply : State → Call → State × Except Reason Value)
    (run : State → List Call → State × List (Except Reason Value)) : Prop where
  nil : ∀ state, run state [] = (state, [])
  cons : ∀ state call calls, run state (call :: calls) =
    ((run (apply state call).1 calls).1,
      (apply state call).2 :: (run (apply state call).1 calls).2)

def transcript (run : State → List Call → State × List (Except Reason Value)) (state : State)
    (calls : List Call) : List (Call × Except Reason Value) :=
  calls.zip (run state calls).2

/-- What a transcript holds of the calls that were not refused. -/
def granted (history : List (Call × Except Reason Value)) : List (Call × Except Reason Value) :=
  history.filter fun entry ↦ entry.2.isOk

/-- The calls of a run less those that it refused. -/
def grantedCalls (run : State → List Call → State × List (Except Reason Value)) (state : State)
    (calls : List Call) : List Call :=
  (granted (transcript run state calls)).map Prod.fst

theorem granted_append (history later : List (Call × Except Reason Value)) :
    granted (history ++ later) = granted history ++ granted later :=
  List.filter_append _ _

@[simp] theorem granted_ok (call : Call) (value : Value) :
    granted [(call, (.ok value : Except Reason Value))] = [(call, .ok value)] := rfl

@[simp] theorem granted_error (call : Call) (reason : Reason) :
    granted [(call, (.error reason : Except Reason Value))] = [] := rfl

namespace Runs

variable {apply : State → Call → State × Except Reason Value}
  {run : State → List Call → State × List (Except Reason Value)} (h : Runs apply run)

include h

theorem length_answers (state : State) (calls : List Call) :
    (run state calls).2.length = calls.length := by
  induction calls generalizing state with
  | nil =>
    rw [h.nil]
    rfl
  | cons call calls ih => rw [h.cons, List.length_cons, List.length_cons, ih]

theorem exists_answer (state : State) {calls : List Call} (i : Fin calls.length) :
    ∃ answer, (run state calls).2[i]? = some answer := by
  have hlt : i < (run state calls).2.length := by
    rw [h.length_answers]
    exact i.isLt
  exact ⟨_, List.getElem?_eq_getElem hlt⟩

theorem append (state : State) (before after : List Call) :
    run state (before ++ after) =
      ((run (run state before).1 after).1,
        (run state before).2 ++ (run (run state before).1 after).2) := by
  induction before generalizing state with
  | nil => rw [h.nil, List.nil_append, List.nil_append]
  | cons call before ih => rw [List.cons_append, h.cons, h.cons, ih, List.cons_append]

theorem state_concat (state : State) (calls : List Call) (call : Call) :
    (run state (calls ++ [call])).1 = (apply (run state calls).1 call).1 := by
  rw [h.append, h.cons, h.nil]

/-- A call is answered in the state in which the calls before it left off. -/
theorem answer (state : State) (before after : List Call) (call : Call) :
    (run state (before ++ call :: after)).2[before.length]? =
      some (apply (run state before).1 call).2 := by
  rw [h.append, h.cons, ← h.length_answers state before]
  simp

theorem transcript_cons (state : State) (call : Call) (calls : List Call) :
    transcript run state (call :: calls) =
      (call, (apply state call).2) :: transcript run (apply state call).1 calls := by
  rw [transcript, h.cons, List.zip_cons_cons, transcript]

theorem transcript_concat (state : State) (calls : List Call) (call : Call) :
    transcript run state (calls ++ [call]) =
      transcript run state calls ++ [(call, (apply (run state calls).1 call).2)] := by
  rw [transcript, h.append, List.zip_append (h.length_answers state calls).symm, h.cons, h.nil,
    List.zip_cons_cons, List.zip_nil_left, transcript]

theorem grantedCalls_concat_ok {state : State} {calls : List Call} {call : Call} {value : Value}
    (hanswer : (apply (run state calls).1 call).2 = .ok value) :
    grantedCalls run state (calls ++ [call]) = grantedCalls run state calls ++ [call] := by
  rw [grantedCalls, h.transcript_concat, hanswer, granted_append, List.map_append]
  rfl

theorem grantedCalls_concat_error {state : State} {calls : List Call} {call : Call}
    {reason : Reason} (hanswer : (apply (run state calls).1 call).2 = .error reason) :
    grantedCalls run state (calls ++ [call]) = grantedCalls run state calls := by
  rw [grantedCalls, h.transcript_concat, hanswer, granted_append, granted_error, List.append_nil]
  rfl

/-- What comes with calls that are never refused comes with the granted calls. -/
theorem filterMap_grantedCalls {α : Type} {passed? : Call → Option α}
    (hfree : ∀ state call reason, (apply state call).2 = .error reason → passed? call = none)
    (state : State) (calls : List Call) :
    (grantedCalls run state calls).filterMap passed? = calls.filterMap passed? := by
  induction calls using List.reverseRecOn with
  | nil => rfl
  | append_singleton calls call ih =>
    rw [List.filterMap_append, ← ih]
    cases hanswer : (apply (run state calls).1 call).2 with
    | ok value => rw [h.grantedCalls_concat_ok hanswer, List.filterMap_append]
    | error reason =>
      rw [h.grantedCalls_concat_error hanswer]
      simp [hfree _ _ _ hanswer]

theorem mem_grantedCalls {call : Call}
    (hfree : ∀ state reason, (apply state call).2 ≠ .error reason) (state : State)
    (calls : List Call) : call ∈ grantedCalls run state calls ↔ call ∈ calls := by
  induction calls using List.reverseRecOn with
  | nil => exact Iff.rfl
  | append_singleton calls other ih =>
    rw [List.mem_append, List.mem_singleton, ← ih]
    cases hanswer : (apply (run state calls).1 other).2 with
    | ok value => rw [h.grantedCalls_concat_ok hanswer, List.mem_append, List.mem_singleton]
    | error reason =>
      have hne : call ≠ other := by
        rintro rfl
        exact hfree _ _ hanswer
      rw [h.grantedCalls_concat_error hanswer]
      exact (or_iff_left hne).symm

variable (hkeep : ∀ state call reason, (apply state call).2 = .error reason →
  (apply state call).1 = state)

include hkeep

/-- What holds at first and is kept by every call that is granted holds along every run, of the
state and of the calls that were granted. -/
theorem granted_induction {P : State → List Call → Prop} {state : State} (hfirst : P state [])
    (hstep : ∀ next calls call value, P next calls → (apply next call).2 = .ok value →
      P (apply next call).1 (calls ++ [call]))
    (calls : List Call) : P (run state calls).1 (grantedCalls run state calls) := by
  induction calls using List.reverseRecOn with
  | nil =>
    rw [h.nil]
    exact hfirst
  | append_singleton calls call ih =>
    rw [h.state_concat]
    cases hanswer : (apply (run state calls).1 call).2 with
    | error reason =>
      rw [hkeep _ _ _ hanswer, h.grantedCalls_concat_error hanswer]
      exact ih
    | ok value =>
      rw [h.grantedCalls_concat_ok hanswer]
      exact hstep _ _ _ _ ih hanswer

/-- A run without the refused calls ends in the same state, and every call of it has the answer that
it had. -/
theorem without_refused (state : State) (calls : List Call) :
    (run state (grantedCalls run state calls)).1 = (run state calls).1 ∧
      transcript run state (grantedCalls run state calls) =
        granted (transcript run state calls) := by
  induction calls generalizing state with
  | nil => exact ⟨rfl, rfl⟩
  | cons call calls ih =>
    rw [grantedCalls, h.transcript_cons]
    cases hanswer : (apply state call).2 with
    | error reason =>
      rw [h.cons, hkeep state call reason hanswer]
      exact ih state
    | ok value =>
      obtain ⟨hstate, htranscript⟩ := ih (apply state call).1
      rw [← List.singleton_append, granted_append, granted_ok, List.singleton_append,
        List.map_cons, h.cons, h.cons, h.transcript_cons, hanswer]
      exact ⟨hstate, congrArg _ htranscript⟩

end Runs

end Transcript

end WasmBinary
