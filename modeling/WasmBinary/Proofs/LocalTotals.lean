import WasmBinary.Proofs.Draft.Conformance
import WasmBinary.Proofs.EmptySections
import WasmBinary.Proofs.InFull
import WasmBinary.Proofs.LocalRuns

/-!
# Locals in all

By the format a function has fewer than `2 ^ 32` locals, all runs of its body taken together.  Each
run has a count within that bound, but no writing looks at the total.  A body is written whenever
its sizes fit, so one with too many locals is not refused, and what is written for it is malformed.
-/

namespace WasmBinary

/-- Whether all that can be written meets a condition, if that depends on what is written for. -/
theorem ChecksSizes.forall_ok_iff {α : Type} {sizes : List Nat} {encoded : Except ModuleError α}
    {P : α → Prop} {Q : Prop} (h : ChecksSizes sizes encoded)
    (hwritten : ∀ a, encoded = .ok a → (P a ↔ Q)) :
    (∀ a, encoded = .ok a → P a) ↔ Q ∨ ∃ n ∈ sizes, 0x100000000 ≤ n := by
  constructor
  · intro hall
    by_cases hfit : ∀ n ∈ sizes, n < 0x100000000
    · obtain ⟨a, ha⟩ := h.exists_ok hfit
      exact .inl ((hwritten a ha).1 (hall a ha))
    · simp only [not_forall, not_lt] at hfit
      obtain ⟨n, hmem, hlarge⟩ := hfit
      exact .inr ⟨n, hmem, hlarge⟩
  · rintro (hQ | ⟨n, hmem, hlarge⟩) a ha
    · exact (hwritten a ha).2 hQ
    · exact absurd (h.exists_ok_iff.1 ⟨a, ha⟩ n hmem) (Nat.not_lt.2 hlarge)

/-! ## Bodies -/

namespace FuncBody

/-- Bytes that are one body by the grammar, and the locals of that body are not too many. -/
def WellFormed (written : Bytes) : Prop :=
  ∃ body, Parser.runAll Parser.funcBody written = some body ∧ body.localCount < 0x100000000

/-- The bytes of a body declare the locals of that body, so many as they are. -/
theorem wellFormed_iff {body : FuncBody} {written : Bytes} (h : body.encode = .ok written) :
    WellFormed written ↔ body.localCount < 0x100000000 := by
  rw [WellFormed, (Parser.decodes_funcBody h).runAll]
  simp

end FuncBody

/-! ## Modules -/

/-- A module that can be read back, and none of its functions has too many locals. -/
def LocalsFit (bytes : Bytes) : Prop :=
  ∃ sections, readModule bytes = some sections ∧
    ∀ body ∈ sections.flatMap Section.bodies, body.localCount < 0x100000000

theorem localsFit_iff {bytes : Bytes} {sections : List Section}
    (h : readModule bytes = some sections) :
    LocalsFit bytes ↔
      ∀ body ∈ sections.flatMap Section.bodies, body.localCount < 0x100000000 := by
  rw [LocalsFit, h]
  simp

theorem Assembly.localsFit_image_iff {assembly : Assembly} {bytes : Bytes}
    (h : assembly.image = .ok bytes) :
    LocalsFit bytes ↔
      ∀ contents ∈ assembly.sections, ∀ body ∈ contents.bodies, body.localCount < 0x100000000 := by
  have hbodies := flatMap_framed (fun _ ↦ Section.Vacant.bodies) assembly.ordered
  rw [localsFit_iff (readModule_image h), hbodies]
  simp only [List.mem_flatMap, assembly.ordered_perm.mem_iff]
  constructor
  · intro hall contents hmem body hbody
    exact hall body ⟨contents, hmem, hbody⟩
  · rintro hall body ⟨contents, hmem, hbody⟩
    exact hall contents hmem body hbody

theorem Draft.localsFit_image_iff {calls : List Call} {bytes : Bytes}
    (h : (run {} calls).1.image = .ok bytes) :
    LocalsFit bytes ↔
      ∀ function ∈ addedFunctions calls, function.2.localCount < 0x100000000 := by
  rw [image_eq] at h
  have hread := Assembly.readModule_image h
  rw [((run {} calls).1.complete_assembly .canonical).ordered_eq] at hread
  rw [localsFit_iff hread, bodies_framed, code_run]
  exact List.forall_mem_map

/-- What is written for a body, for sections or for a draft has no function with too many locals
exactly if none has been given them, or if some size does not fit, so that nothing is written.
Locals that are given one by one are not too many, as long as their list is within the bound. -/
theorem locals_wellFormed_iff (body : FuncBody) (assembly : Assembly) (calls : List Draft.Call) :
    ((∀ written, body.encode = .ok written → FuncBody.WellFormed written) ↔
      body.localCount < 0x100000000 ∨ ∃ n ∈ body.sizes, 0x100000000 ≤ n) ∧
    ((∀ bytes, assembly.image = .ok bytes → LocalsFit bytes) ↔
      (∀ contents ∈ assembly.sections, ∀ body ∈ contents.bodies, body.localCount < 0x100000000) ∨
        ∃ n ∈ assembly.sizes, 0x100000000 ≤ n) ∧
    ((∀ bytes, (Draft.run {} calls).1.image = .ok bytes → LocalsFit bytes) ↔
      (∀ function ∈ Draft.addedFunctions calls, function.2.localCount < 0x100000000) ∨
        ∃ n ∈ Assembly.sizes ⟨.canonical, (Draft.run {} calls).1.sections⟩, 0x100000000 ≤ n) ∧
    ∀ (types : List ValType) (code : Bytes), types.length < 0x100000000 →
      (FuncBody.ofLocalTypes types code).localCount < 0x100000000 := by
  refine ⟨?_, ?_, ?_, fun types code hfew ↦ ?_⟩
  · exact body.checksSizes.forall_ok_iff fun _ ↦ FuncBody.wellFormed_iff
  · exact assembly.checksSizes_image.forall_ok_iff fun _ ↦ Assembly.localsFit_image_iff
  · have hchecks := Assembly.checksSizes_image ⟨.canonical, (Draft.run {} calls).1.sections⟩
    rw [← Draft.image_eq] at hchecks
    exact hchecks.forall_ok_iff fun _ ↦ Draft.localsFit_image_iff
  · rwa [FuncBody.localCount_eq, FuncBody.ofLocalTypes, LocalRun.expand_compress hfew]

/-- Two runs, each within the bound, with one local too many in all. -/
def overfull : FuncBody :=
  ⟨[⟨0xffffffff, .i32⟩, ⟨1, .i32⟩], [0x0b]⟩

def overfullBody : Bytes :=
  [10, 2, 0xff, 0xff, 0xff, 0xff, 0x0f, 0x7f, 1, 0x7f, 0x0b]

def overfullImage : Bytes :=
  preamble ++ [1, 4, 1, 0x60, 0, 0, 3, 2, 1, 0, 10, 12, 1] ++ overfullBody

theorem overfull_written :
    overfull.localCount = 0x100000000 ∧
      overfull.encode = .ok overfullBody ∧ ¬FuncBody.WellFormed overfullBody ∧
      (Draft.run {} [.addFunction ⟨[], []⟩ overfull]).1.image = .ok overfullImage ∧
      ¬LocalsFit overfullImage := by
  have htotal : overfull.localCount = 0x100000000 := rfl
  have hbody : overfull.encode = .ok overfullBody := by cbv
  have himage : (Draft.run {} [.addFunction ⟨[], []⟩ overfull]).1.image = .ok overfullImage := by
    rw [Draft.image_eq, Assembly.image, (Draft.complete_assembly _ .canonical).ordered_eq]
    decide +kernel
  refine ⟨htotal, hbody, fun h ↦ ?_, himage, fun h ↦ ?_⟩
  · have hcount := (FuncBody.wellFormed_iff hbody).1 h
    omega
  · have hcount : overfull.localCount < 0x100000000 :=
      (Draft.localsFit_image_iff himage).1 h ⟨⟨[], []⟩, overfull⟩ List.mem_cons_self
    omega

end WasmBinary
