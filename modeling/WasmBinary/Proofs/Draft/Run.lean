import WasmBinary.Proofs.Draft.IndexSpace

/-!
# Runs of a draft

Along every run, in which calls may be refused, each index space grows at its end only.  The indices
that a draft gives out count the entities of the space, and each denotes what was passed for it in
the sections that the draft hands over.
-/

namespace WasmBinary.Draft

theorem run_append (draft : Draft) (before after : List Call) :
    (draft.run (before ++ after)).1 = ((draft.run before).1.run after).1 := by
  rw [runs.append]

/-! ## What is handed over -/

theorem standardKinds_sections (draft : Draft) :
    standardKinds draft.sections = SectionKind.wireOrder := by
  rw [sections, standardKinds_append, standardKinds_customs]
  rfl

/-- A draft can always be put together, whatever the order. -/
theorem assembly_eq_ok (draft : Draft) (order : SectionOrder) :
    draft.assembly order = .ok ⟨order, draft.sections⟩ := by
  apply Assembly.addAll_ascending
  rw [standardKinds_sections]
  exact SectionKind.pairwise_wireOrder

/-! ## What is passed for an index -/

/-- The index space that a call asks an index of, and the entity to put there.  A function is put
there with the index of its signature. -/
def Call.entity? (draft : Draft) : Call → Option (IndexSpace × Entity)
  | .importFunction source name signature =>
    some (.entities .function, .imported ⟨source, name, .function (draft.internType signature).2⟩)
  | .importTable source name type => some (.entities .table, .imported ⟨source, name, .table type⟩)
  | .importMemory source name type =>
    some (.entities .memory, .imported ⟨source, name, .memory type⟩)
  | .importGlobal source name type =>
    some (.entities .global, .imported ⟨source, name, .global type⟩)
  | .addFunction signature body =>
    some (.entities .function, .function (draft.internType signature).2 body)
  | .addTable table => some (.entities .table, .table table)
  | .addMemory memory => some (.entities .memory, .memory memory)
  | .addGlobal global => some (.entities .global, .global global)
  | .addElement segment => some (.elements, .element segment)
  | .addData segment => some (.data, .data segment)
  | _ => none

/-- The indices of a space that a run gives out, each with the entity that was passed for it. -/
def given (space : IndexSpace) : Draft → List Call → List (UInt32 × Entity)
  | _, [] => []
  | draft, call :: calls =>
    let (next, answer) := draft.apply call
    match call.entity? draft, answer with
    | some (asked, entity), .ok (some index) =>
      if asked = space then (index, entity) :: given space next calls
      else given space next calls
    | _, _ => given space next calls

/-! ## One call -/

/-- A call either puts an entity at the end of an index space, for the index of that place, or it
leaves all index spaces as they are and gives out no index of them. -/
inductive Effect (draft : Draft) (call : Call) : Prop
  | puts (space : IndexSpace) (entity : Entity)
      (hentity : call.entity? draft = some (space, entity))
      (hanswer : (draft.apply call).2 =
        .ok (some (UInt32.ofNat (draft.denoted space).length)))
      (hputs : Puts draft (draft.apply call).1 space entity)
  | keeps
      (hnone : call.entity? draft = none ∨ ∃ error, (draft.apply call).2 = .error error)
      (hkeeps : Keeps draft (draft.apply call).1)

section Effect

variable {draft : Draft} {call : Call}

theorem Effect.of_refusal {error : ModuleError} (h : call.refusal? draft = some error) :
    Effect draft call := by
  have hanswer := answer_eq_error_iff.2 h
  refine .keeps (.inr ⟨error, hanswer⟩) ?_
  rw [apply_of_error hanswer]
  exact Keeps.refl draft

theorem Effect.of_puts {space : IndexSpace} {entity : Entity} (h : call.refusal? draft = none)
    (hentity : call.entity? draft = some (space, entity))
    (hindex : call.index? draft = some (UInt32.ofNat (draft.denoted space).length))
    (hputs : Puts draft (draft.advance call) space entity) : Effect draft call := by
  refine .puts space entity hentity ?_ ?_ <;> rw [apply_of_refusal?_none h]
  · rw [hindex]
  · exact hputs

theorem Effect.of_keeps (h : call.refusal? draft = none) (hentity : call.entity? draft = none)
    (hkeeps : Keeps draft (draft.advance call)) : Effect draft call := by
  refine .keeps (.inl hentity) ?_
  rw [apply_of_refusal?_none h]
  exact hkeeps

end Effect

theorem effect {draft : Draft} (h : draft.Tallied) (call : Call) : Effect draft call := by
  cases hrefusal : call.refusal? draft with
  | some error => exact .of_refusal hrefusal
  | none =>
    cases call with
    | importFunction source name signature =>
      have hkeeps : Keeps draft { draft with types := interned draft.types signature } :=
        ⟨_, _, _, _, _, rfl⟩
      refine .of_puts hrefusal rfl (congrArg some (h.count_imported hrefusal)) ?_
      rw [internType_eq]
      exact hkeeps.puts (puts_addImport (hkeeps.tallied h) hrefusal)
    | importTable source name type =>
      exact .of_puts hrefusal rfl (congrArg some (h.count_imported hrefusal))
        (puts_addImport h hrefusal)
    | importMemory source name type =>
      exact .of_puts hrefusal rfl (congrArg some (h.count_imported hrefusal))
        (puts_addImport h hrefusal)
    | importGlobal source name type =>
      exact .of_puts hrefusal rfl (congrArg some (h.count_imported hrefusal))
        (puts_addImport h hrefusal)
    | addFunction signature body =>
      exact .of_puts hrefusal rfl (congrArg some (h.indexCount_eq .function))
        (puts_addFunction h signature body)
    | addTable table =>
      exact .of_puts hrefusal rfl (congrArg some (h.indexCount_eq .table)) (puts_addTable h table)
    | addMemory memory =>
      exact .of_puts hrefusal rfl (congrArg some (h.indexCount_eq .memory))
        (puts_addMemory h memory)
    | addGlobal global =>
      exact .of_puts hrefusal rfl (congrArg some (h.indexCount_eq .global))
        (puts_addGlobal h global)
    | addElement segment =>
      refine .of_puts hrefusal rfl ?_ (puts_addElement h segment)
      simp [Call.index?, denoted, importedEntities, definedEntities, nextIndex]
    | addData segment =>
      refine .of_puts hrefusal rfl ?_ (puts_addData h segment)
      simp [Call.index?, denoted, importedEntities, definedEntities, nextIndex]
    -- The other calls put nothing into an index space.
    | _ => exact .of_keeps hrefusal rfl ⟨_, _, _, _, _, rfl⟩

/-! ## Whole runs -/

theorem given_cons_of_asked {draft : Draft} {call : Call} {asked : IndexSpace} {entity : Entity}
    {index : UInt32} (hentity : call.entity? draft = some (asked, entity))
    (hanswer : (draft.apply call).2 = .ok (some index)) (space : IndexSpace) (calls : List Call) :
    given space draft (call :: calls) =
      if asked = space then (index, entity) :: given space (draft.apply call).1 calls
      else given space (draft.apply call).1 calls := by
  simp only [given, hentity, hanswer]

theorem given_cons_of_not_asked {draft : Draft} {call : Call}
    (h : call.entity? draft = none ∨ ∃ error, (draft.apply call).2 = .error error)
    (space : IndexSpace) (calls : List Call) :
    given space draft (call :: calls) = given space (draft.apply call).1 calls := by
  rcases h with hentity | ⟨error, hanswer⟩
  · simp only [given, hentity]
  · simp only [given, hanswer]
    cases call.entity? draft <;> rfl

theorem given_append (space : IndexSpace) (draft : Draft) (before after : List Call) :
    given space draft (before ++ after) =
      given space draft before ++ given space (draft.run before).1 after := by
  induction before generalizing draft with
  | nil => rfl
  | cons call before ih =>
    change given space draft (call :: (before ++ after)) =
      given space draft (call :: before) ++ given space ((draft.apply call).1.run before).1 after
    simp only [given, ih]
    split
    · split <;> rfl
    · rfl

theorem Effect.tallied {draft : Draft} {call : Call} (heffect : Effect draft call)
    (h : draft.Tallied) : (draft.apply call).1.Tallied := by
  cases heffect with
  | puts space entity hentity hanswer hputs => exact hputs.tallied
  | keeps hnone hkeeps => exact hkeeps.tallied h

theorem Tallied.run {draft : Draft} (h : draft.Tallied) (calls : List Call) :
    (draft.run calls).1.Tallied := by
  induction calls generalizing draft with
  | nil => exact h
  | cons call calls ih => exact ih ((effect h call).tallied h)

/-- A run puts at the end of an index space what has been passed for its indices. -/
theorem denoted_run {draft : Draft} (h : draft.Tallied) (space : IndexSpace) (calls : List Call) :
    (draft.run calls).1.denoted space =
      draft.denoted space ++ (given space draft calls).map Prod.snd := by
  induction calls generalizing draft with
  | nil => exact (List.append_nil _).symm
  | cons call calls ih =>
    have heffect := effect h call
    have hrest := ih (heffect.tallied h)
    change ((draft.apply call).1.run calls).1.denoted space = _
    rw [hrest]
    cases heffect with
    | keeps hnone hkeeps => rw [given_cons_of_not_asked hnone, hkeeps.denoted_eq]
    | puts asked entity hentity hanswer hputs =>
      rw [given_cons_of_asked hentity hanswer]
      by_cases hasked : asked = space
      · subst hasked
        rw [if_pos rfl, hputs.denoted_eq, List.append_assoc]
        rfl
      · rw [if_neg hasked, hputs.denoted_ne space (Ne.symm hasked)]

/-- The indices of a space are given out one after another. -/
theorem index_given {draft : Draft} (h : draft.Tallied) {space : IndexSpace} {calls : List Call}
    {i : Nat} {index : UInt32} {entity : Entity}
    (hgiven : (given space draft calls)[i]? = some (index, entity)) :
    index = UInt32.ofNat ((draft.denoted space).length + i) := by
  induction calls generalizing draft i with
  | nil => exact absurd hgiven nofun
  | cons call calls ih =>
    have heffect := effect h call
    have hnext := heffect.tallied h
    cases heffect with
    | keeps hnone hkeeps =>
      rw [given_cons_of_not_asked hnone] at hgiven
      rw [ih hnext hgiven, hkeeps.denoted_eq]
    | puts asked passed hentity hanswer hputs =>
      rw [given_cons_of_asked hentity hanswer] at hgiven
      by_cases hasked : asked = space
      · subst hasked
        rw [if_pos rfl] at hgiven
        cases i with
        | zero =>
          obtain ⟨rfl, -⟩ := Prod.mk.inj (Option.some.inj hgiven)
          rfl
        | succ i =>
          rw [List.getElem?_cons_succ] at hgiven
          rw [ih hnext hgiven, hputs.denoted_eq, List.length_append, List.length_singleton,
            Nat.add_assoc, Nat.add_comm 1 i]
      · rw [if_neg hasked] at hgiven
        rw [ih hnext hgiven, hputs.denoted_ne space (Ne.symm hasked)]

theorem denoted_empty (space : IndexSpace) : ({} : Draft).denoted space = [] := by
  revert space
  rw [IndexSpace.forall_iff]
  exact ⟨rfl, rfl, rfl, rfl, rfl, rfl⟩

theorem denoted_run_empty (space : IndexSpace) (calls : List Call) :
    space.denoted (run {} calls).1.sections = (given space {} calls).map Prod.snd := by
  rw [denoted_sections, denoted_run tallied_empty, denoted_empty, List.nil_append]

theorem indexCount_run (kind : ExternKind) (calls : List Call) :
    (run {} calls).1.indexCount kind =
      UInt32.ofNat (given (.entities kind) {} calls).length := by
  rw [(tallied_empty.run calls).indexCount_eq, ← denoted_sections, denoted_run_empty,
    List.length_map]

/-- A call that asks for an index is refused, or its answer is the next index that is given out. -/
theorem answer_of_asked {space : IndexSpace} {entity : Entity} {before : List Call} {call : Call}
    (hentity : call.entity? (run {} before).1 = some (space, entity)) (after : List Call) :
    (∃ error, (run {} (before ++ call :: after)).2[before.length]? = some (.error error)) ∨
      ∃ index, (run {} (before ++ call :: after)).2[before.length]? = some (.ok (some index)) ∧
        (given space {} (before ++ call :: after))[(given space {} before).length]? =
          some (index, entity) := by
  rw [runs.answer]
  cases effect (tallied_empty.run before) call with
  | keeps hnone hkeeps =>
    rcases hnone with hnone | ⟨error, herror⟩
    · rw [hnone] at hentity
      exact absurd hentity nofun
    · exact .inl ⟨error, by rw [herror]⟩
  | puts asked passed hpassed hanswer hputs =>
    obtain ⟨rfl, rfl⟩ := Prod.mk.inj (Option.some.inj (hpassed.symm.trans hentity))
    refine .inr ⟨_, by rw [hanswer], ?_⟩
    rw [given_append, given_cons_of_asked hentity hanswer, if_pos rfl,
      List.getElem?_append_right (Nat.le_refl _), Nat.sub_self]
    rfl

/-- Along every run the indices of a space are 0, 1, 2 and so on, one for every call that asks for
an index and is not refused.  Each denotes the entity that was passed for it in the sections that
are handed over, and did so ever since it was given out; there is nothing else in the index
space. -/
theorem denoted_assembly (space : IndexSpace) (calls : List Call) (order : SectionOrder)
    (hfew : (given space {} calls).length < 0x100000000) :
    ∃ assembly, (run {} calls).1.assembly order = .ok assembly ∧
      (space.denoted assembly.sections).length = (given space {} calls).length ∧
      (∀ (i : Nat) (index : UInt32) (entity : Entity),
        (given space {} calls)[i]? = some (index, entity) →
        index.toNat = i ∧ (space.denoted assembly.sections)[i]? = some entity) ∧
      (∀ before call after entity, calls = before ++ call :: after →
        call.entity? (run {} before).1 = some (space, entity) →
        (∃ error, (run {} calls).2[before.length]? = some (.error error)) ∨
          ∃ index, (run {} calls).2[before.length]? = some (.ok (some index)) ∧
            (given space {} calls)[(given space {} before).length]? = some (index, entity)) ∧
      ∀ before after, calls = before ++ after →
        space.denoted (run {} before).1.sections <+: space.denoted assembly.sections ∧
        ∀ kind, space = .entities kind →
          ((run {} before).1.indexCount kind).toNat = (given space {} before).length := by
  refine ⟨_, assembly_eq_ok _ order, ?_, ?_, ?_, ?_⟩
  · rw [denoted_run_empty, List.length_map]
  · intro i index entity hgiven
    obtain ⟨hlt, -⟩ := List.getElem?_eq_some_iff.1 hgiven
    have hindex := index_given tallied_empty hgiven
    rw [denoted_empty, List.length_nil, Nat.zero_add] at hindex
    constructor
    · rw [hindex]
      exact toNat_ofNat_of_lt (Nat.lt_trans hlt hfew)
    · rw [denoted_run_empty, List.getElem?_map, hgiven]
      rfl
  · rintro before call after entity rfl hentity
    exact answer_of_asked hentity after
  · rintro before after rfl
    constructor
    · rw [denoted_run_empty, denoted_run_empty, given_append, List.map_append]
      exact List.prefix_append _ _
    · rintro kind rfl
      rw [given_append, List.length_append] at hfew
      rw [indexCount_run]
      exact toNat_ofNat_of_lt (Nat.lt_of_le_of_lt (Nat.le_add_right _ _) hfew)

/-- The last import comes too late and is refused. -/
def lateImport : List Call :=
  [.importFunction "env" "log" ⟨[.i32], []⟩, .addFunction ⟨[], []⟩ ⟨[], [0x0b]⟩,
    .importFunction "env" "late" ⟨[], []⟩, .addFunction ⟨[.i32], []⟩ ⟨[], [0x0b]⟩]

theorem denoted_assembly_lateImport :
    (given (.entities .function) {} lateImport).length < 0x100000000 ∧
      ∃ assembly, (run {} lateImport).1.assembly .canonical = .ok assembly ∧
        (IndexSpace.denoted (.entities .function) assembly.sections).length = 3 ∧
        ∀ (i : Nat) (index : UInt32) (entity : Entity),
          (given (.entities .function) {} lateImport)[i]? = some (index, entity) →
          index.toNat = i ∧
            (IndexSpace.denoted (.entities .function) assembly.sections)[i]? = some entity := by
  have hlength : (given (.entities .function) {} lateImport).length = 3 := by decide
  have hfew : (given (.entities .function) {} lateImport).length < 0x100000000 := by
    rw [hlength]
    decide
  obtain ⟨assembly, hassembly, hsize, hgiven, -⟩ :=
    denoted_assembly (.entities .function) lateImport .canonical hfew
  exact ⟨hfew, assembly, hassembly, hsize.trans hlength, hgiven⟩

end WasmBinary.Draft
