import WasmBinary.Proofs.Grammar.Taking
import WasmBinary.Proofs.Sizes

/-!
# Segments in their shortest form

The grammar has two forms for some segments: an active one for the first table or memory may leave
its index out or name it.  Besides, every integer in a form can be padded.  What is written for a
segment is shorter than any other byte string that is read as that segment.
-/

namespace WasmBinary

namespace Parser

/-- The form of a segment stands in front of it. -/
def leadingForm (bytes : Bytes) : Option UInt32 :=
  (u32.run bytes).map Prod.fst

theorem leadingForm_append {first : Bytes} {form : UInt32}
    (h : Varint.Denotes first (.u32 form)) (later : Bytes) :
    leadingForm (first ++ later) = some form := by
  have hreads : Reads u32 form first := by
    unfold u32
    exact (reads_of_denotes h).bind_last (reads_pure form)
  rw [leadingForm, hreads later]
  rfl

theorem leadingForm_encodeIndex (form : UInt32) (later : Bytes) :
    leadingForm (encodeIndex form ++ later) = some form :=
  leadingForm_append (Varint.denotes_encode (.u32 form)) later

/-- Some bytes are read as a value, and all others that are read as that value are longer. -/
structure IsShortest {α : Type} (p : Parser α) (a : α) (written : Bytes) : Prop where
  reads : runAll p written = some a
  length_lt : ∀ other, runAll p other = some a → other ≠ written → written.length < other.length

/-- If a value is written with an index exactly when all its forms have one, it is written with an
index exactly when it is read from no form without. -/
theorem chosen_iff_forall {α : Type} {p : Parser α} {a : α} {written : Bytes} {chosen : Bool}
    (form : Bool → UInt32) (implicit : Option UInt32 → Prop) (hreads : runAll p written = some a)
    (hwritten : leadingForm written = some (form chosen))
    (hforms : ∀ other, runAll p other = some a →
      ∃ explicit, leadingForm other = some (form explicit) ∧ (chosen = true → explicit = true))
    (himplicit : ∀ explicit, implicit (some (form explicit)) ↔ explicit = false) :
    chosen = true ↔ ∀ other, runAll p other = some a → ¬implicit (leadingForm other) := by
  constructor
  · intro hchosen other hother
    obtain ⟨explicit, hform, hexplicit⟩ := hforms other hother
    rw [hform, himplicit, hexplicit hchosen]
    exact Bool.true_eq_false.mp
  · intro hnone
    have hform := hnone written hreads
    rw [hwritten, himplicit] at hform
    exact Bool.eq_true_of_not_eq_false hform

end Parser

/-! ## Element segments -/

namespace ElemSegment

/-- The flags of the form with or without an explicit index. -/
def flagsIn (explicit : Bool) (segment : ElemSegment) : UInt32 :=
  .ofNat (segment.isNonActive.toNat + 2 * explicit.toNat +
    4 * segment.items.areExpressions.toNat)

/-- What is behind the flags in the form with or without an explicit index. -/
def behindFlags (explicit : Bool) (segment : ElemSegment) (items : Bytes) : Bytes :=
  (match segment.mode with
    | .active table offset => (if explicit then encodeIndex table else []) ++ offset.encode
    | .passive | .declarative => []) ++
  ((if segment.isNonActive || explicit then [segment.items.kindByte] else []) ++ items)

/-- The grammar has the form for the segment: it is the one that is written, or it names a table
that could be left out. -/
def Allows (explicit : Bool) (segment : ElemSegment) : Prop :=
  explicit = segment.isExplicit ∨ segment.isNonActive = false ∧ explicit = true

theorem length_encodeIndex_flagsIn (explicit : Bool) (segment : ElemSegment) :
    (encodeIndex (segment.flagsIn explicit)).length = 1 := by
  have hflags : (segment.flagsIn explicit).toNat < 128 := by
    rw [flagsIn]
    cases segment.isNonActive <;> cases explicit <;> cases segment.items.areExpressions <;> decide
  rw [Varint.length_encodeIndex, Varint.unsignedLength, if_pos hflags]

theorem eq_of_encode {segment : ElemSegment} {written : Bytes}
    (h : segment.encode = .ok written) : ∃ items, segment.items.encode = .ok items ∧
      written = encodeIndex (segment.flagsIn segment.isExplicit) ++
        segment.behindFlags segment.isExplicit items := by
  obtain ⟨items, hitems, ⟨⟩⟩ := bind_eq_ok_iff.1 h
  refine ⟨items, hitems, ?_⟩
  rw [Parser.flags_eq, List.append_assoc, List.append_assoc]
  rfl

/-- An index that is named where it could be left out only makes a segment longer. -/
theorem Allows.eqOrLonger {explicit : Bool} {segment : ElemSegment} (h : segment.Allows explicit)
    (items : Bytes) :
    EqOrLonger (encodeIndex (segment.flagsIn explicit) ++ segment.behindFlags explicit items)
      (encodeIndex (segment.flagsIn segment.isExplicit) ++
        segment.behindFlags segment.isExplicit items) := by
  rcases h with rfl | ⟨hactive, rfl⟩
  · exact .refl _
  cases segment.isExplicit with
  | true => exact .refl _
  | false =>
    obtain ⟨mode, contents⟩ := segment
    cases mode with
    | active table offset =>
      right
      simp only [behindFlags, isNonActive, Bool.false_eq_true, Bool.or_self, Bool.or_true,
        ↓reduceIte, List.nil_append, List.cons_append, List.append_assoc, List.length_append,
        List.length_cons, length_encodeIndex_flagsIn, add_lt_add_iff_left]
      omega
    | passive => exact nomatch hactive
    | declarative => exact nomatch hactive

/-- What the grammar takes behind the flags of a form. -/
def TakenBehind (flags : UInt32) (segment : ElemSegment) (later : Bytes) : Prop :=
  ∃ explicit, flags = segment.flagsIn explicit ∧ segment.Allows explicit ∧
    ∀ items, segment.items.encode = .ok items →
      EqOrLonger later (segment.behindFlags explicit items)

section TakenBehind

variable {table : UInt32} {offset : ConstExpr} {contents : ElemItems} {index place used : Bytes}

theorem TakenBehind.implicit
    (hexplicit : (ElemSegment.mk (.active table offset) contents).isExplicit = false)
    (hplace : EqOrLonger place offset.encode)
    (hused : ∀ items, contents.encode = .ok items → EqOrLonger used items) :
    TakenBehind (flagsIn false ⟨.active table offset, contents⟩) ⟨.active table offset, contents⟩
      (place ++ used) :=
  ⟨false, rfl, .inl hexplicit.symm, fun items h ↦ hplace.append (hused items h)⟩

theorem TakenBehind.explicit (hindex : Varint.Denotes index (.u32 table))
    (hplace : EqOrLonger place offset.encode)
    (hused : ∀ items, contents.encode = .ok items → EqOrLonger used items) :
    TakenBehind (flagsIn true ⟨.active table offset, contents⟩) ⟨.active table offset, contents⟩
      (index ++ (place ++ ([contents.kindByte] ++ used))) := by
  refine ⟨true, rfl, .inr ⟨rfl, rfl⟩, fun items h ↦ ?_⟩
  rw [← List.append_assoc]
  exact (hindex.eqOrLonger.append hplace).append ((EqOrLonger.refl _).append (hused items h))

theorem TakenBehind.nonActive (mode : ElemMode)
    (hmode : (ElemSegment.mk mode contents).isNonActive = true)
    (hused : ∀ items, contents.encode = .ok items → EqOrLonger used items) :
    TakenBehind (flagsIn (ElemSegment.mk mode contents).isExplicit ⟨mode, contents⟩)
      ⟨mode, contents⟩ ([contents.kindByte] ++ used) := by
  refine ⟨_, rfl, .inl rfl, fun items h ↦ ?_⟩
  cases mode with
  | active table offset => exact nomatch hmode
  | passive => exact (EqOrLonger.refl _).append (hused items h)
  | declarative => exact (EqOrLonger.refl _).append (hused items h)

end TakenBehind

end ElemSegment

namespace Parser

theorem takes_indices :
    Takes (vector u32) fun indices used ↦ ∀ items,
      (ElemItems.functions indices).encode = .ok items → EqOrLonger used items :=
  takes_vector (takes_u32.mono fun _ _ h ↦ h.eqOrLonger)

theorem takes_exprs (type : RefType) :
    Takes (vector constExpr) fun exprs used ↦ ∀ items,
      (ElemItems.expressions type exprs).encode = .ok items → EqOrLonger used items :=
  takes_vector takes_constExpr

theorem takes_elemSegment :
    Takes elemSegment fun segment used ↦ ∃ flags first later,
      Varint.Denotes first (.u32 flags) ∧ used = first ++ later ∧
        segment.TakenBehind flags later := by
  refine takes_u32.bind fun flags first hflags ↦ ?_
  refine (?_ : Takes _ (ElemSegment.TakenBehind flags)).mono fun segment later h ↦
    ⟨flags, first, later, hflags, rfl, h⟩
  split
  · exact takes_constExpr.bind fun _ _ hplace ↦ takes_indices.bind_pure fun _ _ hused ↦
      .implicit rfl hplace hused
  · exact (takes_token 0).bind fun _ _ hkind ↦ takes_indices.bind_pure fun _ _ hused ↦
      hkind ▸ .nonActive .passive rfl hused
  · exact takes_u32.bind fun _ _ hindex ↦ takes_constExpr.bind fun _ _ hplace ↦
      (takes_token 0).bind fun _ _ hkind ↦ takes_indices.bind_pure fun _ _ hused ↦
        hkind ▸ .explicit hindex hplace hused
  · exact (takes_token 0).bind fun _ _ hkind ↦ takes_indices.bind_pure fun _ _ hused ↦
      hkind ▸ .nonActive .declarative rfl hused
  · exact takes_constExpr.bind fun _ _ hplace ↦ (takes_exprs .funcref).bind_pure fun _ _ hused ↦
      .implicit rfl hplace hused
  · exact takes_refType.bind fun type _ hkind ↦ (takes_exprs type).bind_pure fun _ _ hused ↦
      hkind ▸ .nonActive .passive rfl hused
  · exact takes_u32.bind fun _ _ hindex ↦ takes_constExpr.bind fun _ _ hplace ↦
      takes_refType.bind fun type _ hkind ↦ (takes_exprs type).bind_pure fun _ _ hused ↦
        hkind ▸ .explicit hindex hplace hused
  · exact takes_refType.bind fun type _ hkind ↦ (takes_exprs type).bind_pure fun _ _ hused ↦
      hkind ▸ .nonActive .declarative rfl hused
  · exact takes_failure

end Parser

namespace ElemSegment

/-- Every byte string that is read as a segment is in a form that the grammar has for it, and at
least as long as what is written in that form. -/
theorem exists_form {segment : ElemSegment} {bytes : Bytes}
    (h : Parser.runAll Parser.elemSegment bytes = some segment) :
    ∃ explicit, Parser.leadingForm bytes = some (segment.flagsIn explicit) ∧
      segment.Allows explicit ∧ ∀ items, segment.items.encode = .ok items →
        EqOrLonger bytes
          (encodeIndex (segment.flagsIn explicit) ++ segment.behindFlags explicit items) := by
  obtain ⟨flags, first, later, hfirst, rfl, explicit, rfl, hallows, hlater⟩ :=
    Parser.takes_elemSegment.runAll h
  exact ⟨explicit, Parser.leadingForm_append hfirst later, hallows,
    fun items hitems ↦ hfirst.eqOrLonger.append (hlater items hitems)⟩

theorem isShortest_encode {segment : ElemSegment} {written : Bytes}
    (h : segment.encode = .ok written) :
    Parser.IsShortest Parser.elemSegment segment written where
  reads := (Parser.decodes_elemSegment h).runAll
  length_lt other hother hne := by
    obtain ⟨items, hitems, rfl⟩ := eq_of_encode h
    obtain ⟨explicit, -, hallows, hlonger⟩ := exists_form hother
    exact ((hlonger items hitems).trans (hallows.eqOrLonger items)).resolve_left hne

theorem leadingForm_encode {segment : ElemSegment} {written : Bytes}
    (h : segment.encode = .ok written) :
    Parser.leadingForm written = some (segment.flagsIn segment.isExplicit) := by
  obtain ⟨items, -, rfl⟩ := eq_of_encode h
  exact Parser.leadingForm_encodeIndex _ _

theorem explicit_flagsIn {segment : ElemSegment} (hactive : segment.isNonActive = false)
    (explicit : Bool) :
    (segment.flagsIn explicit = 2 ∨ segment.flagsIn explicit = 6) ↔ explicit = true := by
  rw [flagsIn, hactive]
  cases explicit <;> cases segment.items.areExpressions <;> decide

theorem implicit_flagsIn {segment : ElemSegment} (hactive : segment.isNonActive = false)
    (explicit : Bool) :
    (segment.flagsIn explicit = 0 ∨ segment.flagsIn explicit = 4) ↔ explicit = false := by
  rw [flagsIn, hactive]
  cases explicit <;> cases segment.items.areExpressions <;> decide

theorem isExplicit_active_iff {table : UInt32} {offset : ConstExpr} {contents : ElemItems} :
    (ElemSegment.mk (.active table offset) contents).isExplicit = true ↔
      table ≠ 0 ∨ ∃ exprs, contents = .expressions .externref exprs := by
  cases contents with
  | functions indices => simp [isExplicit, ElemItems.refType]
  | expressions type exprs => cases type <;> simp [isExplicit, ElemItems.refType]

theorem writesKind_iff (segment : ElemSegment) :
    segment.writesKind = true ↔ ¬(segment.flags = 0 ∨ segment.flags = 4) := by
  rw [Parser.flags_eq, writesKind]
  cases segment.isNonActive <;> cases segment.isExplicit <;>
    cases segment.items.areExpressions <;> decide

/-- What is written for a segment, and how its form is chosen. -/
structure InShortestForm (segment : ElemSegment) (written : Bytes) : Prop where
  isShortest : Parser.IsShortest Parser.elemSegment segment written
  /-- The table is named if it is not the first, or if the items are expressions for external
  references. -/
  explicit_iff : ∀ table offset, segment.mode = .active table offset →
    ((Parser.leadingForm written = some 2 ∨ Parser.leadingForm written = some 6) ↔
      table ≠ 0 ∨ ∃ exprs, segment.items = .expressions .externref exprs)
  /-- It is taken exactly if no byte string in a form without an index is read as the segment. -/
  explicit_iff_forall : ∀ table offset, segment.mode = .active table offset →
    ((Parser.leadingForm written = some 2 ∨ Parser.leadingForm written = some 6) ↔
      ∀ other, Parser.runAll Parser.elemSegment other = some segment →
        ¬(Parser.leadingForm other = some 0 ∨ Parser.leadingForm other = some 4))
  /-- The kind of the items is written in all forms but those of an active segment that leave the
  table out. -/
  kind : ∃ flags items, Parser.leadingForm written = some flags ∧
    segment.items.encode = .ok items ∧
      written = encodeIndex flags ++ segment.encodePlace ++
        (if flags = 0 ∨ flags = 4 then [] else [segment.items.kindByte]) ++ items

theorem inShortestForm_encode {segment : ElemSegment} {written : Bytes}
    (h : segment.encode = .ok written) : segment.InShortestForm written where
  isShortest := isShortest_encode h
  explicit_iff table offset hmode := by
    have hactive : segment.isNonActive = false := by rw [isNonActive, hmode]
    obtain ⟨mode, contents⟩ := segment
    cases hmode
    rw [leadingForm_encode h, Option.some_inj, Option.some_inj, explicit_flagsIn hactive]
    exact isExplicit_active_iff
  explicit_iff_forall table offset hmode := by
    have hactive : segment.isNonActive = false := by rw [isNonActive, hmode]
    rw [leadingForm_encode h, Option.some_inj, Option.some_inj, explicit_flagsIn hactive]
    refine Parser.chosen_iff_forall (segment.flagsIn ·) (fun form ↦ form = some 0 ∨ form = some 4)
      (isShortest_encode h).reads (leadingForm_encode h) ?_ fun explicit ↦ ?_
    · intro other hother
      obtain ⟨explicit, hform, hallows, -⟩ := exists_form hother
      exact ⟨explicit, hform, fun hchosen ↦ hallows.elim (·.trans hchosen) And.right⟩
    · rw [Option.some_inj, Option.some_inj, implicit_flagsIn hactive]
  kind := by
    obtain ⟨items, hitems, ⟨⟩⟩ := bind_eq_ok_iff.1 h
    refine ⟨segment.flags, items, ?_, hitems, ?_⟩
    · rw [List.append_assoc, List.append_assoc]
      exact Parser.leadingForm_encodeIndex _ _
    · simp only [writesKind_iff, ite_not]

end ElemSegment

/-! ## Data segments -/

namespace DataMode

def isExplicit : DataMode → Bool
  | .active memory _ => memory ≠ 0
  | .passive => false

/-- The form with or without an explicit index. -/
def formIn (explicit : Bool) : DataMode → UInt32
  | .active _ _ => if explicit then explicitForm else activeForm
  | .passive => passiveForm

/-- What is between the form and the contents of a segment. -/
def behindForm (explicit : Bool) : DataMode → Bytes
  | .active memory offset => (if explicit then encodeIndex memory else []) ++ offset.encode
  | .passive => []

/-- The grammar has the form for the mode: it is the one that is written, or it names a memory
that could be left out. -/
def Allows (explicit : Bool) : DataMode → Prop
  | .active memory _ => memory ≠ 0 → explicit = true
  | .passive => explicit = false

theorem encode_eq (mode : DataMode) :
    mode.encode = encodeIndex (mode.formIn mode.isExplicit) ++ mode.behindForm mode.isExplicit := by
  cases mode with
  | active memory offset =>
    by_cases hmemory : memory = 0
    · simp [encode, isExplicit, formIn, behindForm, hmemory]
    · simp [encode, isExplicit, formIn, behindForm, hmemory]
  | passive => simp [encode, formIn, behindForm]

theorem explicit_formIn {memory : UInt32} {offset : ConstExpr} (explicit : Bool) :
    (active memory offset).formIn explicit = 2 ↔ explicit = true := by
  cases explicit <;> simp [formIn, activeForm, explicitForm]

theorem implicit_formIn {memory : UInt32} {offset : ConstExpr} (explicit : Bool) :
    (active memory offset).formIn explicit = 0 ↔ explicit = false := by
  cases explicit <;> simp [formIn, activeForm, explicitForm]

theorem Allows.eqOrLonger {explicit : Bool} {mode : DataMode} (h : mode.Allows explicit) :
    EqOrLonger (encodeIndex (mode.formIn explicit) ++ mode.behindForm explicit) mode.encode := by
  rw [encode_eq]
  cases mode with
  | active memory offset =>
    by_cases hmemory : memory = 0
    · cases explicit with
      | false => simp [isExplicit, hmemory, EqOrLonger.refl]
      | true =>
        right
        simp [isExplicit, formIn, behindForm, hmemory, activeForm, explicitForm,
          Varint.length_encodeIndex, Varint.unsignedLength]
    · simp [isExplicit, hmemory, h hmemory, EqOrLonger.refl]
  | passive =>
    obtain rfl : explicit = false := h
    exact .refl _

end DataMode

namespace Parser

theorem takes_dataSegment :
    Takes dataSegment fun segment used ↦ ∃ form first later,
      Varint.Denotes first (.u32 form) ∧ used = first ++ later ∧
        ∃ explicit, form = segment.mode.formIn explicit ∧ segment.mode.Allows explicit ∧
          ∀ init, lengthPrefixed segment.init = .ok init →
            EqOrLonger later (segment.mode.behindForm explicit ++ init) := by
  refine takes_u32.bind fun form first hform ↦ ?_
  split
  · exact takes_constExpr.bind fun _ _ hplace ↦ takes_blob.bind_pure fun _ _ hcontents ↦
      ⟨_, first, _, hform, rfl, false, rfl, fun h ↦ absurd rfl h,
        fun init h ↦ hplace.append (hcontents init h)⟩
  · exact takes_blob.bind_pure fun _ _ hcontents ↦
      ⟨_, first, _, hform, rfl, false, rfl, rfl, hcontents⟩
  · refine takes_u32.bind fun _ _ hindex ↦ takes_constExpr.bind fun _ _ hplace ↦
      takes_blob.bind_pure fun _ _ hcontents ↦
        ⟨_, first, _, hform, rfl, true, rfl, fun _ ↦ rfl, fun init h ↦ ?_⟩
    rw [← List.append_assoc]
    exact (hindex.eqOrLonger.append hplace).append (hcontents init h)
  · exact takes_failure

end Parser

namespace DataSegment

theorem eq_of_encode {segment : DataSegment} {written : Bytes}
    (h : segment.encode = .ok written) : ∃ init, lengthPrefixed segment.init = .ok init ∧
      written = encodeIndex (segment.mode.formIn segment.mode.isExplicit) ++
        (segment.mode.behindForm segment.mode.isExplicit ++ init) := by
  obtain ⟨init, hinit, ⟨⟩⟩ := bind_eq_ok_iff.1 h
  exact ⟨init, hinit, by rw [DataMode.encode_eq, List.append_assoc]⟩

theorem leadingForm_encode {segment : DataSegment} {written : Bytes}
    (h : segment.encode = .ok written) :
    Parser.leadingForm written = some (segment.mode.formIn segment.mode.isExplicit) := by
  obtain ⟨init, -, rfl⟩ := eq_of_encode h
  exact Parser.leadingForm_encodeIndex _ _

/-- Every byte string that is read as a segment is in a form that the grammar has for it, and at
least as long as what is written in that form. -/
theorem exists_form {segment : DataSegment} {bytes : Bytes}
    (h : Parser.runAll Parser.dataSegment bytes = some segment) :
    ∃ explicit, Parser.leadingForm bytes = some (segment.mode.formIn explicit) ∧
      segment.mode.Allows explicit ∧ ∀ init, lengthPrefixed segment.init = .ok init →
        EqOrLonger bytes (encodeIndex (segment.mode.formIn explicit) ++
          (segment.mode.behindForm explicit ++ init)) := by
  obtain ⟨form, first, later, hfirst, rfl, explicit, rfl, hallows, hlater⟩ :=
    Parser.takes_dataSegment.runAll h
  exact ⟨explicit, Parser.leadingForm_append hfirst later, hallows,
    fun init hinit ↦ hfirst.eqOrLonger.append (hlater init hinit)⟩

theorem isShortest_encode {segment : DataSegment} {written : Bytes}
    (h : segment.encode = .ok written) :
    Parser.IsShortest Parser.dataSegment segment written where
  reads := (Parser.decodes_dataSegment h).runAll
  length_lt other hother hne := by
    obtain ⟨init, hinit, ⟨⟩⟩ := bind_eq_ok_iff.1 h
    obtain ⟨explicit, -, hallows, hlonger⟩ := exists_form hother
    have hother := hlonger init hinit
    rw [← List.append_assoc] at hother
    exact (hother.trans (hallows.eqOrLonger.append (.refl init))).resolve_left hne

/-- What is written for a segment, and how its form is chosen. -/
structure InShortestForm (segment : DataSegment) (written : Bytes) : Prop where
  isShortest : Parser.IsShortest Parser.dataSegment segment written
  /-- The form with an explicit index is for another memory than the first. -/
  explicit_iff : ∀ memory offset, segment.mode = .active memory offset →
    (Parser.leadingForm written = some 2 ↔ memory ≠ 0)
  /-- It is taken exactly if no byte string in the form without an index is read as the segment. -/
  explicit_iff_forall : ∀ memory offset, segment.mode = .active memory offset →
    (Parser.leadingForm written = some 2 ↔
      ∀ other, Parser.runAll Parser.dataSegment other = some segment →
        Parser.leadingForm other ≠ some 0)

theorem inShortestForm_encode {segment : DataSegment} {written : Bytes}
    (h : segment.encode = .ok written) : segment.InShortestForm written where
  isShortest := isShortest_encode h
  explicit_iff memory offset hmode := by
    rw [leadingForm_encode h, Option.some_inj, hmode, DataMode.explicit_formIn]
    simp [DataMode.isExplicit]
  explicit_iff_forall memory offset hmode := by
    rw [leadingForm_encode h, Option.some_inj, hmode, DataMode.explicit_formIn]
    refine Parser.chosen_iff_forall (DataMode.formIn · (.active memory offset)) (· = some 0)
      (isShortest_encode h).reads (hmode ▸ leadingForm_encode h) ?_ fun explicit ↦ ?_
    · intro other hother
      obtain ⟨explicit, hform, hallows, -⟩ := exists_form hother
      rw [hmode] at hform hallows
      exact ⟨explicit, hform, fun hchosen ↦ hallows (of_decide_eq_true hchosen)⟩
    · rw [Option.some_inj, DataMode.implicit_formIn]

end DataSegment

/-- Every segment whose count or length fits is written, in the only shortest of the byte strings
that the grammar reads as that segment. -/
theorem segments_shortest :
    (∀ segment : ElemSegment, segment.items.length < 0x100000000 →
      ∃ written, segment.encode = .ok written ∧ segment.InShortestForm written) ∧
    ∀ segment : DataSegment, segment.init.length < 0x100000000 →
      ∃ written, segment.encode = .ok written ∧ segment.InShortestForm written := by
  constructor
  · intro segment hitems
    obtain ⟨written, hwritten⟩ := segment.checksSizes.exists_ok (List.forall_mem_singleton.2 hitems)
    exact ⟨written, hwritten, ElemSegment.inShortestForm_encode hwritten⟩
  · intro segment hinit
    obtain ⟨written, hwritten⟩ := segment.checksSizes.exists_ok (List.forall_mem_singleton.2 hinit)
    exact ⟨written, hwritten, DataSegment.inShortestForm_encode hwritten⟩

/-- The table of an element segment may be the first and still need an index, where the memory of a
data segment needs none. -/
theorem segments_shortest_first :
    (∃ written, (ElemSegment.mk (.active 0 (.i32 0)) (.expressions .externref [])).encode =
        .ok written ∧
      (Parser.leadingForm written = some 2 ∨ Parser.leadingForm written = some 6)) ∧
    ∃ written, (DataSegment.mk (.active 0 (.i32 0)) [0xff]).encode = .ok written ∧
      Parser.leadingForm written ≠ some 2 := by
  obtain ⟨elem, helem, helemForm⟩ :=
    segments_shortest.1 ⟨.active 0 (.i32 0), .expressions .externref []⟩ (by decide)
  obtain ⟨data, hdata, hdataForm⟩ := segments_shortest.2 ⟨.active 0 (.i32 0), [0xff]⟩ (by decide)
  refine ⟨⟨elem, helem, ?_⟩, data, hdata, ?_⟩
  · exact (helemForm.explicit_iff 0 (.i32 0) rfl).2 (.inr ⟨[], rfl⟩)
  · exact fun h ↦ (hdataForm.explicit_iff 0 (.i32 0) rfl).1 h rfl

end WasmBinary
