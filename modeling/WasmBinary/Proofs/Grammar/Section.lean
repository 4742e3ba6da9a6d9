import WasmBinary.Proofs.Grammar.Entry
import WasmBinary.Proofs.Sizes

/-!
# Reading the payloads of sections

The payload of each kind of section by the grammar, and the round trip over the whole format: a
section that declares something is read back from its payload to the last byte.
-/

namespace WasmBinary

namespace Parser

def payload : SectionKind → Parser Section
  | .custom => do
    let name ← name
    let contents ← remaining
    return .custom ⟨name, contents⟩
  | .types => .types <$> vector funcType
  | .imports => .imports <$> vector importEntry
  | .functions => .functions <$> vector u32
  | .tables => .tables <$> vector tableType
  | .memories => .memories <$> vector limits
  | .globals => .globals <$> vector globalEntry
  | .exports => .exports <$> vector exportEntry
  | .start => (fun function ↦ .start (some function)) <$> u32
  | .elements => .elements <$> vector elemSegment
  | .code => .code <$> vector funcBody
  | .data => .data <$> vector dataSegment
  | .dataCount => (fun count ↦ .dataCount (some count)) <$> u32

theorem Reads.run {α : Type} {p : Parser α} {a : α} {written : Bytes} (h : Reads p a written) :
    p.run written = some (a, []) := by
  have hrun := h []
  rwa [List.append_nil] at hrun

theorem Decodes.run_entries {α : Type} {p : Parser α} {encode : α → Except ModuleError Bytes}
    (h : Decodes p encode) (wrap : List α → Section) {entries : List α} {written : Bytes}
    (hne : entries.isEmpty = false) (hwritten : encodeEntries encode entries = .ok written) :
    (wrap <$> Parser.vector p).run written = some (wrap entries, []) := by
  rw [encodeEntries, hne] at hwritten
  exact ((h.vector hwritten).map wrap).run

/-- A payload is read back to the last byte. -/
theorem run_payload {contents : Section} {written : Bytes} (hne : contents.isEmpty = false)
    (hwritten : contents.render = .ok written) :
    (payload contents.kind).run written = some (contents, []) := by
  cases contents with
  | types entries => exact decodes_funcType.run_entries .types hne hwritten
  | imports entries => exact decodes_importEntry.run_entries .imports hne hwritten
  | functions entries => exact (Decodes.of_reads reads_u32).run_entries .functions hne hwritten
  | tables entries => exact (Decodes.of_reads reads_tableType).run_entries .tables hne hwritten
  | memories entries => exact (Decodes.of_reads reads_limits).run_entries .memories hne hwritten
  | globals entries => exact (Decodes.of_reads reads_globalEntry).run_entries .globals hne hwritten
  | exports entries => exact decodes_exportEntry.run_entries .exports hne hwritten
  | start function =>
    obtain ⟨index, rfl⟩ := Option.isSome_iff_exists.1 (Option.isNone_eq_false_iff.1 hne)
    obtain rfl := Except.ok.inj hwritten
    exact ((reads_u32 index).map fun function ↦ Section.start (some function)).run
  | elements entries => exact decodes_elemSegment.run_entries .elements hne hwritten
  | dataCount count =>
    obtain ⟨index, rfl⟩ := Option.isSome_iff_exists.1 (Option.isNone_eq_false_iff.1 hne)
    obtain rfl := Except.ok.inj hwritten
    exact ((reads_u32 index).map fun count ↦ Section.dataCount (some count)).run
  | code entries => exact decodes_funcBody.run_entries .code hne hwritten
  | data entries => exact decodes_dataSegment.run_entries .data hne hwritten
  | custom contents =>
    obtain ⟨name, hname, ⟨⟩⟩ := bind_eq_ok_iff.1 hwritten
    rw [Section.kind, payload, StateT.run_bind, decodes_name hname contents.payload]
    rfl

/-- No production of the grammar is empty. -/
theorem run_payload_nil (kind : SectionKind) : (payload kind).run [] = none := by
  cases kind <;> rfl

end Parser

namespace Section

theorem render_of_isEmpty {contents : Section} (h : contents.isEmpty = true) :
    contents.render = .ok [] := by
  cases contents with
  | start function =>
    obtain rfl := Option.isNone_iff_eq_none.1 h
    rfl
  | dataCount count =>
    obtain rfl := Option.isNone_iff_eq_none.1 h
    rfl
  | custom contents => exact absurd h Bool.false_ne_true
  | _ =>
    obtain rfl := List.isEmpty_iff.1 h
    rfl

theorem eq_of_isEmpty {contents other : Section} (h : contents.isEmpty = true)
    (hother : other.isEmpty = true) (hkind : other.kind = contents.kind) : other = contents := by
  cases contents <;> cases other <;>
    simp_all [kind, isEmpty, List.isEmpty_iff, Option.isNone_iff_eq_none]

theorem render_eq_nil_iff {contents : Section} {written : Bytes}
    (hwritten : contents.render = .ok written) : written = [] ↔ contents.isEmpty = true := by
  constructor
  · rintro rfl
    by_contra hne
    have hrun := Parser.run_payload (Bool.eq_false_of_not_eq_true hne) hwritten
    rw [Parser.run_payload_nil] at hrun
    exact Option.some_ne_none _ hrun.symm
  · intro h
    rw [render_of_isEmpty h] at hwritten
    exact (Except.ok.inj hwritten).symm

/-- Two sections of one kind with one payload are the same section. -/
theorem render_injective {contents other : Section} {written : Bytes}
    (hkind : other.kind = contents.kind) (hcontents : contents.render = .ok written)
    (hother : other.render = .ok written) : other = contents := by
  cases hempty : contents.isEmpty with
  | true =>
    have hnil := (render_eq_nil_iff hcontents).2 hempty
    exact eq_of_isEmpty hempty ((render_eq_nil_iff hother).1 hnil) hkind
  | false =>
    have hne : other.isEmpty = false := by
      rw [← Bool.not_eq_true, ← render_eq_nil_iff hother, render_eq_nil_iff hcontents, hempty]
      exact Bool.false_ne_true
    have hrun := Parser.run_payload hne hother
    rw [hkind, Parser.run_payload hempty hcontents] at hrun
    exact (congrArg Prod.fst (Option.some.inj hrun)).symm

/-- Every section that declares something and whose sizes fit is rendered to a payload, from which
the grammar reads it back to the last byte, and which no other section of its kind has. -/
theorem parse_render {contents : Section} (hne : contents.isEmpty = false)
    (hfit : contents.Fits) :
    ∃ payload, contents.render = .ok payload ∧
      (Parser.payload contents.kind).run payload = some (contents, []) ∧
      ∀ other : Section, other.kind = contents.kind → other.render = .ok payload →
        other = contents := by
  obtain ⟨payload, hpayload⟩ := contents.checksSizes_render.exists_ok hfit
  exact ⟨payload, hpayload, Parser.run_payload hne hpayload,
    fun other hkind hother ↦ render_injective hkind hpayload hother⟩

/-- A segment that only the explicit form can express, with a NaN that carries a payload. -/
def externSegment : ElemSegment :=
  ⟨.active 0 (.f32 ⟨0x7fc00001⟩), .expressions .externref [.refNull .externref]⟩

theorem parse_render_externSegment :
    (elements [externSegment]).isEmpty = false ∧ (elements [externSegment]).Fits ∧
      ∃ payload, (elements [externSegment]).render = .ok payload ∧
        (Parser.payload .elements).run payload = some (elements [externSegment], []) ∧
        ∀ other : Section, other.kind = .elements → other.render = .ok payload →
          other = elements [externSegment] := by
  have hfit : (elements [externSegment]).Fits := by
    unfold Fits
    decide
  exact ⟨rfl, hfit, parse_render rfl hfit⟩

end Section

end WasmBinary
