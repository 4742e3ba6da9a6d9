import WasmBinary.Proofs.Draft.HandOver
import WasmBinary.Proofs.Emissions

/-!
# Sizes in full

Every size in front has 32 bits.  Here the format is written without that bound: a size is a natural
number and takes as many groups as it needs.  An image is made exactly if no size needs the further
room, and it is then what is written without the bound, so that no size has been cut short.
Otherwise the first size that does not fit is the error.
-/

namespace WasmBinary

/-! ## Parts with a size in front -/

def blobInFull (bytes : Bytes) : Bytes :=
  Varint.encodeUnsigned bytes.length ++ bytes

def nameInFull (name : String) : Bytes :=
  blobInFull name.toUTF8.data.toList

def vectorInFull {α : Type} (full : α → Bytes) (entries : List α) : Bytes :=
  Varint.encodeUnsigned entries.length ++ entries.flatMap full

def entriesInFull {α : Type} (full : α → Bytes) (entries : List α) : Bytes :=
  if entries.isEmpty then [] else vectorInFull full entries

/-- What is written, if it can be, is written in full. -/
def WritesInFull {α : Type} (encode : α → Except ModuleError Bytes) (full : α → Bytes) : Prop :=
  ∀ a written, encode a = .ok written → written = full a

section Parts

variable {α : Type} {encode : α → Except ModuleError Bytes} {full : α → Bytes}

theorem encodeIndex_ofNat {n : Nat} (h : n < 0x100000000) :
    encodeIndex (.ofNat n) = Varint.encodeUnsigned n := by
  rw [encodeIndex, Varint.encode, toNat_ofNat_of_lt h]

theorem writesInFull_plain (full : α → Bytes) : WritesInFull (fun a ↦ .ok (full a)) full := by
  rintro a _ ⟨⟩
  rfl

theorem writesInFull_blob : WritesInFull lengthPrefixed blobInFull := by
  intro bytes written h
  obtain ⟨hlength, rfl⟩ := lengthPrefixed_eq_ok_iff.1 h
  rw [encodeIndex_ofNat hlength, blobInFull]

theorem writesInFull_name : WritesInFull encodeName nameInFull :=
  fun _ written h ↦ writesInFull_blob _ written h

theorem WritesInFull.vector (h : WritesInFull encode full) :
    WritesInFull (encodeVector encode) (vectorInFull full) := by
  intro entries written hwritten
  obtain ⟨hlength, encoded, hencoded, rfl⟩ := encodeVector_eq_ok_iff.1 hwritten
  have hentries : encoded.map id = entries.map full := map_eq_of_mapM h hencoded
  rw [List.map_id] at hentries
  rw [encodeIndex_ofNat hlength, hentries, vectorInFull, List.flatMap_def]

theorem WritesInFull.entries (h : WritesInFull encode full) :
    WritesInFull (encodeEntries encode) (entriesInFull full) := by
  intro entries written hwritten
  rw [encodeEntries] at hwritten
  rw [entriesInFull]
  split at hwritten
  · rw [if_pos ‹_›, Except.ok.inj hwritten]
  · rw [if_neg ‹_›]
    exact h.vector entries written hwritten

end Parts

/-! ## Entries -/

def FuncType.inFull (signature : FuncType) : Bytes :=
  tag :: (vectorInFull (fun type ↦ [type.byte]) signature.params ++
    vectorInFull (fun type ↦ [type.byte]) signature.results)

theorem FuncType.writesInFull : WritesInFull FuncType.encode FuncType.inFull := by
  intro signature written h
  obtain ⟨params, hparams, h⟩ := bind_eq_ok_iff.1 h
  obtain ⟨results, hresults, ⟨⟩⟩ := bind_eq_ok_iff.1 h
  have htypes := (writesInFull_plain fun type : ValType ↦ [type.byte]).vector
  rw [htypes _ _ hparams, htypes _ _ hresults, inFull]
  rfl

def Import.inFull (entry : Import) : Bytes :=
  nameInFull entry.source ++ nameInFull entry.name ++ entry.desc.encode

theorem Import.writesInFull : WritesInFull Import.encode Import.inFull := by
  intro entry written h
  obtain ⟨source, hsource, h⟩ := bind_eq_ok_iff.1 h
  obtain ⟨name, hname, ⟨⟩⟩ := bind_eq_ok_iff.1 h
  rw [writesInFull_name _ _ hsource, writesInFull_name _ _ hname, inFull]

def Export.inFull (entry : Export) : Bytes :=
  nameInFull entry.name ++ entry.kind.byte :: encodeIndex entry.index

theorem Export.writesInFull : WritesInFull Export.encode Export.inFull := by
  intro entry written h
  obtain ⟨name, hname, ⟨⟩⟩ := bind_eq_ok_iff.1 h
  rw [writesInFull_name _ _ hname, inFull]

def ElemItems.inFull : ElemItems → Bytes
  | .functions indices => vectorInFull encodeIndex indices
  | .expressions _ exprs => vectorInFull ConstExpr.encode exprs

theorem ElemItems.writesInFull : WritesInFull ElemItems.encode ElemItems.inFull := by
  intro items written h
  cases items with
  | functions indices => exact (writesInFull_plain encodeIndex).vector indices written h
  | expressions type exprs => exact (writesInFull_plain ConstExpr.encode).vector exprs written h

def ElemSegment.inFull (segment : ElemSegment) : Bytes :=
  encodeIndex segment.flags ++ segment.encodePlace ++
    (if segment.writesKind then [segment.items.kindByte] else []) ++ segment.items.inFull

theorem ElemSegment.writesInFull : WritesInFull ElemSegment.encode ElemSegment.inFull := by
  intro segment written h
  obtain ⟨items, hitems, ⟨⟩⟩ := bind_eq_ok_iff.1 h
  rw [ElemItems.writesInFull _ _ hitems, inFull]

def DataSegment.inFull (segment : DataSegment) : Bytes :=
  segment.mode.encode ++ blobInFull segment.init

theorem DataSegment.writesInFull : WritesInFull DataSegment.encode DataSegment.inFull := by
  intro segment written h
  obtain ⟨init, hinit, ⟨⟩⟩ := bind_eq_ok_iff.1 h
  rw [writesInFull_blob _ _ hinit, inFull]

def FuncBody.inFull (body : FuncBody) : Bytes :=
  blobInFull (vectorInFull LocalRun.encode body.locals ++ body.code)

theorem FuncBody.writesInFull : WritesInFull FuncBody.encode FuncBody.inFull := by
  intro body written h
  obtain ⟨locals, hlocals, h⟩ := bind_eq_ok_iff.1 h
  rw [writesInFull_blob _ _ h, (writesInFull_plain LocalRun.encode).vector _ _ hlocals, inFull]

def CustomSection.inFull (contents : CustomSection) : Bytes :=
  nameInFull contents.name ++ contents.payload

theorem CustomSection.writesInFull : WritesInFull CustomSection.render CustomSection.inFull := by
  intro contents written h
  obtain ⟨name, hname, ⟨⟩⟩ := bind_eq_ok_iff.1 h
  rw [writesInFull_name _ _ hname, inFull]

/-! ## Sections -/

namespace Section

def payloadInFull : Section → Bytes
  | .types entries => entriesInFull FuncType.inFull entries
  | .imports entries => entriesInFull Import.inFull entries
  | .functions entries => entriesInFull encodeIndex entries
  | .tables entries => entriesInFull TableType.encode entries
  | .memories entries => entriesInFull Limits.encode entries
  | .globals entries => entriesInFull Global.encode entries
  | .exports entries => entriesInFull Export.inFull entries
  | .start function => encodeOptional function
  | .elements entries => entriesInFull ElemSegment.inFull entries
  | .dataCount count => encodeOptional count
  | .code entries => entriesInFull FuncBody.inFull entries
  | .data entries => entriesInFull DataSegment.inFull entries
  | .custom contents => contents.inFull

theorem writesInFull_render : WritesInFull render payloadInFull := by
  intro contents written h
  cases contents with
  | types entries => exact FuncType.writesInFull.entries entries written h
  | imports entries => exact Import.writesInFull.entries entries written h
  | functions entries => exact (writesInFull_plain _).entries entries written h
  | tables entries => exact (writesInFull_plain _).entries entries written h
  | memories entries => exact (writesInFull_plain _).entries entries written h
  | globals entries => exact (writesInFull_plain _).entries entries written h
  | exports entries => exact Export.writesInFull.entries entries written h
  | start function => exact (Except.ok.inj h).symm
  | elements entries => exact ElemSegment.writesInFull.entries entries written h
  | dataCount count => exact (Except.ok.inj h).symm
  | code entries => exact FuncBody.writesInFull.entries entries written h
  | data entries => exact DataSegment.writesInFull.entries entries written h
  | custom contents => exact CustomSection.writesInFull contents written h

/-- The frame of a section, if it has one. -/
def frameInFull (contents : Section) : Bytes :=
  if contents.payloadInFull.isEmpty then []
  else contents.kind.byte :: blobInFull contents.payloadInFull

/-- All sizes of a section, in the order in which they are checked: that of the payload comes after
those within it. -/
def frameSizes (contents : Section) : List Nat :=
  contents.sizes ++ [contents.payloadInFull.length]

theorem bytes_of_emission {contents : Section} {emission : Emission}
    (h : contents.emission = .ok emission) : emission.bytes = contents.frameInFull := by
  obtain ⟨payload, hpayload, h⟩ := bind_eq_ok_iff.1 h
  obtain rfl := writesInFull_render _ _ hpayload
  rw [frameInFull]
  split at h
  · obtain rfl := Except.ok.inj h
    rw [if_pos ‹_›, Emission.bytes]
  · obtain ⟨prefixed, hprefixed, ⟨⟩⟩ := bind_eq_ok_iff.1 h
    rw [if_neg ‹_›, Emission.bytes, writesInFull_blob _ _ hprefixed]

theorem checksSizes_emission (contents : Section) :
    ChecksSizes contents.frameSizes contents.emission := by
  refine contents.checksSizes_render.bind fun payload hpayload ↦ ?_
  obtain rfl := writesInFull_render _ _ hpayload
  split
  · have hnil := List.isEmpty_iff.1 ‹_›
    rw [hnil]
    exact ⟨_, rfl⟩
  · exact (checksSizes_blob _).bind_pure

end Section

/-! ## Images -/

namespace Assembly

/-- All sizes that are written into an image, in the order in which they are checked. -/
def sizes (assembly : Assembly) : List Nat :=
  assembly.ordered.flatMap Section.frameSizes

def inFull (assembly : Assembly) : Bytes :=
  preamble ++ assembly.ordered.flatMap Section.frameInFull

theorem checksSizes_image (assembly : Assembly) : ChecksSizes assembly.sizes assembly.image := by
  rw [image_eq_map, framesBytes]
  have h := ChecksSizes.mapM fun contents (_ : contents ∈ assembly.ordered) ↦
    Section.checksSizes_emission contents
  exact (h.map _).map _

theorem image_eq_inFull {assembly : Assembly} {bytes : Bytes} (h : assembly.image = .ok bytes) :
    bytes = assembly.inFull := by
  obtain ⟨written, hwritten, rfl⟩ := exists_written_of_image h
  have hframes := map_eq_of_mapM (fun _ _ ↦ Section.bytes_of_emission) hwritten
  rw [inFull, List.flatMap_def, List.flatMap_def, hframes]

end Assembly

/-! ## Drafts -/

namespace Draft

/-- The number of data segments can be narrowed to 32 bits, but not without a size that is checked:
that of the data section. -/
theorem length_data_mem_sizes (draft : Draft) (order : SectionOrder) :
    draft.data.length ∈ Assembly.sizes ⟨order, draft.sections⟩ := by
  have hsection : Section.data draft.data ∈ draft.sections := by
    simp [sections, standardSections]
  rw [Assembly.sizes, (draft.complete_assembly order).ordered_eq]
  exact List.mem_flatMap.2 ⟨_, hsection, List.mem_append_left _ List.mem_cons_self⟩

end Draft

namespace Assembly

/-- An image is made exactly if all its sizes fit into 32 bits, and then they are all written in
full.  Otherwise the error is the first size that does not fit, and nothing else can go wrong.  A
draft whose data count is not the number of its data segments has no image. -/
theorem image_in_full :
    (∀ assembly : Assembly,
      (∀ bytes, assembly.image = .ok bytes ↔
        (∀ n ∈ assembly.sizes, n < 0x100000000) ∧ bytes = assembly.inFull) ∧
      ∀ error, assembly.image = .error error ↔
        ∃ before n after, assembly.sizes = before ++ n :: after ∧
          (∀ m ∈ before, m < 0x100000000) ∧ 0x100000000 ≤ n ∧ error = .payloadTooLarge n) ∧
    ∀ (draft : Draft) (count : UInt32), draft.dataCount? = some count →
      count.toNat ≠ draft.data.length → ∃ n, draft.image = .error (.payloadTooLarge n) := by
  constructor
  · intro assembly
    refine ⟨fun bytes ↦ ⟨fun h ↦ ⟨?_, image_eq_inFull h⟩, ?_⟩, ?_⟩
    · exact assembly.checksSizes_image.exists_ok_iff.1 ⟨bytes, h⟩
    · rintro ⟨hfit, rfl⟩
      obtain ⟨bytes, h⟩ := assembly.checksSizes_image.exists_ok hfit
      rw [h, image_eq_inFull h]
    · exact assembly.checksSizes_image.eq_error_iff
  · intro draft count hcount hlost
    have hlarge : 0x100000000 ≤ draft.data.length := by
      by_contra hsmall
      rw [Draft.dataCount?] at hcount
      split at hcount
      · obtain rfl := Option.some.inj hcount
        exact hlost (toNat_ofNat_of_lt (Nat.lt_of_not_le hsmall))
      · exact absurd hcount nofun
    have hmem := draft.length_data_mem_sizes .canonical
    rw [Draft.image_eq]
    cases himage : Assembly.image ⟨.canonical, draft.sections⟩ with
    | ok bytes =>
      have hfit := (checksSizes_image _).exists_ok_iff.1 ⟨bytes, himage⟩
      exact absurd (hfit _ hmem) (Nat.not_lt.2 hlarge)
    | error error =>
      obtain ⟨before, n, after, -, -, -, rfl⟩ := ((checksSizes_image _).eq_error_iff error).1 himage
      exact ⟨n, rfl⟩

/-- So many data segments that their number is 0 in 32 bits. -/
def manySegments : Draft where
  data := List.replicate 0x100000000 ⟨.passive, []⟩
  countsData := true

theorem image_in_full_manySegments :
    manySegments.dataCount? = some 0 ∧ (0 : UInt32).toNat ≠ manySegments.data.length ∧
      ∃ n, manySegments.image = .error (.payloadTooLarge n) := by
  have hlength : manySegments.data.length = 0x100000000 := List.length_replicate
  have hcount : manySegments.dataCount? = some 0 := by
    have hcounted : manySegments.dataCount? = some (UInt32.ofNat manySegments.data.length) := rfl
    rw [hcounted, hlength]
    rfl
  have hlost : (0 : UInt32).toNat ≠ manySegments.data.length := by
    rw [hlength]
    decide
  exact ⟨hcount, hlost, image_in_full.2 manySegments 0 hcount hlost⟩

/-- The payload of the types has six bytes; the one body has four bytes behind its own length, in a
payload of six. -/
example : sizes ⟨.strict, [.types [⟨[.i32, .i64], []⟩], .code [⟨[⟨1, .i32⟩], [0x0b]⟩]]⟩ =
    [1, 2, 0, 6, 1, 1, 4, 6] := by cbv

end Assembly

end WasmBinary
