import WasmBinary.Assembly.Image
import WasmBinary.Proofs.Grammar.Section

/-!
# Modules split into frames

A module is split into its frames by their length prefixes alone, with no knowledge of how it was
put together.  What is split off an image are the sections that declare something, in the order of
writing, each with its payload; nothing else is left in the image but the preamble.
-/

namespace WasmBinary

/-! ## The splitter -/

/-- The byte of a kind of section, and the payload. -/
structure Frame where
  id : UInt8
  payload : Bytes
deriving DecidableEq

inductive SplitFault
  | noPreamble
  | badLength (error : ModuleError)
  /-- The bytes end before the payload does. -/
  | overrun (id : UInt8)

def framesFrom (bytes : Bytes) (position : Nat) : Except SplitFault (List Frame) :=
  if h : position < bytes.length then
    match Varint.readAt .u32 bytes (position + 1) with
    | .error error => .error (.badLength error)
    | .ok (length, consumed) =>
      let start := position + 1 + consumed
      let stop := start + length.toInt.toNat
      if stop ≤ bytes.length then
        (framesFrom bytes stop).map (⟨bytes[position], (bytes.take stop).drop start⟩ :: ·)
      else .error (.overrun bytes[position])
  else .ok []
termination_by bytes.length - position

def split (bytes : Bytes) : Except SplitFault (List Frame) :=
  if bytes.take 8 = preamble then framesFrom bytes 8 else .error .noPreamble

/-! ## Frames as bytes -/

namespace Frame

def encode (frame : Frame) : Bytes :=
  frame.id :: (encodeIndex (.ofNat frame.payload.length) ++ frame.payload)

def Fits (frame : Frame) : Prop :=
  frame.payload.length < 0x100000000

theorem readAt_encode {frame : Frame} (before after : Bytes) :
    Varint.readAt .u32 (before ++ frame.encode ++ after) (before.length + 1) =
      .ok (.u32 (.ofNat frame.payload.length),
        (encodeIndex (.ofNat frame.payload.length)).length) := by
  have hat : (before ++ frame.encode ++ after).drop (before.length + 1) =
      (Varint.u32 (.ofNat frame.payload.length)).encode ++ (frame.payload ++ after) := by
    rw [List.append_assoc, List.drop_append, encode]
    simp [encodeIndex]
  have hread := Varint.read_encode hat
  rw [Varint.kind] at hread
  rw [Varint.readAt, hread]
  rfl

/-- A frame that fits is split off, and the splitting goes on right behind it. -/
theorem framesFrom_encode {frame : Frame} {before after : Bytes} (hfit : frame.Fits) :
    framesFrom (before ++ frame.encode ++ after) before.length =
      (framesFrom (before ++ frame.encode ++ after) (before ++ frame.encode).length).map
        (frame :: ·) := by
  set bytes := before ++ frame.encode ++ after with hbytes
  have hlength : (Varint.u32 (.ofNat frame.payload.length)).toInt.toNat = frame.payload.length := by
    rw [Varint.toInt, Int.toNat_natCast, toNat_ofNat_of_lt hfit]
  have hstop : before.length + 1 + (encodeIndex (.ofNat frame.payload.length)).length +
      frame.payload.length = (before ++ frame.encode).length := by
    simp [encode]
    omega
  have hinside : (before ++ frame.encode).length ≤ bytes.length := by
    simp [hbytes]
  have hposition : before.length < bytes.length := by omega
  have hbyte : bytes[before.length] = frame.id := by
    simp [hbytes, encode]
  have hpayload : (bytes.take (before ++ frame.encode).length).drop
      (before.length + 1 + (encodeIndex (.ofNat frame.payload.length)).length) =
        frame.payload := by
    rw [hbytes, List.take_left, ← List.drop_drop, ← List.drop_drop, List.drop_left, encode,
      List.drop_one, List.tail_cons, List.drop_left]
  rw [framesFrom, dif_pos hposition, readAt_encode]
  simp only [hlength, hstop, hbyte, hpayload, if_pos hinside]

end Frame

theorem framesFrom_flatMap {frames : List Frame} (hfit : ∀ frame ∈ frames, frame.Fits)
    (before : Bytes) :
    framesFrom (before ++ frames.flatMap Frame.encode) before.length = .ok frames := by
  induction frames generalizing before with
  | nil =>
    rw [List.flatMap_nil, List.append_nil, framesFrom, dif_neg (Nat.lt_irrefl _)]
  | cons frame frames ih =>
    rw [List.forall_mem_cons] at hfit
    have hrest := ih hfit.2 (before ++ frame.encode)
    rw [List.flatMap_cons, ← List.append_assoc, Frame.framesFrom_encode hfit.1, hrest]
    rfl

theorem split_encode {frames : List Frame} (hfit : ∀ frame ∈ frames, frame.Fits) :
    split (preamble ++ frames.flatMap Frame.encode) = .ok frames := by
  have hpreamble : (preamble ++ frames.flatMap Frame.encode).take 8 = preamble := rfl
  rw [split, if_pos hpreamble]
  exact framesFrom_flatMap hfit preamble

/-! ## Sections with a frame -/

/-- The sections that declare something. -/
def framed (sections : List Section) : List Section :=
  sections.filter fun contents ↦ !contents.isEmpty

theorem mem_framed {sections : List Section} {contents : Section} :
    contents ∈ framed sections ↔ contents ∈ sections ∧ contents.isEmpty = false := by
  simp [framed]

theorem framed_append (sections others : List Section) :
    framed (sections ++ others) = framed sections ++ framed others :=
  List.filter_append _ _

theorem framed_cons_of_isEmpty {first : Section} (h : first.isEmpty = true)
    (rest : List Section) : framed (first :: rest) = framed rest :=
  List.filter_cons_of_neg (by simp [h])

theorem framed_cons_of_not_isEmpty {first : Section} (h : first.isEmpty = false)
    (rest : List Section) : framed (first :: rest) = first :: framed rest :=
  List.filter_cons_of_pos (by simp [h])

theorem framed_customs {customs : List Section}
    (h : ∀ contents ∈ customs, contents.kind.isCustom = true) : framed customs = customs := by
  refine List.filter_eq_self.2 ?_
  intro contents hmem
  cases contents with
  | custom contents => rfl
  | _ => exact absurd (h _ hmem) Bool.false_ne_true

namespace Section

def frame (contents : Section) : Except ModuleError Frame :=
  contents.render.map fun payload ↦ ⟨contents.kind.byte, payload⟩

theorem frame_eq_ok_iff {contents : Section} {frame : Frame} :
    contents.frame = .ok frame ↔
      contents.render = .ok frame.payload ∧ frame.id = contents.kind.byte := by
  obtain ⟨id, payload⟩ := frame
  rw [Section.frame]
  cases contents.render with
  | error error => simp [Except.map]
  | ok rendered => simp [Except.map, and_comm, eq_comm]

theorem payload_ne_nil {contents : Section} {frame : Frame} (hne : contents.isEmpty = false)
    (hframe : contents.frame = .ok frame) : frame.payload ≠ [] := by
  rw [Ne, render_eq_nil_iff (frame_eq_ok_iff.1 hframe).1, hne]
  exact Bool.false_ne_true

/-! ## One emission -/

theorem emission_of_isEmpty {contents : Section} (h : contents.isEmpty = true) :
    contents.emission = .ok (.skipped contents.kind) := by
  rw [emission, render_of_isEmpty h]
  rfl

theorem emission_of_frame {contents : Section} {frame : Frame}
    (hne : contents.isEmpty = false) (hframe : contents.frame = .ok frame) (hfit : frame.Fits) :
    contents.emission = .ok (.framed contents.kind frame.payload.length frame.encode) := by
  obtain ⟨hpayload, hid⟩ := frame_eq_ok_iff.1 hframe
  have hprefixed := lengthPrefixed_eq_ok_iff.2 ⟨hfit, rfl⟩
  rw [emission, bind_eq_ok_iff]
  refine ⟨_, hpayload, ?_⟩
  rw [List.isEmpty_eq_false_iff.2 (payload_ne_nil hne hframe), Frame.encode, hid]
  exact bind_eq_ok_iff.2 ⟨_, hprefixed, rfl⟩

/-- The emission of a section that declares something is the frame of its payload. -/
theorem exists_frame_of_emission {contents : Section} {emission : Emission}
    (hne : contents.isEmpty = false) (h : contents.emission = .ok emission) :
    ∃ frame, contents.frame = .ok frame ∧ frame.Fits ∧ emission.bytes = frame.encode := by
  obtain ⟨payload, hpayload, h⟩ := bind_eq_ok_iff.1 h
  have hframe : contents.frame = .ok ⟨contents.kind.byte, payload⟩ :=
    frame_eq_ok_iff.2 ⟨hpayload, rfl⟩
  rw [List.isEmpty_eq_false_iff.2 (payload_ne_nil hne hframe)] at h
  obtain ⟨prefixed, hprefixed, ⟨⟩⟩ := bind_eq_ok_iff.1 h
  obtain ⟨hlength, rfl⟩ := lengthPrefixed_eq_ok_iff.1 hprefixed
  exact ⟨_, hframe, hlength, rfl⟩

end Section

/-! ## The frames of an image -/

theorem frames_of_emissions {sections : List Section} {written : List Emission}
    (h : emissions sections = (written, none)) :
    ∃ frames, (framed sections).mapM Section.frame = .ok frames ∧
      (∀ frame ∈ frames, frame.Fits) ∧
      written.flatMap Emission.bytes = frames.flatMap Frame.encode := by
  induction sections generalizing written with
  | nil =>
    obtain rfl : [] = written := congrArg Prod.fst h
    exact ⟨[], rfl, List.forall_mem_nil _, rfl⟩
  | cons first rest ih =>
    rw [emissions] at h
    cases hfirst : first.emission with
    | error error =>
      rw [hfirst] at h
      exact absurd (congrArg Prod.snd h) (Option.some_ne_none error)
    | ok emission =>
      rw [hfirst] at h
      rcases hrest : emissions rest with ⟨later, error?⟩
      rw [hrest] at h
      obtain ⟨rfl, rfl⟩ : emission :: later = written ∧ error? = none := Prod.mk.inj h
      obtain ⟨frames, hframes, hfit, hbytes⟩ := ih hrest
      cases hempty : first.isEmpty with
      | true =>
        -- It is skipped, and it has no frame either.
        rw [Section.emission_of_isEmpty hempty] at hfirst
        obtain rfl := Except.ok.inj hfirst
        rw [framed_cons_of_isEmpty hempty]
        exact ⟨frames, hframes, hfit, hbytes⟩
      | false =>
        obtain ⟨frame, hframe, hfirstFit, hencode⟩ :=
          Section.exists_frame_of_emission hempty hfirst
        refine ⟨frame :: frames, ?_, List.forall_mem_cons.2 ⟨hfirstFit, hfit⟩, ?_⟩
        · rw [framed_cons_of_not_isEmpty hempty, List.mapM_cons, hframe, hframes]
          rfl
        · rw [List.flatMap_cons, List.flatMap_cons, hencode, hbytes]

theorem emissions_of_frames {sections : List Section} {frames : List Frame}
    (hframes : (framed sections).mapM Section.frame = .ok frames)
    (hfit : ∀ frame ∈ frames, frame.Fits) :
    ∃ written, emissions sections = (written, none) ∧
      written.flatMap Emission.bytes = frames.flatMap Frame.encode := by
  induction sections generalizing frames with
  | nil =>
    obtain rfl : [] = frames := Except.ok.inj hframes
    exact ⟨[], rfl, rfl⟩
  | cons first rest ih =>
    cases hempty : first.isEmpty with
    | true =>
      rw [framed_cons_of_isEmpty hempty] at hframes
      obtain ⟨written, hwritten, hbytes⟩ := ih hframes hfit
      refine ⟨.skipped first.kind :: written, ?_, hbytes⟩
      simp only [emissions, Section.emission_of_isEmpty hempty, hwritten]
    | false =>
      rw [framed_cons_of_not_isEmpty hempty, List.mapM_cons] at hframes
      obtain ⟨frame, hframe, hrest⟩ := bind_eq_ok_iff.1 hframes
      obtain ⟨later, hlater, ⟨⟩⟩ := bind_eq_ok_iff.1 hrest
      rw [List.forall_mem_cons] at hfit
      have hemission := Section.emission_of_frame hempty hframe hfit.1
      obtain ⟨written, hwritten, hbytes⟩ := ih hlater hfit.2
      refine ⟨.framed first.kind frame.payload.length frame.encode :: written, ?_, ?_⟩
      · simp only [emissions, hemission, hwritten]
      · rw [List.flatMap_cons, List.flatMap_cons, hbytes]
        rfl

namespace Assembly

/-- An image is made exactly if every section can be rendered to a payload whose length fits. -/
theorem image_eq_ok_iff {assembly : Assembly} {bytes : Bytes} :
    assembly.image = .ok bytes ↔ ∃ frames,
      (framed assembly.ordered).mapM Section.frame = .ok frames ∧
        (∀ frame ∈ frames, frame.Fits) ∧ bytes = preamble ++ frames.flatMap Frame.encode := by
  rw [image]
  constructor
  · intro h
    rcases hwritten : emissions assembly.ordered with ⟨written, error?⟩
    rw [hwritten] at h
    cases error? with
    | some error => exact absurd h nofun
    | none =>
      obtain ⟨frames, hframes, hfit, hbytes⟩ := frames_of_emissions hwritten
      obtain rfl := Except.ok.inj h
      exact ⟨frames, hframes, hfit, by rw [hbytes]⟩
  · rintro ⟨frames, hframes, hfit, rfl⟩
    obtain ⟨written, hwritten, hbytes⟩ := emissions_of_frames hframes hfit
    rw [hwritten, ← hbytes]

/-- Whatever has been put together, its image is split into the frames of the sections that declare
something, in the order of writing.  Behind the preamble there is nothing but these frames, and
none of them has an empty payload. -/
theorem split_image {assembly : Assembly} {bytes : Bytes} (h : assembly.image = .ok bytes) :
    bytes.take 8 = preamble ∧
      ∃ frames, (framed assembly.ordered).mapM Section.frame = .ok frames ∧
        split bytes = .ok frames ∧ bytes = preamble ++ frames.flatMap Frame.encode ∧
        ∀ frame ∈ frames, frame.payload ≠ [] := by
  obtain ⟨frames, hframes, hfit, rfl⟩ := image_eq_ok_iff.1 h
  refine ⟨rfl, frames, hframes, split_encode hfit, rfl, ?_⟩
  intro frame hmem
  obtain ⟨contents, hcontents, hframe⟩ := exists_entry_of_mapM hframes hmem
  exact Section.payload_ne_nil (mem_framed.1 hcontents).2 hframe

/-- The first section declares nothing. -/
def startLast : Assembly :=
  ⟨.strict, [.types [], .functions [0, 200], .start (some 7)]⟩

theorem split_image_startLast :
    startLast.image = .ok (preamble ++ [3, 4, 2, 0, 200, 1, 8, 1, 7]) ∧
      ∃ frames, (framed startLast.ordered).mapM Section.frame = .ok frames ∧
        split (preamble ++ [3, 4, 2, 0, 200, 1, 8, 1, 7]) = .ok frames := by
  have himage : startLast.image = .ok (preamble ++ [3, 4, 2, 0, 200, 1, 8, 1, 7]) := by cbv
  obtain ⟨-, frames, hframes, hsplit, -⟩ := split_image himage
  exact ⟨himage, frames, hframes, hsplit⟩

end Assembly

end WasmBinary
