import WasmBinary.Proofs.Framing

/-!
# Reading whole modules

A module is read by splitting it into its frames and reading each payload by the grammar of the kind
that the frame has in front.  An image is read back as the sections that declare something, in the
order of writing.
-/

namespace WasmBinary

/-- The section in a frame, if the grammar of its kind reads the payload to the last byte. -/
def Frame.section? (frame : Frame) : Option Section :=
  match SectionKind.ofByte? frame.id with
  | none => none
  | some kind =>
    match (Parser.payload kind).run frame.payload with
    | some (contents, []) => some contents
    | _ => none

def readModule (bytes : Bytes) : Option (List Section) :=
  match split bytes with
  | .ok frames => frames.mapM Frame.section?
  | .error _ => none

theorem Section.section?_frame {contents : Section} {frame : Frame}
    (hne : contents.isEmpty = false) (hframe : contents.frame = .ok frame) :
    frame.section? = some contents := by
  obtain ⟨hpayload, hid⟩ := frame_eq_ok_iff.1 hframe
  rw [Frame.section?, hid, SectionKind.ofByte?_byte]
  simp only [Parser.run_payload hne hpayload]

theorem mapM_section?_frames {sections : List Section} {frames : List Frame}
    (hne : ∀ contents ∈ sections, contents.isEmpty = false)
    (hframes : sections.mapM Section.frame = .ok frames) :
    frames.mapM Frame.section? = some sections := by
  have hall := forall₂_of_mapM hframes
  clear hframes
  induction hall with
  | nil => rfl
  | cons hfirst hrest ih =>
    rw [List.forall_mem_cons] at hne
    rw [List.mapM_cons, Section.section?_frame hne.1 hfirst, ih hne.2]
    rfl

namespace Assembly

variable {assembly : Assembly} {bytes : Bytes}

/-- An image is read back as the sections that declare something. -/
theorem readModule_image (h : assembly.image = .ok bytes) :
    readModule bytes = some (framed assembly.ordered) := by
  obtain ⟨frames, hframes, hfit, rfl⟩ := image_eq_ok_iff.1 h
  rw [readModule, split_encode hfit]
  exact mapM_section?_frames (fun contents hmem ↦ (mem_framed.1 hmem).2) hframes

/-- If an image is made, each of its sections has been rendered. -/
theorem exists_render_of_image (h : assembly.image = .ok bytes) {contents : Section}
    (hmem : contents ∈ assembly.ordered) : ∃ payload, contents.render = .ok payload := by
  cases hempty : contents.isEmpty with
  | true => exact ⟨[], Section.render_of_isEmpty hempty⟩
  | false =>
    obtain ⟨frames, hframes, -⟩ := image_eq_ok_iff.1 h
    obtain ⟨frame, hframe⟩ := exists_ok_of_mapM hframes (mem_framed.2 ⟨hmem, hempty⟩)
    exact ⟨frame.payload, (Section.frame_eq_ok_iff.1 hframe).1⟩

end Assembly

end WasmBinary
