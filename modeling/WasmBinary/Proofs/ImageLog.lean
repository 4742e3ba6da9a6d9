import Mathlib.Data.List.ReduceOption
import WasmBinary.Proofs.Emissions

/-!
# The log of an image

The log of making an image has a line for each section in the order of writing, and a line for the
whole.  What the lines say is what is found in the image when it is split into its frames.
-/

namespace WasmBinary

/-! ## One section -/

namespace Section

/-- What an image holds of a section: the frame of its payload, or nothing if it declares nothing. -/
def Leaves (contents : Section) : Option Frame → Prop
  | none => contents.isEmpty = true
  | some frame => contents.isEmpty = false ∧ contents.frame = .ok frame

/-- What the log says of a section that leaves a frame or nothing. -/
def logMessage (contents : Section) : Option Frame → String
  | none => "skipping empty " ++ contents.kind.name ++ " section"
  | some frame =>
    "emitted " ++ contents.kind.name ++ " section: " ++ toString frame.payload.length ++ " bytes"

/-- A section is emitted as what it leaves, and the log says so. -/
theorem exists_leaves {contents : Section} {emission : Emission}
    (h : contents.emission = .ok emission) :
    ∃ place, contents.Leaves place ∧ emission.event.message = contents.logMessage place ∧
      emission.bytes = place.toList.flatMap Frame.encode ∧ ∀ frame ∈ place, frame.Fits := by
  cases hempty : contents.isEmpty with
  | true =>
    rw [emission_of_isEmpty hempty] at h
    obtain rfl := Except.ok.inj h
    exact ⟨none, hempty, rfl, rfl, nofun⟩
  | false =>
    obtain ⟨frame, hframe, hfit, -⟩ := exists_frame_of_emission hempty h
    rw [emission_of_frame hempty hframe hfit] at h
    obtain rfl := Except.ok.inj h
    refine ⟨some frame, ⟨hempty, hframe⟩, rfl, (List.flatMap_singleton _ _).symm, ?_⟩
    rintro _ ⟨⟩
    exact hfit

end Section

theorem Frame.length_encode {frame : Frame} (h : frame.Fits) :
    frame.encode.length =
      1 + Varint.unsignedLength frame.payload.length + frame.payload.length := by
  rw [encode, List.length_cons, List.length_append, Varint.length_encodeIndex,
    toNat_ofNat_of_lt h]
  omega

/-! ## All sections -/

theorem exists_places {sections : List Section} {written : List Emission}
    (h : List.Forall₂ (fun contents emission ↦ contents.emission = .ok emission) sections written) :
    ∃ places : List (Option Frame), List.Forall₂ Section.Leaves sections places ∧
      written.map (fun emission ↦ emission.event.message) =
        List.zipWith Section.logMessage sections places ∧
      written.flatMap Emission.bytes = places.reduceOption.flatMap Frame.encode ∧
      ∀ frame ∈ places.reduceOption, frame.Fits := by
  induction h with
  | nil => exact ⟨[], .nil, rfl, rfl, nofun⟩
  | cons hfirst hrest ih =>
    obtain ⟨place, hleaves, hmessage, hbytes, hfit⟩ := Section.exists_leaves hfirst
    obtain ⟨places, hleaves', hmessages, hbytes', hfit'⟩ := ih
    have hreduced : (place :: places).reduceOption = place.toList ++ places.reduceOption := by
      cases place <;> rfl
    refine ⟨place :: places, .cons hleaves hleaves', ?_, ?_, ?_⟩
    · rw [List.map_cons, List.zipWith_cons_cons, hmessage, hmessages]
    · rw [List.flatMap_cons, hreduced, List.flatMap_append, hbytes, hbytes']
    · intro frame hmem
      rw [hreduced, List.mem_append, Option.mem_toList] at hmem
      exact hmem.elim (hfit frame) (hfit' frame)

namespace Assembly

theorem imageLog_of_mapM {assembly : Assembly} {bytes : Bytes} {written : List Emission}
    (hwritten : assembly.ordered.mapM Section.emission = .ok written)
    (h : assembly.image = .ok bytes) :
    assembly.imageLog = written.map Emission.event ++ [.moduleEncoded bytes.length] := by
  rw [imageLog, emissions_of_mapM hwritten, h]

/-- The log of an image that is made.  Of each section in the order of writing the image holds a
frame or nothing, and the frames are all that it is split into.  The log has a line for each section,
which says that it is skipped if it leaves nothing, and otherwise gives the length of the payload in
its frame; the last line gives the length of the image, which is that of the preamble and of all
frames with their ids and prefixes. -/
theorem imageLog_image {assembly : Assembly} {bytes : Bytes} (h : assembly.image = .ok bytes) :
    ∃ places : List (Option Frame),
      List.Forall₂ Section.Leaves assembly.ordered places ∧
      split bytes = .ok places.reduceOption ∧
      assembly.imageLog.map Event.message =
        List.zipWith Section.logMessage assembly.ordered places ++
          ["module encoded: " ++ toString bytes.length ++ " bytes"] ∧
      bytes.length = 8 + (places.reduceOption.map fun frame ↦
        1 + Varint.unsignedLength frame.payload.length + frame.payload.length).sum := by
  obtain ⟨written, hwritten, hbytes⟩ := exists_written_of_image h
  obtain ⟨places, hleaves, hmessages, hframes, hfit⟩ := exists_places (forall₂_of_mapM hwritten)
  rw [hframes] at hbytes
  refine ⟨places, hleaves, ?_, ?_, ?_⟩
  · rw [hbytes]
    exact split_encode hfit
  · rw [imageLog_of_mapM hwritten h, List.map_append, List.map_map, ← hmessages]
    rfl
  · rw [hbytes, List.length_append, length_preamble, List.length_flatMap]
    congr 2
    exact List.map_congr_left fun frame hmem ↦ Frame.length_encode (hfit frame hmem)

theorem imageLog_image_startLast :
    startLast.image = .ok (preamble ++ [3, 4, 2, 0, 200, 1, 8, 1, 7]) ∧
      startLast.imageLog = [.sectionSkipped .types, .sectionEmitted .functions 4,
        .sectionEmitted .start 1, .moduleEncoded 17] ∧
      ∃ places : List (Option Frame),
        List.Forall₂ Section.Leaves startLast.ordered places ∧
        split (preamble ++ [3, 4, 2, 0, 200, 1, 8, 1, 7]) = .ok places.reduceOption ∧
        startLast.imageLog.map Event.message =
          List.zipWith Section.logMessage startLast.ordered places ++
            ["module encoded: " ++ toString 17 ++ " bytes"] := by
  have himage : startLast.image = .ok (preamble ++ [3, 4, 2, 0, 200, 1, 8, 1, 7]) := by cbv
  obtain ⟨places, hleaves, hsplit, hlog, -⟩ := imageLog_image himage
  exact ⟨himage, by cbv, places, hleaves, hsplit, hlog⟩

end Assembly

end WasmBinary
