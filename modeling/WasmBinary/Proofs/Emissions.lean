import WasmBinary.Proofs.Framing

/-!
# One pass over the sections

An image is made, or not, as its sections are emitted one after another.  A section that declares
nothing is emitted without bytes, so for the image it could as well be missing.
-/

namespace WasmBinary

/-- What is seen of the results is what the entries say, if each result is seen so. -/
theorem map_eq_of_mapM {ε α β γ : Type} {f : α → Except ε β} {view : β → γ} {g : α → γ}
    (hview : ∀ entry result, f entry = .ok result → view result = g entry) {entries : List α}
    {results : List β} (h : entries.mapM f = .ok results) : results.map view = entries.map g := by
  have hall := forall₂_of_mapM h
  clear h
  induction hall with
  | nil => rfl
  | cons hfirst hrest ih => rw [List.map_cons, List.map_cons, hview _ _ hfirst, ih]

theorem emissions_eq_mapM (sections : List Section) :
    (match emissions sections with
      | (written, none) => .ok written
      | (_, some error) => .error error) = sections.mapM Section.emission := by
  induction sections with
  | nil => rfl
  | cons first rest ih =>
    rw [List.mapM_cons, ← ih]
    cases hfirst : first.emission with
    | error error => simp only [emissions, hfirst]; rfl
    | ok emission =>
      rcases hrest : emissions rest with ⟨later, error?⟩
      cases error? <;> simp only [emissions, hfirst, hrest] <;> rfl

theorem emissions_of_mapM {sections : List Section} {written : List Emission}
    (h : sections.mapM Section.emission = .ok written) : emissions sections = (written, none) := by
  rw [← emissions_eq_mapM] at h
  rcases hsections : emissions sections with ⟨others, error?⟩
  rw [hsections] at h
  cases error? with
  | some error => exact absurd h nofun
  | none => rw [Except.ok.inj h]

/-- The bytes of the frames, without the preamble. -/
def framesBytes (sections : List Section) : Except ModuleError Bytes :=
  (sections.mapM Section.emission).map fun written ↦ written.flatMap Emission.bytes

theorem framesBytes_cons (first : Section) (rest : List Section) :
    framesBytes (first :: rest) =
      first.emission >>= fun emission ↦ (framesBytes rest).map (emission.bytes ++ ·) := by
  rw [framesBytes, framesBytes, List.mapM_cons]
  cases first.emission with
  | error error => rfl
  | ok emission => cases rest.mapM Section.emission <;> rfl

theorem framesBytes_framed (sections : List Section) :
    framesBytes (framed sections) = framesBytes sections := by
  induction sections with
  | nil => rfl
  | cons first rest ih =>
    cases hempty : first.isEmpty with
    | true =>
      rw [framed_cons_of_isEmpty hempty, ih, framesBytes_cons, Section.emission_of_isEmpty hempty]
      cases framesBytes rest <;> rfl
    | false => rw [framed_cons_of_not_isEmpty hempty, framesBytes_cons, framesBytes_cons, ih]

namespace Assembly

theorem image_eq_map (assembly : Assembly) :
    assembly.image = (framesBytes assembly.ordered).map (preamble ++ ·) := by
  rw [image, framesBytes, ← emissions_eq_mapM]
  rcases emissions assembly.ordered with ⟨written, error?⟩
  cases error? <;> rfl

/-- An image is the preamble and the bytes of all emissions. -/
theorem exists_written_of_image {assembly : Assembly} {bytes : Bytes}
    (h : assembly.image = .ok bytes) :
    ∃ written, assembly.ordered.mapM Section.emission = .ok written ∧
      bytes = preamble ++ written.flatMap Emission.bytes := by
  rw [image_eq_map, framesBytes] at h
  cases hwritten : assembly.ordered.mapM Section.emission with
  | error error =>
    rw [hwritten] at h
    exact absurd h nofun
  | ok written =>
    rw [hwritten] at h
    exact ⟨written, rfl, (Except.ok.inj h).symm⟩

/-- What declares nothing makes no difference to the image. -/
theorem image_eq_of_framed_eq {assembly other : Assembly}
    (h : framed assembly.ordered = framed other.ordered) : assembly.image = other.image := by
  rw [image_eq_map, image_eq_map, ← framesBytes_framed, h, framesBytes_framed]

end Assembly

end WasmBinary
