import Mathlib.Data.List.Forall2
import WasmBinary.Counted

/-!
# When counts and lengths can be written

A writing with a size in front succeeds exactly if the size fits into its 32 bits, and then the size
in front is the true one.
-/

namespace WasmBinary

/-! ## Steps that can fail -/

theorem bind_eq_ok_iff {ε α β : Type} {x : Except ε α} {f : α → Except ε β} {b : β} :
    x >>= f = .ok b ↔ ∃ a, x = .ok a ∧ f a = .ok b := by
  cases x with
  | error error => exact ⟨nofun, nofun⟩
  | ok a => exact ⟨fun h ↦ ⟨a, rfl, h⟩, fun ⟨_, ha, h⟩ ↦ Except.ok.inj ha ▸ h⟩

section MapM

variable {ε α β : Type} {f : α → Except ε β} {entries : List α} {results : List β}

theorem forall₂_of_mapM (h : entries.mapM f = .ok results) :
    List.Forall₂ (fun entry result ↦ f entry = .ok result) entries results := by
  induction entries generalizing results with
  | nil =>
    obtain rfl : [] = results := Except.ok.inj h
    exact .nil
  | cons first rest ih =>
    rw [List.mapM_cons] at h
    obtain ⟨result, hfirst, h⟩ := bind_eq_ok_iff.1 h
    obtain ⟨later, hrest, ⟨⟩⟩ := bind_eq_ok_iff.1 h
    exact .cons hfirst (ih hrest)

theorem exists_ok_of_mapM (h : entries.mapM f = .ok results) {entry : α} (hmem : entry ∈ entries) :
    ∃ result, f entry = .ok result := by
  have hall := (forall₂_of_mapM h).imp fun _ result hok ↦ And.intro (Exists.intro result hok) hok
  exact ((List.forall₂_and_left _ _).1 hall).1 entry hmem

theorem exists_entry_of_mapM (h : entries.mapM f = .ok results) {result : β}
    (hmem : result ∈ results) : ∃ entry ∈ entries, f entry = .ok result := by
  have hall := forall₂_of_mapM h
  clear h
  induction hall with
  | nil => exact absurd hmem List.not_mem_nil
  | @cons first _ _ _ hfirst _ ih =>
    rcases List.mem_cons.1 hmem with rfl | hmem
    · exact ⟨first, List.mem_cons_self, hfirst⟩
    · obtain ⟨entry, hentry, hok⟩ := ih hmem
      exact ⟨entry, List.mem_cons_of_mem _ hentry, hok⟩

end MapM

/-! ## Sizes in front -/

theorem toNat_ofNat_of_lt {n : Nat} (h : n < 0x100000000) : (UInt32.ofNat n).toNat = n := by
  rw [UInt32.toNat_ofNat']
  exact Nat.mod_eq_of_lt h

theorem encodeCount_eq_ok_iff {n : Nat} {written : Bytes} :
    encodeCount n = .ok written ↔ n < 0x100000000 ∧ written = encodeIndex (.ofNat n) := by
  by_cases h : n < 0x100000000
  · simp [encodeCount, checkedLength_of_lt h, h, Except.map, eq_comm]
  · simp [encodeCount, checkedLength_of_le (Nat.le_of_not_lt h), h, Except.map]

theorem lengthPrefixed_eq_ok_iff {bytes written : Bytes} :
    lengthPrefixed bytes = .ok written ↔
      bytes.length < 0x100000000 ∧ written = encodeIndex (.ofNat bytes.length) ++ bytes := by
  rw [lengthPrefixed, bind_eq_ok_iff]
  constructor
  · rintro ⟨count, hcount, hwritten⟩
    obtain ⟨hlength, rfl⟩ := encodeCount_eq_ok_iff.1 hcount
    exact ⟨hlength, (Except.ok.inj hwritten).symm⟩
  · rintro ⟨hlength, rfl⟩
    exact ⟨_, encodeCount_eq_ok_iff.2 ⟨hlength, rfl⟩, rfl⟩

theorem encodeVector_eq_ok_iff {α : Type} {encode : α → Except ModuleError Bytes}
    {entries : List α} {written : Bytes} :
    encodeVector encode entries = .ok written ↔
      entries.length < 0x100000000 ∧ ∃ encoded, entries.mapM encode = .ok encoded ∧
        written = encodeIndex (.ofNat entries.length) ++ encoded.flatten := by
  rw [encodeVector, bind_eq_ok_iff]
  constructor
  · rintro ⟨count, hcount, hwritten⟩
    obtain ⟨hlength, rfl⟩ := encodeCount_eq_ok_iff.1 hcount
    obtain ⟨encoded, hencoded, ⟨⟩⟩ := bind_eq_ok_iff.1 hwritten
    exact ⟨hlength, encoded, hencoded, rfl⟩
  · rintro ⟨hlength, encoded, hencoded, rfl⟩
    exact ⟨_, encodeCount_eq_ok_iff.2 ⟨hlength, rfl⟩, bind_eq_ok_iff.2 ⟨encoded, hencoded, rfl⟩⟩

/-- The vector of entries that can always be written. -/
theorem eq_of_encodeVector_plain {α : Type} {encode : α → Bytes} {entries : List α}
    {written : Bytes} (h : encodeVector (fun entry ↦ .ok (encode entry)) entries = .ok written) :
    written = encodeIndex (.ofNat entries.length) ++ (entries.map encode).flatten := by
  obtain ⟨-, encoded, hencoded, rfl⟩ := encodeVector_eq_ok_iff.1 h
  have hmap : entries.mapM (fun entry ↦ (.ok (encode entry) : Except ModuleError Bytes)) =
      .ok (entries.map encode) := List.mapM_pure
  rw [hmap] at hencoded
  rw [Except.ok.inj hencoded]

/-! ## The first size that does not fit -/

/-- A writing fails exactly if one of its sizes does not fit, and for the first that does not. -/
def ChecksSizes {α : Type} (sizes : List Nat) (encoded : Except ModuleError α) : Prop :=
  match sizes.find? (0x100000000 ≤ ·) with
  | some n => encoded = .error (.payloadTooLarge n)
  | none => ∃ a, encoded = .ok a

section ChecksSizes

variable {α β : Type} {sizes later : List Nat}

theorem checksSizes_ok (a : α) : ChecksSizes [] (.ok a) := ⟨a, rfl⟩

theorem checksSizes_count (n : Nat) : ChecksSizes [n] (encodeCount n) := by
  rw [ChecksSizes, List.find?_singleton]
  by_cases h : 0x100000000 ≤ n
  · simp [h, encodeCount, checkedLength_of_le h, Except.map]
  · simp [h, encodeCount, checkedLength_of_lt (Nat.lt_of_not_le h), Except.map]

theorem ChecksSizes.bind {x : Except ModuleError α} {f : α → Except ModuleError β}
    (hx : ChecksSizes sizes x) (hf : ∀ a, x = .ok a → ChecksSizes later (f a)) :
    ChecksSizes (sizes ++ later) (x >>= f) := by
  rw [ChecksSizes, List.find?_append]
  rw [ChecksSizes] at hx
  cases hfirst : sizes.find? (0x100000000 ≤ ·) with
  | some n =>
    rw [hfirst] at hx
    rw [hx]
    rfl
  | none =>
    rw [hfirst] at hx
    obtain ⟨a, rfl⟩ := hx
    exact hf a rfl

theorem ChecksSizes.bind_pure {x : Except ModuleError α} (hx : ChecksSizes sizes x) {g : α → β} :
    ChecksSizes sizes (x >>= fun a ↦ pure (g a)) := by
  have h := hx.bind fun a _ ↦ checksSizes_ok (g a)
  rwa [List.append_nil] at h

theorem ChecksSizes.map {x : Except ModuleError α} (hx : ChecksSizes sizes x) (g : α → β) :
    ChecksSizes sizes (x.map g) := by
  have hmap : x.map g = x >>= fun a ↦ pure (g a) := by cases x <;> rfl
  rw [hmap]
  exact hx.bind_pure

theorem ChecksSizes.mapM {encode : α → Except ModuleError β} {size : α → List Nat}
    {entries : List α} (h : ∀ entry ∈ entries, ChecksSizes (size entry) (encode entry)) :
    ChecksSizes (entries.flatMap size) (entries.mapM encode) := by
  induction entries with
  | nil => exact checksSizes_ok []
  | cons entry entries ih =>
    rw [List.forall_mem_cons] at h
    rw [List.mapM_cons, List.flatMap_cons]
    exact h.1.bind fun first _ ↦ (ih h.2).bind_pure

theorem checksSizes_vector {encode : α → Except ModuleError Bytes} {size : α → List Nat}
    (h : ∀ entry, ChecksSizes (size entry) (encode entry)) (entries : List α) :
    ChecksSizes (entries.length :: entries.flatMap size) (encodeVector encode entries) :=
  (checksSizes_count _).bind fun _ _ ↦ (ChecksSizes.mapM fun entry _ ↦ h entry).bind_pure

theorem checksSizes_plainVector (encode : α → Bytes) (entries : List α) :
    ChecksSizes [entries.length] (encodeVector (fun entry ↦ .ok (encode entry)) entries) := by
  have h := checksSizes_vector (fun entry ↦ checksSizes_ok (encode entry)) entries
  rwa [List.flatMap_eq_nil_iff.2 fun _ _ ↦ rfl] at h

theorem checksSizes_blob (bytes : Bytes) : ChecksSizes [bytes.length] (lengthPrefixed bytes) :=
  (checksSizes_count _).bind_pure

theorem ChecksSizes.exists_ok_iff {encoded : Except ModuleError α} (h : ChecksSizes sizes encoded) :
    (∃ a, encoded = .ok a) ↔ ∀ n ∈ sizes, n < 0x100000000 := by
  have hnone : sizes.find? (0x100000000 ≤ ·) = none ↔ ∀ n ∈ sizes, n < 0x100000000 := by
    simp [List.find?_eq_none]
  rw [← hnone]
  rw [ChecksSizes] at h
  cases hfirst : sizes.find? (0x100000000 ≤ ·) with
  | some n =>
    rw [hfirst] at h
    simp [h]
  | none =>
    rw [hfirst] at h
    simp [h]

theorem ChecksSizes.exists_ok {encoded : Except ModuleError α} (h : ChecksSizes sizes encoded)
    (hfit : ∀ n ∈ sizes, n < 0x100000000) : ∃ a, encoded = .ok a :=
  h.exists_ok_iff.2 hfit

theorem ChecksSizes.eq_error_iff {encoded : Except ModuleError α} (h : ChecksSizes sizes encoded)
    (error : ModuleError) :
    encoded = .error error ↔ ∃ before n after, sizes = before ++ n :: after ∧
      (∀ m ∈ before, m < 0x100000000) ∧ 0x100000000 ≤ n ∧ error = .payloadTooLarge n := by
  have hfind : encoded = .error error ↔
      ∃ n, sizes.find? (0x100000000 ≤ ·) = some n ∧ error = .payloadTooLarge n := by
    rw [ChecksSizes] at h
    cases hfirst : sizes.find? (0x100000000 ≤ ·) with
    | some n =>
      rw [hfirst] at h
      simp [h, eq_comm]
    | none =>
      rw [hfirst] at h
      obtain ⟨a, rfl⟩ := h
      simp
  simp only [hfind, List.find?_eq_some_iff_append, decide_eq_true_eq, Bool.not_eq_true',
    decide_eq_false_iff_not, Nat.not_le]
  constructor
  · rintro ⟨n, ⟨hn, before, after, hsizes, hbefore⟩, rfl⟩
    exact ⟨before, n, after, hsizes, hbefore, hn, rfl⟩
  · rintro ⟨before, n, after, hsizes, hbefore, hn, rfl⟩
    exact ⟨n, ⟨hn, before, after, hsizes, hbefore⟩, rfl⟩

end ChecksSizes

end WasmBinary
