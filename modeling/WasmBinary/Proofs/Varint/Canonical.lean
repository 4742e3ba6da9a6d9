import WasmBinary.Proofs.Varint.Acceptance
import Mathlib.Order.Interval.Set.Defs

/-!
# All ways to write an integer

An integer can be written with more groups than it needs, as long as its kind admits them: the
further groups only repeat its sign.  For every length from that of the written form up to the
greatest that the kind admits there is just one such form, and none of any other length.  What a
writer gives is the shortest.
-/

namespace WasmBinary.Varint

/-! ## Integers in a given number of groups -/

/-- The low groups of an integer, as many as `more + 1`. -/
def padded (i : Int) : Nat → Bytes
  | 0 => [UInt8.ofNat (i % 128).toNat]
  | more + 1 => UInt8.ofNat ((i % 128).toNat + 128) :: padded (i / 128) more

@[simp] theorem length_padded (i : Int) (more : Nat) : (padded i more).length = more + 1 := by
  induction more generalizing i with
  | zero => rfl
  | succ more ih => rw [padded, List.length_cons, ih]

theorem terminated_padded (i : Int) (more : Nat) : Terminated (padded i more) := by
  induction more generalizing i with
  | zero => exact .last (continues_low (by omega))
  | succ more ih => exact .more (continues_high (by omega)) (ih _)

theorem emod_pow_succ (i : Int) (groups : Nat) :
    i % 128 ^ (groups + 1) = i % 128 + 128 * (i / 128 % 128 ^ groups) := by
  have hdiv : i / 128 / 128 ^ groups = i / (128 * 128 ^ groups) :=
    Int.ediv_ediv_of_nonneg (by decide)
  rw [pow_succ', Int.emod_def, Int.emod_def i 128, Int.emod_def (i / 128), hdiv]
  ring

theorem groupsValue_padded (i : Int) (more : Nat) :
    (groupsValue (padded i more) : Int) = i % 128 ^ (more + 1) := by
  induction more generalizing i with
  | zero =>
    rw [padded, groupsValue_cons, groupsValue_nil, toNat_low_mod (by omega)]
    omega
  | succ more ih =>
    rw [padded, groupsValue_cons, toNat_high_mod (by omega), emod_pow_succ, ← ih]
    omega

/-- A varint is made of the low groups of any integer that it agrees with so far. -/
theorem padded_of_terminated {varint : Bytes} (h : Terminated varint) {i : Int}
    (hi : i % 128 ^ varint.length = groupsValue varint) :
    padded i (varint.length - 1) = varint := by
  induction h generalizing i with
  | @last byte h =>
    rw [continues_eq_false_iff] at h
    simp only [List.length_singleton, pow_one, groupsValue_cons, groupsValue_nil] at hi
    have hbyte : (i % 128).toNat = byte.toNat := by omega
    simp [padded, hbyte]
  | @more byte rest h hrest ih =>
    obtain ⟨more, hmore⟩ := Nat.exists_eq_succ_of_ne_zero
      (mt List.length_eq_zero_iff.1 hrest.ne_nil)
    rw [continues_eq_true_iff] at h
    rw [List.length_cons, emod_pow_succ, groupsValue_cons] at hi
    have hgroups := groupsValue_lt rest
    have hfirst : (i % 128).toNat + 128 = byte.toNat := by
      have hbyte := byte.toNat_lt
      omega
    have hlater := ih (i := i / 128) (by omega)
    rw [hmore, Nat.succ_sub_one] at hlater
    rw [List.length_cons, hmore, Nat.succ_sub_one, padded, hlater, hfirst, UInt8.ofNat_toNat]

/-- The integers that so many groups of a kind can make up. -/
def Kind.Spans (kind : Kind) (groups : Nat) (x : Int) : Prop :=
  if kind.isSigned then -128 ^ groups ≤ 2 * x ∧ 2 * x < 128 ^ groups
  else 0 ≤ x ∧ x < 128 ^ groups

section Spans

variable {kind : Kind} {groups more : Nat} {x : Int}

theorem Kind.Spans.mono (h : kind.Spans groups x) (hle : groups ≤ more) :
    kind.Spans more x := by
  have hpow : (128 : Int) ^ groups ≤ 128 ^ more := pow_le_pow_right₀ (by decide) hle
  unfold Kind.Spans at *
  split at h
  · rw [if_pos ‹_›]
    omega
  · rw [if_neg ‹_›]
    omega

theorem cast_pow_groups (groups : Nat) : ((128 ^ groups : Nat) : Int) = 128 ^ groups :=
  Nat.cast_pow 128 groups

theorem spans_value (kind : Kind) (varint : Bytes) :
    kind.Spans varint.length (kind.value varint) := by
  have hpos : 0 < 128 ^ varint.length := Nat.pow_pos (by decide)
  have hvalue := groupsValue_lt varint
  have hlow := Int.le_bmod (x := groupsValue varint) hpos
  have hhigh := Int.bmod_lt (x := groupsValue varint) hpos
  have hcast := cast_pow_groups varint.length
  unfold Kind.Spans Kind.value signedValue
  split <;> omega

theorem value_emod (kind : Kind) (varint : Bytes) :
    kind.value varint % 128 ^ varint.length = groupsValue varint := by
  have hvalue : (groupsValue varint : Int) % 128 ^ varint.length = groupsValue varint := by
    rw [← cast_pow_groups]
    exact Int.emod_eq_of_lt (Int.natCast_nonneg _) (Int.ofNat_lt.2 (groupsValue_lt varint))
  unfold Kind.value
  split
  · rw [signedValue, ← cast_pow_groups, Int.bmod_emod, cast_pow_groups, hvalue]
  · exact hvalue

theorem value_padded (h : kind.Spans (more + 1) x) : kind.value (padded x more) = x := by
  unfold Kind.Spans at h
  unfold Kind.value
  split at h
  · rw [if_pos ‹_›, signedValue, groupsValue_padded, length_padded, ← cast_pow_groups,
      Int.emod_bmod]
    rw [← cast_pow_groups] at h
    exact Int.bmod_eq_of_le_mul_two (by omega) (by omega)
  · rw [if_neg ‹_›, groupsValue_padded, Int.emod_eq_of_lt h.1 h.2]

/-- An integer takes no more groups than those that can make it up. -/
theorem spans_iff_length_le (value : Varint) (more : Nat) :
    value.kind.Spans (more + 1) value.toInt ↔ value.length ≤ more + 1 := by
  constructor
  · intro h
    cases value with
    | u32 value => exact unsignedLength_le (Int.ofNat_lt.1 (by rw [cast_pow_groups]; exact h.2))
    | u64 value => exact unsignedLength_le (Int.ofNat_lt.1 (by rw [cast_pow_groups]; exact h.2))
    | s32 value =>
      obtain ⟨hlow, hhigh⟩ : -128 ^ (more + 1) ≤ 2 * value.toInt ∧
        2 * value.toInt < 128 ^ (more + 1) := h
      rw [pow_succ] at hlow hhigh
      exact signedLength_le (by omega) (by omega)
    | s64 value =>
      obtain ⟨hlow, hhigh⟩ : -128 ^ (more + 1) ≤ 2 * value.toInt ∧
        2 * value.toInt < 128 ^ (more + 1) := h
      rw [pow_succ] at hlow hhigh
      exact signedLength_le (by omega) (by omega)
  · intro h
    have hspans := spans_value value.kind value.encode
    rw [value_encode, length_encode] at hspans
    exact hspans.mono h

end Spans

/-! ## The forms of an integer -/

/-- A reader of the integer's kind takes all of the bytes for the integer. -/
def Denotes (bytes : Bytes) (value : Varint) : Prop :=
  readAt value.kind bytes 0 = .ok (value, bytes.length)

theorem denotes_iff {bytes : Bytes} {value : Varint} :
    Denotes bytes value ↔ Terminated bytes ∧ bytes.length ≤ value.kind.maxLength ∧
      value.toInt = value.kind.value bytes := by
  rw [Denotes, readAt_eq_ok_iff]
  constructor
  · rintro ⟨varint, hvarint, hlength, -, htoInt⟩
    obtain rfl : varint = bytes := hvarint.isPrefix.eq_of_length hlength
    exact ⟨hvarint.terminated, hvarint.length_le, htoInt⟩
  · rintro ⟨hterminated, hlength, htoInt⟩
    exact ⟨bytes, ⟨hterminated, hlength, List.prefix_refl _⟩, rfl, rfl, htoInt⟩

theorem denotes_take {kind : Kind} {bytes : Bytes} {offset consumed : Nat} {value : Varint}
    (h : readAt kind bytes offset = .ok (value, consumed)) :
    kind = value.kind ∧ ((bytes.drop offset).take consumed).length = consumed ∧
      Denotes ((bytes.drop offset).take consumed) value := by
  obtain ⟨varint, hvarint, rfl, rfl, htoInt⟩ := readAt_eq_ok_iff.1 h
  rw [← List.prefix_iff_eq_take.1 hvarint.isPrefix]
  exact ⟨rfl, rfl, denotes_iff.2 ⟨hvarint.terminated, hvarint.length_le, htoInt⟩⟩

/-- What denotes an integer is read as that integer whatever follows. -/
theorem Denotes.readAt_append {bytes : Bytes} {value : Varint} (h : Denotes bytes value)
    (rest : Bytes) : readAt value.kind (bytes ++ rest) 0 = .ok (value, bytes.length) := by
  obtain ⟨hterminated, hlength, htoInt⟩ := denotes_iff.1 h
  exact readAt_eq_ok_iff.2
    ⟨bytes, ⟨hterminated, hlength, List.prefix_append _ _⟩, rfl, rfl, htoInt⟩

theorem denotes_encode (value : Varint) : Denotes value.encode value :=
  denotes_iff.2 ⟨terminated_encode value, length_encode value ▸ length_le_maxLength value,
    (value_encode value).symm⟩

theorem denotes_padded {value : Varint} {more : Nat} (hlow : value.encode.length ≤ more + 1)
    (hhigh : more + 1 ≤ value.kind.maxLength) : Denotes (padded value.toInt more) value := by
  rw [length_encode] at hlow
  refine denotes_iff.2 ⟨terminated_padded _ _, ?_, ?_⟩
  · rwa [length_padded]
  · exact (value_padded ((spans_iff_length_le value more).2 hlow)).symm

theorem Denotes.eq_padded {bytes : Bytes} {value : Varint} (h : Denotes bytes value) :
    bytes = padded value.toInt (bytes.length - 1) := by
  obtain ⟨hterminated, -, htoInt⟩ := denotes_iff.1 h
  rw [htoInt]
  exact (padded_of_terminated hterminated (value_emod _ _)).symm

theorem Denotes.eq_of_length {first second : Bytes} {value : Varint} (hfirst : Denotes first value)
    (hsecond : Denotes second value) (hlength : first.length = second.length) : first = second := by
  rw [hfirst.eq_padded, hsecond.eq_padded, hlength]

theorem Denotes.length_le {bytes : Bytes} {value : Varint} (h : Denotes bytes value) :
    value.encode.length ≤ bytes.length := by
  obtain ⟨hterminated, -, htoInt⟩ := denotes_iff.1 h
  obtain ⟨more, hmore⟩ := Nat.exists_eq_succ_of_ne_zero
    (mt List.length_eq_zero_iff.1 hterminated.ne_nil)
  have hspans := spans_value value.kind bytes
  rw [← htoInt, hmore] at hspans
  rw [length_encode, hmore]
  exact (spans_iff_length_le value more).1 hspans

/-- An integer has one form of each length from that of its written form up to the greatest that its
kind admits, and no other.  The written form is the shortest of them, and whatever a reader takes
for the integer is the written form exactly if it is as short. -/
theorem forms_by_length (value : Varint) :
    (∀ n ∈ Set.Icc value.encode.length value.kind.maxLength,
      ∃! bytes : Bytes, bytes.length = n ∧ Denotes bytes value) ∧
    (∀ bytes, Denotes bytes value →
      bytes.length ∈ Set.Icc value.encode.length value.kind.maxLength) ∧
    Denotes value.encode value ∧
    ∀ kind bytes offset consumed, readAt kind bytes offset = .ok (value, consumed) →
      value.encode.length ≤ consumed ∧
        ((bytes.drop offset).take consumed = value.encode ↔
          consumed = value.encode.length) := by
  refine ⟨?_, ?_, denotes_encode value, ?_⟩
  · rintro n ⟨hlow, hhigh⟩
    obtain ⟨more, rfl⟩ := Nat.exists_eq_succ_of_ne_zero (n := n) (by
      have hpos := List.length_pos_iff.2 (terminated_encode value).ne_nil
      omega)
    refine ⟨_, ⟨length_padded _ _, denotes_padded hlow hhigh⟩, ?_⟩
    rintro bytes ⟨hlength, hbytes⟩
    rw [hbytes.eq_padded, hlength, Nat.succ_sub_one]
  · intro bytes h
    exact ⟨h.length_le, (denotes_iff.1 h).2.1⟩
  · intro kind bytes offset consumed h
    obtain ⟨-, hlength, hdenotes⟩ := denotes_take h
    refine ⟨hlength ▸ hdenotes.length_le, fun heq ↦ ?_, fun hconsumed ↦ ?_⟩
    · rw [← heq, hlength]
    · exact hdenotes.eq_of_length (denotes_encode value) (hlength.trans hconsumed)

end WasmBinary.Varint
