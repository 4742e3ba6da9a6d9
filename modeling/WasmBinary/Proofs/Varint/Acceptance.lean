import WasmBinary.Proofs.Varint.RoundTrip
import Mathlib.Data.Set.Basic

/-!
# What a reader accepts

From any position on, either a varint ends within the bytes that a kind admits, or every byte that
a reader of the kind may take says that more groups follow.  In the first case the number that the
groups make up decides: it is read if it lies in the range of the kind, and is too large otherwise.
In the second case the groups play no part, and it only matters whether the bytes give out before
the length that the kind admits.
-/

namespace WasmBinary.Varint

/-! ## Where varints end -/

theorem exists_terminated_or (bytes : Bytes) :
    (∃ varint, Terminated varint ∧ varint <+: bytes) ∨ ∀ byte ∈ bytes, continues byte = true := by
  induction bytes with
  | nil => exact .inr fun _ hmem ↦ absurd hmem List.not_mem_nil
  | cons first rest ih =>
    cases hfirst : continues first with
    | false => exact .inl ⟨[first], .last hfirst, rest, rfl⟩
    | true =>
      rcases ih with ⟨varint, hvarint, hprefix⟩ | hall
      · exact .inl ⟨first :: varint, .more hfirst hvarint, List.cons_prefix_cons.2 ⟨rfl, hprefix⟩⟩
      · exact .inr (List.forall_mem_cons.2 ⟨hfirst, hall⟩)

/-- The bytes from `offset` up to and including the first that ends a varint, within the length that
the kind admits. -/
structure Kind.StandsAt (kind : Kind) (bytes : Bytes) (offset : Nat) (varint : Bytes) : Prop where
  terminated : Terminated varint
  length_le : varint.length ≤ kind.maxLength
  isPrefix : varint <+: bytes.drop offset

/-- Every byte that a reader of the kind may take from `offset` on says that more groups follow. -/
def Kind.NeverEnds (kind : Kind) (bytes : Bytes) (offset : Nat) : Prop :=
  ∀ byte ∈ (bytes.drop offset).take kind.maxLength, continues byte = true

section Reading

variable {kind : Kind} {bytes varint : Bytes} {offset : Nat}

theorem standsAt_or_neverEnds (kind : Kind) (bytes : Bytes) (offset : Nat) :
    (∃ varint, kind.StandsAt bytes offset varint) ∨ kind.NeverEnds bytes offset := by
  refine (exists_terminated_or ((bytes.drop offset).take kind.maxLength)).imp_left ?_
  rintro ⟨varint, hvarint, hprefix⟩
  have hlength := hprefix.length_le.trans (List.length_take_le _ _)
  exact ⟨varint, hvarint, hlength, hprefix.trans (List.take_prefix _ _)⟩

/-! ## A varint that ends -/

theorem Kind.StandsAt.readAt_eq (h : kind.StandsAt bytes offset varint) :
    readAt kind bytes offset =
      if kind.InRange (kind.value varint) then .ok (kind.ofInt (kind.value varint), varint.length)
      else .error (.malformedVarint offset .overflow) := by
  obtain ⟨rest, hrest⟩ := h.isPrefix
  rw [readAt, read_terminated h.terminated hrest.symm h.length_le]
  split <;> rfl

@[simp] theorem kind_ofInt (kind : Kind) (x : Int) : (kind.ofInt x).kind = kind := by
  cases kind <;> rfl

theorem toInt_ofInt {x : Int} (h : kind.InRange x) : (kind.ofInt x).toInt = x := by
  cases kind with
  | u32 =>
    have hnat : ((UInt32.ofInt x).toNat : Int) = x % 2 ^ 32 := by
      rw [UInt32.ofInt, UInt32.toNat_ofNat']
      omega
    exact hnat.trans (Int.emod_eq_of_lt h.1 h.2)
  | u64 => exact (toNat_ofInt x).trans (Int.emod_eq_of_lt h.1 h.2)
  | s32 => exact Int32.toInt_ofInt_of_le h.1 h.2
  | s64 => exact Int64.toInt_ofInt_of_le h.1 h.2

/-! ## Bytes without an end -/

/-- A reader goes on over bytes that say more groups follow, while its kind admits one more. -/
theorem run_behind_continuing {taken todo rest : Bytes} {left : Nat}
    (hall : ∀ byte ∈ todo, continues byte = true)
    (hat : bytes.drop (offset + taken.length) = todo ++ rest)
    (hroom : taken.length + todo.length < kind.maxLength) :
    Cursor.run kind bytes offset (left + todo.length) (.behind taken) =
      Cursor.run kind bytes offset left (.behind (taken ++ todo)) := by
  induction todo generalizing taken with
  | nil => simp
  | cons byte todo ih =>
    obtain ⟨hbyte, hall⟩ := List.forall_mem_cons.1 hall
    obtain ⟨hfirst, hrest⟩ := drop_eq_cons hat
    have hsnoc : (taken ++ [byte]).length = taken.length + 1 := by simp
    rw [List.length_cons] at hroom
    rw [Nat.add_assoc, ← hsnoc] at hrest
    calc Cursor.run kind bytes offset (left + todo.length + 1) (.behind taken)
      _ = Cursor.run kind bytes offset (left + todo.length) (.behind (taken ++ [byte])) :=
        run_behind_more hfirst hbyte (by omega)
      _ = Cursor.run kind bytes offset left (.behind (taken ++ [byte] ++ todo)) :=
        ih hall hrest (by omega)
      _ = Cursor.run kind bytes offset left (.behind (taken ++ byte :: todo)) := by simp

theorem readAt_of_run {fault : Fault}
    (h : Cursor.run kind bytes offset kind.maxLength (.behind []) = .error fault) :
    readAt kind bytes offset = .error (.malformedVarint offset fault) := by
  rw [Cursor.behind_nil] at h
  rw [readAt, read, h]
  rfl

theorem readAt_truncated (h : kind.NeverEnds bytes offset)
    (hshort : (bytes.drop offset).length < kind.maxLength) :
    readAt kind bytes offset = .error (.malformedVarint offset .truncated) := by
  rw [Kind.NeverEnds, List.take_of_length_le hshort.le] at h
  obtain ⟨left, hleft⟩ := Nat.exists_eq_add_of_lt hshort
  have hend : bytes[offset + (bytes.drop offset).length]? = none := by
    rw [List.getElem?_eq_none_iff, List.length_drop]
    omega
  have hat : bytes.drop (offset + ([] : Bytes).length) = bytes.drop offset ++ [] := by simp
  apply readAt_of_run
  calc Cursor.run kind bytes offset kind.maxLength (.behind [])
    _ = Cursor.run kind bytes offset (left + 1 + (bytes.drop offset).length) (.behind []) := by
      congr 1
      omega
    _ = Cursor.run kind bytes offset (left + 1) (.behind (bytes.drop offset)) :=
      run_behind_continuing h hat (by simpa using hshort)
    _ = .error .truncated := by
      rw [Cursor.run, Cursor.groups_behind, hend]
      rfl

/-- With the last byte that a kind admits, the continuation bit is looked at before the groups. -/
theorem run_behind_overlong {taken : Bytes} {byte : UInt8} {left : Nat}
    (hat : bytes[offset + taken.length]? = some byte) (hmore : continues byte = true)
    (hfull : taken.length + 1 = kind.maxLength) :
    Cursor.run kind bytes offset (left + 1) (.behind taken) = .error .overlong := by
  have hlast : (Cursor.behind taken).isLast kind = true := by
    simp [Cursor.isLast, ← hfull]
  rw [Cursor.run, Cursor.groups_behind, hat]
  simp [Cursor.step, hlast, hmore]

theorem readAt_overlong (h : kind.NeverEnds bytes offset)
    (hlong : kind.maxLength ≤ (bytes.drop offset).length) :
    readAt kind bytes offset = .error (.malformedVarint offset .overlong) := by
  have hpos : 0 < kind.maxLength := by cases kind <;> decide
  have hlength : ((bytes.drop offset).take kind.maxLength).length = kind.maxLength :=
    List.length_take_of_le hlong
  have hne := List.ne_nil_of_length_pos (hpos.trans_eq hlength.symm)
  obtain ⟨taken, byte, hsplit⟩ :
      ∃ taken byte, (bytes.drop offset).take kind.maxLength = taken ++ [byte] :=
    ⟨_, _, (List.dropLast_concat_getLast hne).symm⟩
  obtain ⟨rest, hat⟩ := List.take_prefix kind.maxLength (bytes.drop offset)
  rw [hsplit, List.append_assoc, List.singleton_append] at hat
  rw [hsplit, List.length_append, List.length_singleton] at hlength
  rw [Kind.NeverEnds, hsplit, List.forall_mem_append] at h
  have hlast : bytes.drop (offset + taken.length) = byte :: rest := by
    rw [← List.drop_drop, ← hat, List.drop_left]
  apply readAt_of_run
  calc Cursor.run kind bytes offset kind.maxLength (.behind [])
    _ = Cursor.run kind bytes offset (0 + 1 + taken.length) (.behind []) := by
      congr 1
      omega
    _ = Cursor.run kind bytes offset (0 + 1) (.behind taken) :=
      run_behind_continuing h.1 hat.symm (by rw [List.length_nil]; omega)
    _ = .error .overlong :=
      run_behind_overlong (drop_eq_cons hlast).1 (h.2 byte (List.mem_singleton_self _)) hlength

/-! ## All readings -/

theorem readAt_outcome (kind : Kind) (bytes : Bytes) (offset : Nat) :
    (∃ varint, kind.StandsAt bytes offset varint) ∨
      readAt kind bytes offset = .error (.malformedVarint offset .truncated) ∨
      readAt kind bytes offset = .error (.malformedVarint offset .overlong) := by
  refine (standsAt_or_neverEnds kind bytes offset).imp_right fun hnever ↦ ?_
  rcases Nat.lt_or_ge (bytes.drop offset).length kind.maxLength with hshort | hlong
  · exact .inl (readAt_truncated hnever hshort)
  · exact .inr (readAt_overlong hnever hlong)

/-- An integer is read from where a varint of its kind stands that makes it up. -/
theorem readAt_eq_ok_iff {value : Varint} {consumed : Nat} :
    readAt kind bytes offset = .ok (value, consumed) ↔
      ∃ varint, kind.StandsAt bytes offset varint ∧ varint.length = consumed ∧
        value.kind = kind ∧ value.toInt = kind.value varint := by
  constructor
  · intro h
    rcases readAt_outcome kind bytes offset with ⟨varint, hvarint⟩ | hfault | hfault
    · rw [hvarint.readAt_eq] at h
      split at h
      · next hrange =>
        cases h
        exact ⟨varint, hvarint, rfl, kind_ofInt _ _, toInt_ofInt hrange⟩
      · exact nomatch h
    · exact nomatch hfault.symm.trans h
    · exact nomatch hfault.symm.trans h
  · rintro ⟨varint, hvarint, rfl, rfl, htoInt⟩
    rw [hvarint.readAt_eq, ← htoInt, if_pos (inRange_toInt value), ofInt_toInt]

theorem neverEnds_of_fault {fault : Fault}
    (h : readAt kind bytes offset = .error (.malformedVarint offset fault))
    (hfault : fault ≠ .overflow) : kind.NeverEnds bytes offset := by
  refine (standsAt_or_neverEnds kind bytes offset).resolve_left ?_
  rintro ⟨varint, hvarint⟩
  rw [hvarint.readAt_eq] at h
  split at h
  · exact nomatch h
  · cases h
    exact hfault rfl

end Reading

/-- The answer of a reader is decided by the number that the bytes up to the end of the varint make
up, and by whether it lies in a range. -/
structure Kind.ReadsBy (kind : Kind) (number : Bytes → Int) (range : Set Int) (bytes : Bytes)
    (offset : Nat) : Prop where
  /-- The integer is read exactly if its number is in range, and takes all bytes of the varint. -/
  read_iff : ∀ varint, kind.StandsAt bytes offset varint →
    ((∃ value : Varint, readAt kind bytes offset = .ok (value, varint.length) ∧
      value.kind = kind ∧ value.toInt = number varint) ↔ number varint ∈ range)
  /-- A number out of range is too large, which only the last group that the kind admits can do. -/
  overflow : ∀ varint, kind.StandsAt bytes offset varint → number varint ∉ range →
    readAt kind bytes offset = .error (.malformedVarint offset .overflow) ∧
      varint.length = kind.maxLength
  truncated_iff : readAt kind bytes offset = .error (.malformedVarint offset .truncated) ↔
    kind.NeverEnds bytes offset ∧ (bytes.drop offset).length < kind.maxLength
  overlong_iff : readAt kind bytes offset = .error (.malformedVarint offset .overlong) ↔
    kind.NeverEnds bytes offset ∧ kind.maxLength ≤ (bytes.drop offset).length
  /-- Nothing else can come out. -/
  outcome : (∃ varint, kind.StandsAt bytes offset varint) ∨
    readAt kind bytes offset = .error (.malformedVarint offset .truncated) ∨
    readAt kind bytes offset = .error (.malformedVarint offset .overlong)

theorem Kind.readsBy (kind : Kind) (bytes : Bytes) (offset : Nat) :
    kind.ReadsBy kind.value {x | kind.InRange x} bytes offset where
  read_iff varint h := by
    constructor
    · rintro ⟨value, -, hkind, htoInt⟩
      have hrange := inRange_toInt value
      rwa [hkind, htoInt] at hrange
    · intro hrange
      exact ⟨_, h.readAt_eq.trans (if_pos hrange), kind_ofInt _ _, toInt_ofInt hrange⟩
  overflow varint h hrange := by
    refine ⟨h.readAt_eq.trans (if_neg hrange), ?_⟩
    by_contra hlength
    exact hrange (inRange_value (lt_of_le_of_ne h.length_le hlength))
  truncated_iff := by
    refine ⟨fun h ↦ ?_, fun h ↦ readAt_truncated h.1 h.2⟩
    have hnever := neverEnds_of_fault h (by decide)
    refine ⟨hnever, ?_⟩
    by_contra hlong
    rw [readAt_overlong hnever (Nat.le_of_not_lt hlong)] at h
    exact nomatch h
  overlong_iff := by
    refine ⟨fun h ↦ ?_, fun h ↦ readAt_overlong h.1 h.2⟩
    have hnever := neverEnds_of_fault h (by decide)
    refine ⟨hnever, ?_⟩
    by_contra hshort
    rw [readAt_truncated hnever (Nat.lt_of_not_le hshort)] at h
    exact nomatch h
  outcome := readAt_outcome kind bytes offset

/-- A signed kind of `N` bits reads the groups as a number in two's complement, from `-2 ^ (N - 1)`
up to but not including `2 ^ (N - 1)`. -/
theorem readAt_signed {kind : Kind} (hkind : kind.isSigned = true) (bytes : Bytes)
    (offset : Nat) :
    kind.ReadsBy signedValue {x | -2 ^ (kind.bits - 1) ≤ x ∧ x < 2 ^ (kind.bits - 1)} bytes
      offset := by
  have hvalue : kind.value = signedValue := funext fun _ ↦ if_pos hkind
  have hrange : {x | kind.InRange x} = {x | -2 ^ (kind.bits - 1) ≤ x ∧ x < 2 ^ (kind.bits - 1)} :=
    Set.ext fun _ ↦ iff_of_eq (if_pos hkind)
  rw [← hvalue, ← hrange]
  exact kind.readsBy bytes offset

/-- The lowest integer of 32 bits as one of 64, with a byte more than it needs. -/
theorem readAt_signed_padded :
    Kind.isSigned .s64 = true ∧
      ∃ value : Varint, readAt .s64 [0xff, 0x80, 0x80, 0x80, 0x80, 0xf8, 0x7f, 0x00] 1 =
        .ok (value, 6) ∧ value.kind = .s64 ∧ value.toInt = -2 ^ 31 := by
  have hstands : Kind.s64.StandsAt [0xff, 0x80, 0x80, 0x80, 0x80, 0xf8, 0x7f, 0x00] 1
      [0x80, 0x80, 0x80, 0x80, 0xf8, 0x7f] :=
    ⟨.more rfl (.more rfl (.more rfl (.more rfl (.more rfl (.last rfl))))), by decide, [0x00], rfl⟩
  have hvalue : signedValue [0x80, 0x80, 0x80, 0x80, 0xf8, 0x7f] = -2 ^ 31 := by decide
  have hread := (readAt_signed rfl _ 1).read_iff _ hstands
  rw [hvalue] at hread
  exact ⟨rfl, hread.2 ⟨by decide, by decide⟩⟩

/-- An unsigned kind of `N` bits reads the groups as digits in base 128, below `2 ^ N`. -/
theorem readAt_unsigned {kind : Kind} (hkind : kind.isSigned = false) (bytes : Bytes)
    (offset : Nat) :
    kind.ReadsBy (fun varint ↦ groupsValue varint) {x | 0 ≤ x ∧ x < 2 ^ kind.bits} bytes
      offset := by
  have hvalue : kind.value = fun varint ↦ (groupsValue varint : Int) :=
    funext fun _ ↦ if_neg (hkind ▸ Bool.false_ne_true)
  have hrange : {x | kind.InRange x} = {x | 0 ≤ x ∧ x < 2 ^ kind.bits} :=
    Set.ext fun _ ↦ iff_of_eq (if_neg (hkind ▸ Bool.false_ne_true))
  rw [← hvalue, ← hrange]
  exact kind.readsBy bytes offset

/-- With the fifth byte of 32 bits the continuation bit is looked at, and not the groups, which
reach past 32 bits here. -/
theorem readAt_unsigned_endless :
    Kind.isSigned .u32 = false ∧
      readAt .u32 [0xff, 0xff, 0xff, 0xff, 0xff] 0 = .error (.malformedVarint 0 .overlong) := by
  have hnever : Kind.u32.NeverEnds [0xff, 0xff, 0xff, 0xff, 0xff] 0 := List.all_eq_true.1 rfl
  exact ⟨rfl, (readAt_unsigned rfl _ 0).overlong_iff.2 ⟨hnever, by decide⟩⟩

end WasmBinary.Varint
