import WasmBinary.Proofs.Grammar.Entry
import WasmBinary.Proofs.Varint.Canonical

/-!
# What a reading takes

A parser gives a value only for bytes at the front of what it is run on.  `Takes p φ` says what
these bytes have to do with the value, whatever bytes they are; `Reads` says it of the bytes that an
encoder writes.  For the parts that segments are made of they are what is written for the value, or
longer: nothing but the integers can be written in other ways, and those only with more bytes.
-/

namespace WasmBinary

/-! ## Longer byte strings -/

/-- Some bytes are `written` or, if they are others, longer. -/
def EqOrLonger (used written : Bytes) : Prop :=
  used = written ∨ written.length < used.length

section EqOrLonger

variable {used written other later : Bytes}

theorem EqOrLonger.refl (written : Bytes) : EqOrLonger written written :=
  .inl rfl

theorem EqOrLonger.length_le (h : EqOrLonger used written) : written.length ≤ used.length := by
  rcases h with rfl | h
  · exact Nat.le_refl _
  · exact h.le

theorem EqOrLonger.trans (h : EqOrLonger used other) (hother : EqOrLonger other written) :
    EqOrLonger used written := by
  rcases h with rfl | h
  · exact hother
  · exact .inr (hother.length_le.trans_lt h)

theorem EqOrLonger.append (h : EqOrLonger used written) (hlater : EqOrLonger later other) :
    EqOrLonger (used ++ later) (written ++ other) := by
  have hlength := h.length_le
  have hlength' := hlater.length_le
  rcases h with rfl | h
  · rcases hlater with rfl | hlater
    · exact .refl _
    · exact .inr (by simpa using hlater)
  · refine .inr ?_
    rw [List.length_append, List.length_append]
    omega

theorem Varint.Denotes.eqOrLonger {value : Varint} (h : Denotes used value) :
    EqOrLonger used value.encode := by
  rcases h.length_le.eq_or_lt with hlength | hlength
  · exact .inl (h.eq_of_length (denotes_encode value) hlength.symm)
  · exact .inr hlength

end EqOrLonger

namespace Parser

/-- Whenever the parser gives a value, it takes bytes that stand in the relation to the value. -/
def Takes {α : Type} (p : Parser α) (φ : α → Bytes → Prop) : Prop :=
  ∀ ⦃bytes a rest⦄, p.run bytes = some (a, rest) → ∃ used, bytes = used ++ rest ∧ φ a used

section Takes

variable {α β : Type} {p : Parser α} {f : α → Parser β} {φ : α → Bytes → Prop}
  {ψ : β → Bytes → Prop}

theorem takes_pure {a : α} (h : φ a []) : Takes (pure a) φ := by
  rintro bytes _ _ ⟨⟩
  exact ⟨[], rfl, h⟩

theorem takes_failure : Takes failure φ :=
  fun _ _ _ h ↦ nomatch h

theorem Takes.bind (hp : Takes p φ)
    (hf : ∀ a used, φ a used → Takes (f a) fun b later ↦ ψ b (used ++ later)) :
    Takes (p >>= f) ψ := by
  intro bytes b rest h
  rw [StateT.run_bind] at h
  obtain ⟨⟨a, mid⟩, ha, hb⟩ := Option.bind_eq_some_iff.1 h
  obtain ⟨used, rfl, hused⟩ := hp ha
  obtain ⟨later, rfl, hlater⟩ := hf a used hused hb
  exact ⟨used ++ later, (List.append_assoc _ _ _).symm, hlater⟩

theorem Takes.mono {χ : α → Bytes → Prop} (hp : Takes p φ)
    (h : ∀ a used, φ a used → χ a used) : Takes p χ := by
  intro bytes a rest hrun
  obtain ⟨used, hbytes, hused⟩ := hp hrun
  exact ⟨used, hbytes, h a used hused⟩

/-- What follows from the reading alone takes no bytes. -/
theorem Takes.bind_pure (hp : Takes p φ) {g : α → β} (hg : ∀ a used, φ a used → ψ (g a) used) :
    Takes (p >>= fun a ↦ pure (g a)) ψ := by
  refine hp.bind fun a used h ↦ takes_pure ?_
  rw [List.append_nil]
  exact hg a used h

theorem Takes.map (hp : Takes p φ) {g : α → β} (hg : ∀ a used, φ a used → ψ (g a) used) :
    Takes (g <$> p) ψ := by
  rw [map_eq_pure_bind]
  exact hp.bind_pure hg

theorem Takes.runAll (hp : Takes p φ) {bytes : Bytes} {a : α} (h : runAll p bytes = some a) :
    φ a bytes := by
  rw [Parser.runAll] at h
  split at h
  · next a' hrun =>
    cases h
    obtain ⟨used, hbytes, hused⟩ := hp hrun
    rwa [hbytes, List.append_nil]
  · cases h

/-! ## Bytes and integers -/

theorem takes_byte : Takes byte fun tag used ↦ used = [tag] := by
  intro bytes tag rest h
  cases bytes with
  | nil => exact nomatch h
  | cons first bytes =>
    cases h
    exact ⟨[tag], rfl, rfl⟩

theorem takes_token (expected : UInt8) : Takes (token expected) fun _ used ↦ used = [expected] := by
  refine takes_byte.bind ?_
  rintro tag _ rfl
  split
  · next htag => exact takes_pure (htag ▸ rfl)
  · exact takes_failure

theorem takes_take (count : Nat) :
    Takes (take count) fun taken used ↦ used = taken ∧ taken.length = count := by
  intro bytes taken rest h
  rw [StateT.run, take] at h
  split at h
  · next hlength =>
    cases h
    exact ⟨_, (List.take_append_drop count bytes).symm, rfl, List.length_take_of_le hlength⟩
  · cases h

theorem run_varint_eq_some_iff {kind : Varint.Kind} {bytes rest : Bytes} {value : Varint} :
    (varint kind).run bytes = some (value, rest) ↔
      ∃ consumed, Varint.readAt kind bytes 0 = .ok (value, consumed) ∧
        bytes.drop consumed = rest := by
  rw [StateT.run, varint, Varint.readAt]
  cases Varint.read kind bytes 0 with
  | error fault => simp [Except.mapError]
  | ok result => simp [Except.mapError, Prod.ext_iff, and_assoc]

theorem takes_varint (kind : Varint.Kind) :
    Takes (varint kind) fun value used ↦ Varint.Denotes used value := by
  intro bytes value rest h
  obtain ⟨consumed, hread, rfl⟩ := run_varint_eq_some_iff.1 h
  obtain ⟨-, -, hdenotes⟩ := Varint.denotes_take hread
  exact ⟨_, (List.take_append_drop consumed bytes).symm, hdenotes⟩

theorem reads_of_denotes {value : Varint} {used : Bytes} (h : Varint.Denotes used value) :
    Reads (varint value.kind) value used := fun rest ↦
  run_varint_eq_some_iff.2 ⟨used.length, h.readAt_append rest, List.drop_left⟩

theorem takes_u32 : Takes u32 fun value used ↦ Varint.Denotes used (.u32 value) := by
  refine (takes_varint .u32).bind fun value used h ↦ ?_
  cases value with
  | u32 value => exact takes_pure (by rwa [List.append_nil])
  | u64 _ | s32 _ | s64 _ => exact takes_failure

theorem takes_s32 : Takes s32 fun value used ↦ Varint.Denotes used (.s32 value) := by
  refine (takes_varint .s32).bind fun value used h ↦ ?_
  cases value with
  | s32 value => exact takes_pure (by rwa [List.append_nil])
  | u32 _ | u64 _ | s64 _ => exact takes_failure

theorem takes_s64 : Takes s64 fun value used ↦ Varint.Denotes used (.s64 value) := by
  refine (takes_varint .s64).bind fun value used h ↦ ?_
  cases value with
  | s64 value => exact takes_pure (by rwa [List.append_nil])
  | u32 _ | u64 _ | s32 _ => exact takes_failure

theorem littleEndian_wordValue (bytes : Bytes) :
    littleEndian bytes.length (wordValue bytes) = bytes := by
  induction bytes with
  | nil => rfl
  | cons first rest ih =>
    have hfirst : UInt8.ofNat (first.toNat + 256 * wordValue rest) = first := by
      apply UInt8.toNat_inj.1
      rw [UInt8.toNat_ofNat']
      have := first.toNat_lt
      omega
    have hrest : (first.toNat + 256 * wordValue rest) / 256 = wordValue rest := by
      have := first.toNat_lt
      omega
    rw [wordValue, List.length_cons, littleEndian_succ, hfirst, hrest, ih]

theorem wordValue_lt (bytes : Bytes) : wordValue bytes < 256 ^ bytes.length := by
  induction bytes with
  | nil => simp [wordValue]
  | cons first rest ih =>
    have hfirst := first.toNat_lt
    rw [wordValue, List.length_cons, pow_succ]
    omega

theorem takes_word (width : Nat) :
    Takes (word width) fun n used ↦ n < 256 ^ width ∧ used = littleEndian width n := by
  refine (takes_take width).bind_pure ?_
  rintro taken _ ⟨rfl, rfl⟩
  exact ⟨wordValue_lt _, (littleEndian_wordValue _).symm⟩

/-! ## Sequences -/

theorem takes_repeated {encode : α → Bytes} (hp : Takes p fun a used ↦ EqOrLonger used (encode a))
    (count : Nat) :
    Takes (repeated p count) fun entries used ↦
      entries.length = count ∧ EqOrLonger used (entries.map encode).flatten := by
  induction count with
  | zero => exact takes_pure ⟨rfl, .refl _⟩
  | succ count ih =>
    refine hp.bind fun first used hfirst ↦ ih.bind_pure ?_
    rintro rest later ⟨rfl, hrest⟩
    exact ⟨rfl, hfirst.append hrest⟩

/-- The count in front of a vector takes at least as many bytes as it is written with. -/
theorem takes_vector {encode : α → Bytes} (hp : Takes p fun a used ↦ EqOrLonger used (encode a)) :
    Takes (vector p) fun entries used ↦ ∀ written,
      encodeVector (fun entry ↦ .ok (encode entry)) entries = .ok written →
        EqOrLonger used written := by
  refine takes_u32.bind fun count used hcount ↦ (takes_repeated hp count.toNat).mono ?_
  rintro entries later ⟨hlength, hlater⟩ written hwritten
  rw [eq_of_encodeVector_plain hwritten, hlength, UInt32.ofNat_toNat]
  exact hcount.eqOrLonger.append hlater

theorem takes_blob :
    Takes blob fun contents used ↦ ∀ written, lengthPrefixed contents = .ok written →
      EqOrLonger used written := by
  refine takes_u32.bind fun length used hlength ↦ (takes_take length.toNat).mono ?_
  rintro contents _ ⟨rfl, hcontents⟩ written hwritten
  rw [(lengthPrefixed_eq_ok_iff.1 hwritten).2, hcontents, UInt32.ofNat_toNat]
  exact hlength.eqOrLonger.append (.refl _)

/-! ## Constant expressions -/

theorem takes_refType : Takes refType fun type used ↦ used = [type.byte] := by
  refine takes_byte.bind ?_
  rintro tag _ rfl
  split
  · exact takes_pure rfl
  · exact takes_pure rfl
  · exact takes_failure

theorem takes_instruction :
    Takes instruction fun expr used ↦ EqOrLonger used expr.instruction := by
  refine takes_byte.bind ?_
  rintro tag _ rfl
  split
  · exact takes_u32.map fun index used h ↦ (EqOrLonger.refl [_]).append h.eqOrLonger
  · exact takes_s32.map fun index used h ↦ (EqOrLonger.refl [_]).append h.eqOrLonger
  · exact takes_s64.map fun index used h ↦ (EqOrLonger.refl [_]).append h.eqOrLonger
  · refine (takes_word 4).map ?_
    rintro n _ ⟨hn, rfl⟩
    have hbits : (UInt32.ofNat n).toNat = n := toNat_ofNat_of_lt hn
    rw [ConstExpr.instruction, Binary32.encode, hbits]
    exact .refl _
  · refine (takes_word 8).map ?_
    rintro n _ ⟨hn, rfl⟩
    have hbits : (UInt64.ofNat n).toNat = n := UInt64.toNat_ofNat_of_lt' hn
    rw [ConstExpr.instruction, Binary64.encode, hbits]
    exact .refl _
  · refine takes_refType.map ?_
    rintro type _ rfl
    exact .refl _
  · exact takes_u32.map fun index used h ↦ (EqOrLonger.refl [_]).append h.eqOrLonger
  · exact takes_failure

theorem takes_constExpr : Takes constExpr fun expr used ↦ EqOrLonger used expr.encode := by
  refine takes_instruction.bind fun expr used h ↦ (takes_token 0x0b).bind_pure ?_
  rintro _ _ rfl
  exact h.append (.refl _)

end Takes

end Parser

end WasmBinary
