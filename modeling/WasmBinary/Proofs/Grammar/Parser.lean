import WasmBinary.Proofs.Counted
import WasmBinary.Proofs.Varint.RoundTrip

/-!
# Reading the binary grammar

A parser takes what it reads from the front of a byte string and leaves the rest.  The parsers here
are for the parts that every production of the grammar is made of: bytes, integers, words, names and
vectors.  They know the grammar alone and nothing of the encoders.

`Reads p a written` says that the parser delimits what was written for `a` by itself: it reads `a`
and stops right behind it, whatever bytes follow.
-/

namespace WasmBinary

abbrev Parser := StateT Bytes Option

namespace Parser

/-! ## Parsers for the leaves -/

def byte : Parser UInt8 := fun bytes ↦
  match bytes with
  | [] => none
  | first :: rest => some (first, rest)

def take (count : Nat) : Parser Bytes := fun bytes ↦
  if count ≤ bytes.length then some (bytes.take count, bytes.drop count) else none

def remaining : Parser Bytes := fun bytes ↦ some (bytes, [])

def varint (kind : Varint.Kind) : Parser Varint := fun bytes ↦
  match Varint.read kind bytes 0 with
  | .ok (value, consumed) => some (value, bytes.drop consumed)
  | .error _ => none

def u32 : Parser UInt32 := do
  match ← varint .u32 with
  | .u32 value => return value
  | _ => failure

def s32 : Parser Int32 := do
  match ← varint .s32 with
  | .s32 value => return value
  | _ => failure

def s64 : Parser Int64 := do
  match ← varint .s64 with
  | .s64 value => return value
  | _ => failure

/-- The number that some bytes stand for, the lowest first. -/
def wordValue : Bytes → Nat
  | [] => 0
  | first :: rest => first.toNat + 256 * wordValue rest

def word (width : Nat) : Parser Nat := do
  return wordValue (← take width)

/-! ## Parsers for sequences -/

def repeated {α : Type} (p : Parser α) : Nat → Parser (List α)
  | 0 => return []
  | count + 1 => do
    let first ← p
    let rest ← repeated p count
    return first :: rest

/-- A count, and then as many readings of one kind. -/
def vector {α : Type} (p : Parser α) : Parser (List α) := do
  let count ← u32
  repeated p count.toNat

def blob : Parser Bytes := do
  let length ← u32
  take length.toNat

/-- Bytes that are the UTF-8 text of a name. -/
def name : Parser String := do
  let text ← blob
  match String.fromUTF8? ⟨text.toArray⟩ with
  | some name => return name
  | none => failure

/-! ## Readings that delimit themselves -/

/-- The parser reads `a` from `written` and stops right behind it. -/
def Reads {α : Type} (p : Parser α) (a : α) (written : Bytes) : Prop :=
  ∀ rest, p.run (written ++ rest) = some (a, rest)

section Reads

variable {α β : Type} {p : Parser α} {f : α → Parser β} {a : α} {b : β} {first second : Bytes}

theorem reads_pure (a : α) : Reads (pure a) a [] := fun _ ↦ rfl

theorem Reads.bind (hp : Reads p a first) (hf : Reads (f a) b second) :
    Reads (p >>= f) b (first ++ second) := by
  intro rest
  rw [List.append_assoc, StateT.run_bind, hp, Option.bind_eq_bind, Option.bind_some, hf]

/-- What follows from the reading alone takes no bytes. -/
theorem Reads.map (hp : Reads p a first) (g : α → β) : Reads (g <$> p) (g a) first := by
  intro rest
  rw [StateT.run_map, hp]
  rfl

theorem Reads.bind_last (hp : Reads p a first) (hf : Reads (f a) b []) :
    Reads (p >>= f) b first := by
  have h := hp.bind hf
  rwa [List.append_nil] at h

theorem reads_byte (b : UInt8) : Reads byte b [b] := fun _ ↦ rfl

theorem Reads.byte_bind {f : UInt8 → Parser β} {tag : UInt8} (hf : Reads (f tag) b second) :
    Reads (byte >>= f) b (tag :: second) :=
  (reads_byte tag).bind hf

theorem reads_take (written : Bytes) : Reads (take written.length) written written := by
  intro rest
  simp [take, StateT.run]

/-! ## Integers and words -/

theorem reads_varint (value : Varint) : Reads (varint value.kind) value value.encode := by
  intro rest
  have hread : Varint.read value.kind (value.encode ++ rest) 0 = .ok (value, value.encode.length) :=
    Varint.read_encode rfl
  rw [StateT.run, varint, hread]
  simp

theorem reads_u32 (value : UInt32) : Reads u32 value (encodeIndex value) := by
  unfold u32
  exact (reads_varint (.u32 value)).bind_last (reads_pure value)

theorem reads_s32 (value : Int32) : Reads s32 value (Varint.s32 value).encode := by
  unfold s32
  exact (reads_varint (.s32 value)).bind_last (reads_pure value)

theorem reads_s64 (value : Int64) : Reads s64 value (Varint.s64 value).encode := by
  unfold s64
  exact (reads_varint (.s64 value)).bind_last (reads_pure value)

theorem wordValue_littleEndian {width n : Nat} (hn : n < 256 ^ width) :
    wordValue (littleEndian width n) = n := by
  induction width generalizing n with
  | zero =>
    rw [littleEndian_zero, wordValue]
    omega
  | succ width ih =>
    have hrest : n / 256 < 256 ^ width := by
      rw [pow_succ] at hn
      exact (Nat.div_lt_iff_lt_mul (by decide)).2 hn
    rw [littleEndian_succ, wordValue, ih hrest, UInt8.toNat_ofNat']
    omega

theorem reads_word {width n : Nat} (hn : n < 256 ^ width) :
    Reads (word width) n (littleEndian width n) := by
  have htake := reads_take (littleEndian width n)
  rw [length_littleEndian] at htake
  have hword := htake.map wordValue
  rwa [wordValue_littleEndian hn] at hword

/-! ## Sequences -/

/-- A parser and an encoder of the same production. -/
def Decodes (p : Parser α) (encode : α → Except ModuleError Bytes) : Prop :=
  ∀ ⦃a written⦄, encode a = .ok written → Reads p a written

theorem Decodes.of_reads {encode : α → Bytes} (h : ∀ a, Reads p a (encode a)) :
    Decodes p fun a ↦ .ok (encode a) := by
  rintro a written ⟨⟩
  exact h a

theorem Decodes.repeated {encode : α → Except ModuleError Bytes} (h : Decodes p encode)
    {entries : List α} {encoded : List Bytes} (hencoded : entries.mapM encode = .ok encoded) :
    Reads (repeated p entries.length) entries encoded.flatten := by
  have hall := forall₂_of_mapM hencoded
  clear hencoded
  induction hall with
  | nil => exact reads_pure []
  | cons hfirst hrest ih =>
    rw [List.length_cons, Parser.repeated, List.flatten_cons]
    exact (h hfirst).bind (ih.bind_last (reads_pure _))

theorem Decodes.vector {encode : α → Except ModuleError Bytes} (h : Decodes p encode) :
    Decodes (vector p) (encodeVector encode) := by
  intro entries written hwritten
  obtain ⟨hlength, encoded, hencoded, rfl⟩ := encodeVector_eq_ok_iff.1 hwritten
  unfold Parser.vector
  apply (reads_u32 _).bind
  rw [toNat_ofNat_of_lt hlength]
  exact h.repeated hencoded

theorem decodes_blob : Decodes blob lengthPrefixed := by
  intro bytes written hwritten
  obtain ⟨hlength, rfl⟩ := lengthPrefixed_eq_ok_iff.1 hwritten
  unfold blob
  apply (reads_u32 _).bind
  rw [toNat_ofNat_of_lt hlength]
  exact reads_take bytes

theorem fromUTF8?_toUTF8 (text : String) :
    String.fromUTF8? ⟨text.toUTF8.data.toList.toArray⟩ = some text :=
  dif_pos text.isValidUTF8

theorem decodes_name : Decodes name encodeName := by
  intro text written hwritten
  unfold name
  apply (decodes_blob hwritten).bind_last
  rw [fromUTF8?_toUTF8]
  exact reads_pure text

end Reads

end Parser

end WasmBinary
