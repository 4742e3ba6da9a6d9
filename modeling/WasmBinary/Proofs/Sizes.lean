import WasmBinary.Proofs.Counted
import WasmBinary.Proofs.Varint.RoundTrip
import WasmBinary.Section

/-!
# The counts and lengths of a section

Each entry has the counts and lengths that stand in front of its parts, in the order in which they
are written, an inner one before the one that encloses it.  A section can be rendered exactly if all
of them fit into 32 bits.
-/

namespace WasmBinary

/-! ## Entries -/

theorem checksSizes_encodeName (name : String) :
    ChecksSizes [name.utf8ByteSize] (encodeName name) :=
  checksSizes_blob _

def FuncType.sizes (signature : FuncType) : List Nat :=
  [signature.params.length, signature.results.length]

theorem FuncType.checksSizes (signature : FuncType) :
    ChecksSizes signature.sizes signature.encode :=
  (checksSizes_plainVector _ signature.params).bind fun _ _ ↦
    (checksSizes_plainVector _ signature.results).bind_pure

def Import.sizes (entry : Import) : List Nat :=
  [entry.source.utf8ByteSize, entry.name.utf8ByteSize]

theorem Import.checksSizes (entry : Import) : ChecksSizes entry.sizes entry.encode :=
  (checksSizes_encodeName entry.source).bind fun _ _ ↦
    (checksSizes_encodeName entry.name).bind_pure

def Export.sizes (entry : Export) : List Nat :=
  [entry.name.utf8ByteSize]

theorem Export.checksSizes (entry : Export) : ChecksSizes entry.sizes entry.encode :=
  (checksSizes_encodeName entry.name).bind_pure

def ElemSegment.sizes (segment : ElemSegment) : List Nat :=
  [segment.items.length]

theorem ElemSegment.checksSizes (segment : ElemSegment) :
    ChecksSizes segment.sizes segment.encode := by
  obtain ⟨mode, items⟩ := segment
  cases items with
  | functions indices => exact (checksSizes_plainVector _ indices).bind_pure
  | expressions type exprs => exact (checksSizes_plainVector _ exprs).bind_pure

def DataSegment.sizes (segment : DataSegment) : List Nat :=
  [segment.init.length]

theorem DataSegment.checksSizes (segment : DataSegment) :
    ChecksSizes segment.sizes segment.encode :=
  (checksSizes_blob segment.init).bind_pure

namespace FuncBody

/-- The number of bytes of a body behind its own length. -/
def contentSize (body : FuncBody) : Nat :=
  Varint.unsignedLength body.locals.length +
    (body.locals.map fun run ↦ Varint.unsignedLength run.count.toNat + 1).sum + body.code.length

def sizes (body : FuncBody) : List Nat :=
  [body.locals.length, body.contentSize]

theorem length_encodeLocals {runs : List LocalRun} {written : Bytes}
    (hwritten : encodeVector (fun run ↦ .ok (LocalRun.encode run)) runs = .ok written) :
    written.length = Varint.unsignedLength runs.length +
      (runs.map fun run ↦ Varint.unsignedLength run.count.toNat + 1).sum := by
  obtain ⟨hlength, -⟩ := encodeVector_eq_ok_iff.1 hwritten
  have hrun (run : LocalRun) : run.encode.length = Varint.unsignedLength run.count.toNat + 1 := by
    rw [LocalRun.encode, List.length_append, Varint.length_encodeIndex, List.length_singleton]
  rw [eq_of_encodeVector_plain hwritten, List.length_append, Varint.length_encodeIndex,
    toNat_ofNat_of_lt hlength, List.length_flatten, List.map_map]
  simp only [Function.comp_def, hrun]

theorem length_content {body : FuncBody} {locals : Bytes}
    (hlocals : encodeVector (fun run ↦ .ok (LocalRun.encode run)) body.locals = .ok locals) :
    (locals ++ body.code).length = body.contentSize := by
  rw [List.length_append, length_encodeLocals hlocals, contentSize]

theorem checksSizes (body : FuncBody) : ChecksSizes body.sizes body.encode := by
  refine (checksSizes_plainVector _ body.locals).bind fun locals hlocals ↦ ?_
  rw [← length_content hlocals]
  exact checksSizes_blob _

end FuncBody

/-! ## Sections -/

/-- The counts and lengths of entries that are a vector. -/
def vectorSizes {α : Type} (sizes : α → List Nat) (entries : List α) : List Nat :=
  entries.length :: entries.flatMap sizes

namespace Section

def sizes : Section → List Nat
  | .types entries => vectorSizes FuncType.sizes entries
  | .imports entries => vectorSizes Import.sizes entries
  | .functions entries => [entries.length]
  | .tables entries => [entries.length]
  | .memories entries => [entries.length]
  | .globals entries => [entries.length]
  | .exports entries => vectorSizes Export.sizes entries
  | .start _ => []
  | .elements entries => vectorSizes ElemSegment.sizes entries
  | .dataCount _ => []
  | .code entries => vectorSizes FuncBody.sizes entries
  | .data entries => vectorSizes DataSegment.sizes entries
  | .custom contents => [contents.name.utf8ByteSize]

/-- All counts and lengths of a section fit into 32 bits. -/
def Fits (contents : Section) : Prop :=
  ∀ n ∈ contents.sizes, n < 0x100000000

theorem checksSizes_entries {α : Type} {encode : α → Except ModuleError Bytes}
    {sizes : α → List Nat} (h : ∀ entry, ChecksSizes (sizes entry) (encode entry))
    (entries : List α) :
    ChecksSizes (vectorSizes sizes entries) (encodeEntries encode entries) := by
  cases entries with
  | nil => exact ⟨[], rfl⟩
  | cons entry entries => exact checksSizes_vector h (entry :: entries)

theorem checksSizes_plainEntries {α : Type} (encode : α → Bytes) (entries : List α) :
    ChecksSizes [entries.length] (encodeEntries (fun entry ↦ .ok (encode entry)) entries) := by
  cases entries with
  | nil => exact ⟨[], rfl⟩
  | cons entry entries => exact checksSizes_plainVector encode (entry :: entries)

theorem checksSizes_render (contents : Section) : ChecksSizes contents.sizes contents.render := by
  cases contents with
  | types entries => exact checksSizes_entries FuncType.checksSizes entries
  | imports entries => exact checksSizes_entries Import.checksSizes entries
  | functions entries => exact checksSizes_plainEntries _ entries
  | tables entries => exact checksSizes_plainEntries _ entries
  | memories entries => exact checksSizes_plainEntries _ entries
  | globals entries => exact checksSizes_plainEntries _ entries
  | exports entries => exact checksSizes_entries Export.checksSizes entries
  | start function => exact checksSizes_ok _
  | elements entries => exact checksSizes_entries ElemSegment.checksSizes entries
  | dataCount count => exact checksSizes_ok _
  | code entries => exact checksSizes_entries FuncBody.checksSizes entries
  | data entries => exact checksSizes_entries DataSegment.checksSizes entries
  | custom contents => exact (checksSizes_encodeName contents.name).bind_pure

end Section

end WasmBinary
