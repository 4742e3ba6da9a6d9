import WasmBinary.Draft.Image
import WasmBinary.Sink
import WasmBinary.Proofs.Varint.Groups
import WasmBinary.Proofs.Varint.Reading
import WasmBinary.Proofs.Varint.RoundTrip
import WasmBinary.Proofs.Grammar.Parser
import WasmBinary.Proofs.Grammar.Entry
import WasmBinary.Proofs.Sizes
import WasmBinary.Proofs.Framing
import WasmBinary.Assembly.Call
import WasmBinary.Proofs.Assembly.Run
import WasmBinary.Proofs.StableSort
import WasmBinary.Proofs.Assembly.Layout
import WasmBinary.Proofs.Assembly.Ordering
import WasmBinary.Proofs.Draft.IndexSpace
import WasmBinary.Proofs.Draft.Run
import WasmBinary.Proofs.Assembly.Verdict
import WasmBinary.Proofs.Assembly.Modes
import WasmBinary.Proofs.Draft.Refusal
import WasmBinary.Proofs.Draft.Signatures
import WasmBinary.Proofs.Varint.Stream
import WasmBinary.Proofs.Grammar.Module
import WasmBinary.Proofs.Draft.HandOver
import WasmBinary.Proofs.Draft.Conformance
import WasmBinary.Proofs.Rearrangement
import WasmBinary.Proofs.Draft.Footprint
import WasmBinary.Proofs.Varint.Acceptance
import WasmBinary.Proofs.Varint.Canonical
import WasmBinary.Proofs.Grammar.Taking
import WasmBinary.Proofs.Grammar.Shortest
import WasmBinary.Proofs.Varint.Length
import WasmBinary.Proofs.LocalRuns
import WasmBinary.Proofs.Emissions
import WasmBinary.Proofs.EmptySections
import WasmBinary.Proofs.InFull
import WasmBinary.Proofs.ImageLog
import WasmBinary.Proofs.Varint.Passes
import WasmBinary.Proofs.Varint.Arithmetic
import WasmBinary.Proofs.LocalTotals
