import WasmBinary.ConstExpr
import WasmBinary.Counted

/-!
# Element segments

An element segment holds references for tables.  It is written in one of eight forms, and three
flags in front say which: that the segment is not active, that a table or a lack of one is given
explicitly, and that its items are expressions.

An active segment takes the form without a table index wherever that form can express it: for
table 0 and references to functions.  The forms that are not active, or explicit, also write the
kind of the items.
-/

namespace WasmBinary

/-! ## Modes and items -/

/-- When a segment's items reach a table. -/
inductive ElemMode
  /-- On instantiation, into a table from an offset on. -/
  | active (table : UInt32) (offset : ConstExpr)
  /-- When an instruction asks for it. -/
  | passive
  /-- Never; the items are only declared. -/
  | declarative
deriving DecidableEq, BEq

inductive ElemItems
  | functions (indices : List UInt32)
  | expressions (type : RefType) (exprs : List ConstExpr)
deriving DecidableEq, BEq

namespace ElemItems

def refType : ElemItems → RefType
  | .functions _ => .funcref
  | .expressions type _ => type

def length : ElemItems → Nat
  | .functions indices => indices.length
  | .expressions _ exprs => exprs.length

def isEmpty (items : ElemItems) : Bool :=
  items.length = 0

def areExpressions : ElemItems → Bool
  | .functions _ => false
  | .expressions _ _ => true

def functionKind : UInt8 :=
  0

/-- The byte that tells the kind of the items, in the forms that have it. -/
def kindByte : ElemItems → UInt8
  | .functions _ => functionKind
  | .expressions type _ => type.byte

def encode : ElemItems → Except ModuleError Bytes
  | .functions indices => encodeVector (fun index ↦ .ok (encodeIndex index)) indices
  | .expressions _ exprs => encodeVector (fun expr ↦ .ok expr.encode) exprs

end ElemItems

/-! ## Segments -/

structure ElemSegment where
  mode : ElemMode
  items : ElemItems
deriving DecidableEq, BEq

namespace ElemSegment

def nonActiveFlag : UInt32 := 1

def explicitFlag : UInt32 := 2

def expressionsFlag : UInt32 := 4

def isNonActive (segment : ElemSegment) : Bool :=
  match segment.mode with
  | .active _ _ => false
  | .passive | .declarative => true

/-- Whether the flag is set that makes an active segment name its table and tells a declarative
segment from a passive one. -/
def isExplicit (segment : ElemSegment) : Bool :=
  match segment.mode with
  | .active table _ => table ≠ 0 ∨ segment.items.refType ≠ .funcref
  | .passive => false
  | .declarative => true

def flags (segment : ElemSegment) : UInt32 :=
  (if segment.isNonActive then nonActiveFlag else 0) |||
    (if segment.isExplicit then explicitFlag else 0) |||
    (if segment.items.areExpressions then expressionsFlag else 0)

/-- Whether a segment's form writes the kind of its items. -/
def writesKind (segment : ElemSegment) : Bool :=
  segment.isNonActive || segment.isExplicit

/-- The table, where it is explicit, and the offset. -/
def encodePlace (segment : ElemSegment) : Bytes :=
  match segment.mode with
  | .active table offset =>
    (if segment.isExplicit then encodeIndex table else []) ++ offset.encode
  | .passive | .declarative => []

def encode (segment : ElemSegment) : Except ModuleError Bytes := do
  let items ← segment.items.encode
  return encodeIndex segment.flags ++ segment.encodePlace ++
    (if segment.writesKind then [segment.items.kindByte] else []) ++ items

end ElemSegment

end WasmBinary
