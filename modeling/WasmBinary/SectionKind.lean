/-!
# Kinds of section

A module is a list of sections, each of one of thirteen kinds.  A kind is written as a byte.  The
twelve standard kinds have a rank, which is their place in a module; it differs from the byte for
the data count, which stands before the code.  Custom sections have no place of their own.
-/

namespace WasmBinary

/-- A kind of section, named for what the section holds. -/
inductive SectionKind
  | custom
  | types
  | imports
  | functions
  | tables
  | memories
  | globals
  | exports
  | start
  | elements
  | code
  | data
  | dataCount
deriving DecidableEq

namespace SectionKind

def byte : SectionKind → UInt8
  | .custom => 0
  | .types => 1
  | .imports => 2
  | .functions => 3
  | .tables => 4
  | .memories => 5
  | .globals => 6
  | .exports => 7
  | .start => 8
  | .elements => 9
  | .code => 10
  | .data => 11
  | .dataCount => 12

def ofByte? : UInt8 → Option SectionKind
  | 0 => some .custom
  | 1 => some .types
  | 2 => some .imports
  | 3 => some .functions
  | 4 => some .tables
  | 5 => some .memories
  | 6 => some .globals
  | 7 => some .exports
  | 8 => some .start
  | 9 => some .elements
  | 10 => some .code
  | 11 => some .data
  | 12 => some .dataCount
  | _ => none

@[simp] theorem ofByte?_byte (kind : SectionKind) : ofByte? kind.byte = some kind := by
  cases kind <;> rfl

/-- The place of a standard section in a module, from 1 on. -/
def rank? : SectionKind → Option Nat
  | .custom => none
  | .types => some 1
  | .imports => some 2
  | .functions => some 3
  | .tables => some 4
  | .memories => some 5
  | .globals => some 6
  | .exports => some 7
  | .start => some 8
  | .elements => some 9
  | .dataCount => some 10
  | .code => some 11
  | .data => some 12

def isCustom (kind : SectionKind) : Bool :=
  kind = .custom

@[simp] theorem rank?_eq_none_iff (kind : SectionKind) : kind.rank? = none ↔ kind = .custom := by
  cases kind <;> simp [rank?]

def name : SectionKind → String
  | .custom => "custom"
  | .types => "type"
  | .imports => "import"
  | .functions => "function"
  | .tables => "table"
  | .memories => "memory"
  | .globals => "global"
  | .exports => "export"
  | .start => "start"
  | .elements => "element"
  | .code => "code"
  | .data => "data"
  | .dataCount => "data count"

end SectionKind

end WasmBinary
