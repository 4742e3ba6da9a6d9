import WasmBinary.Proofs.Grammar.Parser
import WasmBinary.Section

/-!
# Reading the entries of sections

One parser for each production of the grammar from value types up to segments and function bodies.
Beside each stands the lemma that it reads back what its encoder writes, and stops there.
-/

namespace WasmBinary.Parser

/-! ## Types -/

def valType : Parser ValType := do
  match ← byte with
  | 0x7f => return .i32
  | 0x7e => return .i64
  | 0x7d => return .f32
  | 0x7c => return .f64
  | 0x7b => return .v128
  | 0x70 => return .funcref
  | 0x6f => return .externref
  | _ => failure

def refType : Parser RefType := do
  match ← byte with
  | 0x70 => return .funcref
  | 0x6f => return .externref
  | _ => failure

def bool : Parser Bool := do
  match ← byte with
  | 0 => return false
  | 1 => return true
  | _ => failure

/-- `0x00 min:u32 | 0x01 min:u32 max:u32` -/
def limits : Parser Limits := do
  match ← byte with
  | 0 =>
    let min ← u32
    return ⟨min, none⟩
  | 1 =>
    let min ← u32
    let max ← u32
    return ⟨min, some max⟩
  | _ => failure

/-- `reftype limits` -/
def tableType : Parser TableType := do
  let elements ← refType
  let limits ← limits
  return ⟨elements, limits⟩

/-- `valtype mut` -/
def globalType : Parser GlobalType := do
  let value ← valType
  let isMutable ← bool
  return ⟨value, isMutable⟩

def token (expected : UInt8) : Parser Unit := do
  if (← byte) = expected then return () else failure

/-- `0x60 vec(valtype) vec(valtype)` -/
def funcType : Parser FuncType := do
  token 0x60
  let params ← vector valType
  let results ← vector valType
  return ⟨params, results⟩

theorem reads_valType (type : ValType) : Reads valType type [type.byte] := by
  unfold valType
  cases type <;> exact (reads_byte _).bind_last (reads_pure _)

theorem reads_refType (type : RefType) : Reads refType type [type.byte] := by
  unfold refType
  cases type <;> exact (reads_byte _).bind_last (reads_pure _)

theorem reads_bool (b : Bool) : Reads bool b (encodeBool b) := by
  unfold bool
  cases b <;> exact (reads_byte _).bind_last (reads_pure _)

theorem reads_token (expected : UInt8) : Reads (token expected) () [expected] := by
  unfold token
  apply (reads_byte expected).bind_last
  rw [if_pos rfl]
  exact reads_pure ()

theorem reads_limits (limits : Limits) : Reads Parser.limits limits limits.encode := by
  obtain ⟨min, max⟩ := limits
  unfold Parser.limits
  cases max with
  | none => exact Reads.byte_bind ((reads_u32 min).bind_last (reads_pure _))
  | some max =>
    exact Reads.byte_bind ((reads_u32 min).bind ((reads_u32 max).bind_last (reads_pure _)))

theorem reads_tableType (table : TableType) : Reads tableType table table.encode := by
  unfold tableType
  exact (reads_refType table.elements).bind ((reads_limits table.limits).bind_last (reads_pure _))

theorem reads_globalType (type : GlobalType) : Reads globalType type type.encode := by
  unfold globalType
  exact (reads_valType type.value).bind ((reads_bool type.isMutable).bind_last (reads_pure _))

theorem decodes_types : Decodes (vector valType) FuncType.encodeTypes :=
  (Decodes.of_reads reads_valType).vector

theorem decodes_funcType : Decodes funcType FuncType.encode := by
  intro signature written hwritten
  obtain ⟨params, hparams, hwritten⟩ := bind_eq_ok_iff.1 hwritten
  obtain ⟨results, hresults, ⟨⟩⟩ := bind_eq_ok_iff.1 hwritten
  unfold funcType
  exact (reads_token _).bind
    ((decodes_types hparams).bind ((decodes_types hresults).bind_last (reads_pure _)))

/-! ## Constant expressions -/

def instruction : Parser ConstExpr := do
  match ← byte with
  | 0x23 => .globalGet <$> u32
  | 0x41 => .i32 <$> s32
  | 0x42 => .i64 <$> s64
  | 0x43 => (fun bits ↦ .f32 ⟨.ofNat bits⟩) <$> word 4
  | 0x44 => (fun bits ↦ .f64 ⟨.ofNat bits⟩) <$> word 8
  | 0xd0 => .refNull <$> refType
  | 0xd2 => .refFunc <$> u32
  | _ => failure

def constExpr : Parser ConstExpr := do
  let expr ← instruction
  token 0x0b
  return expr

theorem reads_instruction (expr : ConstExpr) : Reads instruction expr expr.instruction := by
  unfold instruction
  cases expr with
  | i32 value => exact Reads.byte_bind ((reads_s32 value).map _)
  | i64 value => exact Reads.byte_bind ((reads_s64 value).map _)
  | f32 value =>
    have hword : Reads (word 4) value.bits.toNat value.encode := reads_word value.bits.toNat_lt
    have hfloat := hword.map fun bits ↦ ConstExpr.f32 ⟨.ofNat bits⟩
    rw [UInt32.ofNat_toNat] at hfloat
    exact Reads.byte_bind hfloat
  | f64 value =>
    have hword : Reads (word 8) value.bits.toNat value.encode := reads_word value.bits.toNat_lt
    have hfloat := hword.map fun bits ↦ ConstExpr.f64 ⟨.ofNat bits⟩
    rw [UInt64.ofNat_toNat] at hfloat
    exact Reads.byte_bind hfloat
  | globalGet index => exact Reads.byte_bind ((reads_u32 index).map _)
  | refNull type => exact Reads.byte_bind ((reads_refType type).map _)
  | refFunc index => exact Reads.byte_bind ((reads_u32 index).map _)

theorem reads_constExpr (expr : ConstExpr) : Reads constExpr expr expr.encode := by
  unfold constExpr
  exact (reads_instruction expr).bind ((reads_token _).bind_last (reads_pure _))

/-! ## Imports, globals and exports -/

/-- `0x00 typeidx | 0x01 tabletype | 0x02 memtype | 0x03 globaltype` -/
def importDesc : Parser ImportDesc := do
  match ← byte with
  | 0 => .function <$> u32
  | 1 => .table <$> tableType
  | 2 => .memory <$> limits
  | 3 => .global <$> globalType
  | _ => failure

/-- `module:name name:name importdesc` -/
def importEntry : Parser Import := do
  let source ← name
  let name ← name
  let desc ← importDesc
  return ⟨source, name, desc⟩

/-- `globaltype expr` -/
def globalEntry : Parser Global := do
  let type ← globalType
  let init ← constExpr
  return ⟨type, init⟩

def externKind : Parser ExternKind := do
  match ← byte with
  | 0 => return .function
  | 1 => return .table
  | 2 => return .memory
  | 3 => return .global
  | _ => failure

/-- `name exportdesc`, where the description is the kind of the entity and its index. -/
def exportEntry : Parser Export := do
  let name ← name
  let kind ← externKind
  let index ← u32
  return ⟨name, kind, index⟩

theorem reads_importDesc (desc : ImportDesc) : Reads importDesc desc desc.encode := by
  unfold importDesc
  cases desc with
  | function typeIndex => exact Reads.byte_bind ((reads_u32 typeIndex).map _)
  | table type => exact Reads.byte_bind ((reads_tableType type).map _)
  | memory type => exact Reads.byte_bind ((reads_limits type).map _)
  | global type => exact Reads.byte_bind ((reads_globalType type).map _)

theorem decodes_importEntry : Decodes importEntry Import.encode := by
  intro entry written hwritten
  obtain ⟨source, hsource, hwritten⟩ := bind_eq_ok_iff.1 hwritten
  obtain ⟨name, hname, ⟨⟩⟩ := bind_eq_ok_iff.1 hwritten
  rw [List.append_assoc]
  unfold importEntry
  exact (decodes_name hsource).bind
    ((decodes_name hname).bind ((reads_importDesc entry.desc).bind_last (reads_pure _)))

theorem reads_globalEntry (entry : Global) : Reads globalEntry entry entry.encode := by
  unfold globalEntry
  exact (reads_globalType entry.type).bind ((reads_constExpr entry.init).bind_last (reads_pure _))

theorem reads_externKind (kind : ExternKind) : Reads externKind kind [kind.byte] := by
  unfold externKind
  cases kind <;> exact (reads_byte _).bind_last (reads_pure _)

theorem decodes_exportEntry : Decodes exportEntry Export.encode := by
  intro entry written hwritten
  obtain ⟨name, hname, ⟨⟩⟩ := bind_eq_ok_iff.1 hwritten
  unfold exportEntry
  exact (decodes_name hname).bind
    ((reads_externKind entry.kind).bind ((reads_u32 entry.index).bind_last (reads_pure _)))

/-! ## Element segments -/

/-- The eight forms of an element segment, told apart by the flags in front. -/
def elemSegment : Parser ElemSegment := do
  match ← u32 with
  | 0 =>
    let offset ← constExpr
    let indices ← vector u32
    return ⟨.active 0 offset, .functions indices⟩
  | 1 =>
    token 0
    let indices ← vector u32
    return ⟨.passive, .functions indices⟩
  | 2 =>
    let table ← u32
    let offset ← constExpr
    token 0
    let indices ← vector u32
    return ⟨.active table offset, .functions indices⟩
  | 3 =>
    token 0
    let indices ← vector u32
    return ⟨.declarative, .functions indices⟩
  | 4 =>
    let offset ← constExpr
    let exprs ← vector constExpr
    return ⟨.active 0 offset, .expressions .funcref exprs⟩
  | 5 =>
    let type ← refType
    let exprs ← vector constExpr
    return ⟨.passive, .expressions type exprs⟩
  | 6 =>
    let table ← u32
    let offset ← constExpr
    let type ← refType
    let exprs ← vector constExpr
    return ⟨.active table offset, .expressions type exprs⟩
  | 7 =>
    let type ← refType
    let exprs ← vector constExpr
    return ⟨.declarative, .expressions type exprs⟩
  | _ => failure

theorem decodes_indices :
    Decodes (vector u32) (encodeVector fun index ↦ .ok (encodeIndex index)) :=
  (Decodes.of_reads reads_u32).vector

theorem decodes_exprs : Decodes (vector constExpr) (encodeVector fun expr ↦ .ok expr.encode) :=
  (Decodes.of_reads reads_constExpr).vector

theorem flags_eq (segment : ElemSegment) :
    segment.flags = .ofNat (segment.isNonActive.toNat + 2 * segment.isExplicit.toNat +
      4 * segment.items.areExpressions.toNat) := by
  rw [ElemSegment.flags]
  cases segment.isNonActive <;> cases segment.isExplicit <;>
    cases segment.items.areExpressions <;> decide

theorem decodes_functionSegment {mode : ElemMode} {indices : List UInt32} {written : Bytes}
    (hwritten : (ElemSegment.mk mode (.functions indices)).encode = .ok written) :
    Reads elemSegment ⟨mode, .functions indices⟩ written := by
  obtain ⟨items, hencoded, ⟨⟩⟩ := bind_eq_ok_iff.1 hwritten
  have hitems := decodes_indices hencoded
  rw [List.append_assoc, List.append_assoc]
  unfold elemSegment
  cases mode with
  | active table offset =>
    by_cases htable : table = 0
    · subst htable
      have hflags : (ElemSegment.mk (.active 0 offset) (.functions indices)).flags = 0 := flags_eq _
      rw [hflags]
      refine (reads_u32 0).bind ?_
      exact (reads_constExpr offset).bind (hitems.bind_last (reads_pure _))
    · have hexplicit : (ElemSegment.mk (.active table offset) (.functions indices)).isExplicit := by
        simp [ElemSegment.isExplicit, htable]
      have hflags : (ElemSegment.mk (.active table offset) (.functions indices)).flags = 2 := by
        rw [flags_eq, hexplicit]
        rfl
      rw [hflags, ElemSegment.encodePlace, ElemSegment.writesKind, hexplicit, List.append_assoc]
      refine (reads_u32 2).bind ?_
      exact (reads_u32 table).bind ((reads_constExpr offset).bind
        ((reads_token 0).bind (hitems.bind_last (reads_pure _))))
  | passive =>
    have hflags : (ElemSegment.mk .passive (.functions indices)).flags = 1 := flags_eq _
    rw [hflags]
    refine (reads_u32 1).bind ?_
    exact (reads_token 0).bind (hitems.bind_last (reads_pure _))
  | declarative =>
    have hflags : (ElemSegment.mk .declarative (.functions indices)).flags = 3 := flags_eq _
    rw [hflags]
    refine (reads_u32 3).bind ?_
    exact (reads_token 0).bind (hitems.bind_last (reads_pure _))

theorem decodes_expressionSegment {mode : ElemMode} {type : RefType} {exprs : List ConstExpr}
    {written : Bytes}
    (hwritten : (ElemSegment.mk mode (.expressions type exprs)).encode = .ok written) :
    Reads elemSegment ⟨mode, .expressions type exprs⟩ written := by
  obtain ⟨items, hencoded, ⟨⟩⟩ := bind_eq_ok_iff.1 hwritten
  have hitems := decodes_exprs hencoded
  rw [List.append_assoc, List.append_assoc]
  unfold elemSegment
  cases mode with
  | active table offset =>
    by_cases himplicit : table = 0 ∧ type = .funcref
    · obtain ⟨rfl, rfl⟩ := himplicit
      have hflags : (ElemSegment.mk (.active 0 offset) (.expressions .funcref exprs)).flags = 4 :=
        flags_eq _
      rw [hflags]
      refine (reads_u32 4).bind ?_
      exact (reads_constExpr offset).bind (hitems.bind_last (reads_pure _))
    · have hexplicit :
          (ElemSegment.mk (.active table offset) (.expressions type exprs)).isExplicit := by
        simpa [ElemSegment.isExplicit, ElemItems.refType, ← not_and_or] using himplicit
      have hflags :
          (ElemSegment.mk (.active table offset) (.expressions type exprs)).flags = 6 := by
        rw [flags_eq, hexplicit]
        rfl
      rw [hflags, ElemSegment.encodePlace, ElemSegment.writesKind, hexplicit, List.append_assoc]
      refine (reads_u32 6).bind ?_
      exact (reads_u32 table).bind ((reads_constExpr offset).bind
        ((reads_refType type).bind (hitems.bind_last (reads_pure _))))
  | passive =>
    have hflags : (ElemSegment.mk .passive (.expressions type exprs)).flags = 5 := flags_eq _
    rw [hflags]
    refine (reads_u32 5).bind ?_
    exact (reads_refType type).bind (hitems.bind_last (reads_pure _))
  | declarative =>
    have hflags : (ElemSegment.mk .declarative (.expressions type exprs)).flags = 7 := flags_eq _
    rw [hflags]
    refine (reads_u32 7).bind ?_
    exact (reads_refType type).bind (hitems.bind_last (reads_pure _))

theorem decodes_elemSegment : Decodes elemSegment ElemSegment.encode := by
  rintro ⟨mode, items⟩ written hwritten
  cases items with
  | functions indices => exact decodes_functionSegment hwritten
  | expressions type exprs => exact decodes_expressionSegment hwritten

/-! ## Data segments -/

/-- `0x00 expr vec(byte) | 0x01 vec(byte) | 0x02 memidx expr vec(byte)` -/
def dataSegment : Parser DataSegment := do
  match ← u32 with
  | 0 =>
    let offset ← constExpr
    let init ← blob
    return ⟨.active 0 offset, init⟩
  | 1 =>
    let init ← blob
    return ⟨.passive, init⟩
  | 2 =>
    let memory ← u32
    let offset ← constExpr
    let init ← blob
    return ⟨.active memory offset, init⟩
  | _ => failure

theorem decodes_dataSegment : Decodes dataSegment DataSegment.encode := by
  rintro ⟨mode, init⟩ written hwritten
  obtain ⟨encoded, hencoded, ⟨⟩⟩ := bind_eq_ok_iff.1 hwritten
  have hinit := decodes_blob hencoded
  unfold dataSegment
  cases mode with
  | active memory offset =>
    by_cases hmemory : memory = 0
    · subst hmemory
      rw [DataMode.encode, if_pos rfl, List.append_assoc]
      refine (reads_u32 0).bind ?_
      exact (reads_constExpr offset).bind (hinit.bind_last (reads_pure _))
    · rw [DataMode.encode, if_neg hmemory, List.append_assoc, List.append_assoc]
      refine (reads_u32 2).bind ?_
      exact (reads_u32 memory).bind
        ((reads_constExpr offset).bind (hinit.bind_last (reads_pure _)))
  | passive => exact (reads_u32 1).bind (hinit.bind_last (reads_pure _))

/-! ## Function bodies -/

/-- `n:u32 t:valtype` -/
def localRun : Parser LocalRun := do
  let count ← u32
  let type ← valType
  return ⟨count, type⟩

/-- The parser reads all of the bytes. -/
def runAll {α : Type} (p : Parser α) (bytes : Bytes) : Option α :=
  match p.run bytes with
  | some (a, []) => some a
  | _ => none

/-- `vec(locals) expr`, where the expression is all that is left. -/
def func : Parser FuncBody := do
  let locals ← vector localRun
  let code ← remaining
  return ⟨locals, code⟩

/-- `size:u32 func` -/
def funcBody : Parser FuncBody := do
  let contents ← blob
  match runAll func contents with
  | some body => return body
  | none => failure

theorem Reads.runAll {α : Type} {p : Parser α} {a : α} {written : Bytes}
    (h : Reads p a written) : runAll p written = some a := by
  have hrun := h []
  rw [List.append_nil] at hrun
  rw [Parser.runAll, hrun]

theorem reads_localRun (run : LocalRun) : Reads localRun run run.encode := by
  unfold localRun
  exact (reads_u32 run.count).bind ((reads_valType run.type).bind_last (reads_pure _))

theorem decodes_funcBody : Decodes funcBody FuncBody.encode := by
  intro body written hwritten
  obtain ⟨locals, hlocals, hwritten⟩ := bind_eq_ok_iff.1 hwritten
  have hruns := (Decodes.of_reads reads_localRun).vector hlocals
  have hfunc : runAll func (locals ++ body.code) = some body := by
    rw [runAll, func, StateT.run_bind, hruns body.code]
    rfl
  unfold funcBody
  apply (decodes_blob hwritten).bind_last
  rw [hfunc]
  exact reads_pure body

end WasmBinary.Parser
