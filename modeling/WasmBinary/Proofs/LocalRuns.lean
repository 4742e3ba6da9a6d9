import Mathlib.Data.List.Chain
import WasmBinary.Proofs.Sizes
import WasmBinary.Proofs.Varint.Length

/-!
# Runs of locals

The runs of locals that are given one by one are the only ones without an empty run or two
neighbours of one type that stand for these locals.  They are also the best: any other runs for the
same locals are at least as many, and the body with them is at least as long.
-/

namespace WasmBinary

namespace LocalRun

/-! ## Runs and the locals that they stand for -/

/-- The locals one by one. -/
def expand (runs : List LocalRun) : List ValType :=
  runs.flatMap fun run ↦ List.replicate run.count.toNat run.type

@[simp] theorem expand_nil : expand [] = [] := rfl

@[simp] theorem expand_cons (run : LocalRun) (runs : List LocalRun) :
    expand (run :: runs) = List.replicate run.count.toNat run.type ++ expand runs := rfl

/-- No run is empty, and no two neighbours could be one run. -/
structure Canonical (runs : List LocalRun) : Prop where
  nonempty : ∀ run ∈ runs, run.count ≠ 0
  distinct : runs.IsChain fun run next ↦ run.type ≠ next.type

theorem canonical_nil : Canonical [] :=
  ⟨nofun, List.isChain_nil⟩

theorem canonical_cons_iff {run : LocalRun} {runs : List LocalRun} :
    Canonical (run :: runs) ↔
      run.count ≠ 0 ∧ (∀ next ∈ runs.head?, run.type ≠ next.type) ∧ Canonical runs := by
  constructor
  · rintro ⟨hnonempty, hdistinct⟩
    rw [List.forall_mem_cons] at hnonempty
    rw [List.isChain_cons] at hdistinct
    exact ⟨hnonempty.1, hdistinct.1, hnonempty.2, hdistinct.2⟩
  · rintro ⟨hcount, hhead, hnonempty, hdistinct⟩
    exact ⟨List.forall_mem_cons.2 ⟨hcount, hnonempty⟩, List.isChain_cons.2 ⟨hhead, hdistinct⟩⟩

/-! ## One local after another -/

/-- One local more behind the runs: in the last run if that is of its type. -/
def grow (type : ValType) : List LocalRun → List LocalRun
  | [] => [⟨1, type⟩]
  | [run] => if run.type = type then [⟨run.count + 1, type⟩] else [run, ⟨1, type⟩]
  | run :: next :: runs => run :: grow type (next :: runs)

theorem grow_cons_comm (first last : ValType) (runs : List LocalRun) :
    grow last (cons first runs) = cons first (grow last runs) := by
  match runs with
  | [] =>
    by_cases h : first = last
    · simp [cons, grow, h]
    · simp [cons, grow, h, Ne.symm h]
  | [run] =>
    by_cases hfirst : run.type = first <;> by_cases hlast : run.type = last <;>
      simp_all [cons, grow]
  | run :: next :: runs =>
    by_cases hfirst : run.type = first <;> simp [cons, grow, hfirst]

theorem compress_concat (types : List ValType) (type : ValType) :
    compress (types ++ [type]) = grow type (compress types) := by
  induction types with
  | nil => rfl
  | cons first types ih => rw [List.cons_append, compress_cons, compress_cons, ih, grow_cons_comm]

/-- The runs are made by taking the locals in order and growing the last run. -/
theorem compress_eq_foldl (types : List ValType) :
    compress types = types.foldl (fun runs type ↦ grow type runs) [] := by
  induction types using List.reverseRecOn with
  | nil => rfl
  | append_singleton types type ih => simp [compress_concat, ih]

section Cons

variable {type : ValType} {runs : List LocalRun} (hfew : (expand runs).length + 1 < 0x100000000)

include hfew

/-- The first run is not longer than all locals, so it has room for one more. -/
theorem toNat_count_add_one {run : LocalRun} {rest : List LocalRun} (hruns : runs = run :: rest) :
    (run.count + 1).toNat = run.count.toNat + 1 := by
  have hcount : run.count.toNat + 1 < 0x100000000 := by
    simp only [hruns, expand_cons, List.length_append, List.length_replicate] at hfew
    omega
  rw [UInt32.toNat_add]
  exact Nat.mod_eq_of_lt hcount

theorem expand_cons_local : expand (cons type runs) = type :: expand runs := by
  cases runs with
  | nil => rfl
  | cons run rest =>
    by_cases htype : run.type = type
    · simp [cons, htype, toNat_count_add_one hfew rfl, List.replicate_succ]
    · simp [cons, htype]

theorem Canonical.cons (h : Canonical runs) : Canonical (LocalRun.cons type runs) := by
  cases runs with
  | nil => exact canonical_cons_iff.2 ⟨by simp, nofun, canonical_nil⟩
  | cons run rest =>
    by_cases htype : run.type = type
    · obtain ⟨-, hhead, hrest⟩ := canonical_cons_iff.1 h
      have hcount : run.count + 1 ≠ 0 := by
        intro hzero
        have htoNat := toNat_count_add_one hfew rfl
        simp [hzero] at htoNat
      subst htype
      rw [LocalRun.cons, if_pos rfl]
      exact canonical_cons_iff.2 ⟨hcount, hhead, hrest⟩
    · rw [LocalRun.cons, if_neg htype]
      refine canonical_cons_iff.2 ⟨by simp, ?_, h⟩
      rintro next ⟨⟩
      exact Ne.symm htype

end Cons

theorem expand_compress {types : List ValType} (hfew : types.length < 0x100000000) :
    expand (compress types) = types := by
  induction types with
  | nil => rfl
  | cons type types ih =>
    rw [List.length_cons] at hfew
    have hrest := ih (Nat.lt_of_succ_lt hfew)
    rw [compress_cons, expand_cons_local (by rwa [hrest]), hrest]

theorem canonical_compress {types : List ValType} (hfew : types.length < 0x100000000) :
    Canonical (compress types) := by
  induction types with
  | nil => exact canonical_nil
  | cons type types ih =>
    rw [List.length_cons] at hfew
    have hrest := expand_compress (Nat.lt_of_succ_lt hfew)
    rw [compress_cons]
    exact (ih (Nat.lt_of_succ_lt hfew)).cons (by rwa [hrest])

/-! ## One run after another -/

/-- A run in front of others: as a part of the first of them if that is of its type. -/
def merge (run : LocalRun) : List LocalRun → List LocalRun
  | [] => [run]
  | next :: runs =>
    if next.type = run.type then ⟨run.count + next.count, run.type⟩ :: runs else run :: next :: runs

theorem cons_eq_merge (type : ValType) (runs : List LocalRun) :
    cons type runs = merge ⟨1, type⟩ runs := by
  cases runs with
  | nil => rfl
  | cons run runs => rw [cons, merge, UInt32.add_comm]

theorem cons_merge (type : ValType) (count : UInt32) (runs : List LocalRun) :
    cons type (merge ⟨count, type⟩ runs) = merge ⟨count + 1, type⟩ runs := by
  cases runs with
  | nil => simp [merge, cons]
  | cons run runs =>
    by_cases htype : run.type = type
    · simp [merge, cons, htype, UInt32.add_assoc, UInt32.add_comm run.count 1]
    · simp [merge, cons, htype]

theorem compress_replicate_append (type : ValType) (n : Nat) (types : List ValType) :
    compress (List.replicate (n + 1) type ++ types) =
      merge ⟨UInt32.ofNat (n + 1), type⟩ (compress types) := by
  induction n with
  | zero => exact cons_eq_merge type (compress types)
  | succ n ih =>
    rw [List.replicate_succ, List.cons_append, compress_cons, ih, cons_merge,
      UInt32.ofNat_add (n + 1) 1]
    rfl

theorem compress_expand_cons {run : LocalRun} {runs : List LocalRun} (h : run.count ≠ 0) :
    compress (expand (run :: runs)) = merge run (compress (expand runs)) := by
  have hcount : run.count.toNat ≠ 0 := fun hzero ↦ h (UInt32.toNat_inj.1 hzero)
  obtain ⟨n, hn⟩ := Nat.exists_eq_succ_of_ne_zero hcount
  have hmerge := compress_replicate_append run.type n (expand runs)
  rw [← Nat.succ_eq_add_one, ← hn, UInt32.ofNat_toNat] at hmerge
  exact hmerge

/-- Canonical runs are those that their locals are compressed to. -/
theorem Canonical.compress_expand {runs : List LocalRun} (h : Canonical runs) :
    compress (expand runs) = runs := by
  induction runs with
  | nil => rfl
  | cons run runs ih =>
    obtain ⟨hcount, hhead, hrest⟩ := canonical_cons_iff.1 h
    rw [compress_expand_cons hcount, ih hrest]
    cases runs with
    | nil => rfl
    | cons next rest => rw [merge, if_neg (Ne.symm (hhead next rfl))]

/-! ## Other runs for the same locals -/

/-- The number of bytes that runs take behind their count. -/
def size (runs : List LocalRun) : Nat :=
  (runs.map fun run ↦ Varint.unsignedLength run.count.toNat + 1).sum

theorem size_cons (run : LocalRun) (runs : List LocalRun) :
    size (run :: runs) = Varint.unsignedLength run.count.toNat + 1 + size runs := rfl

theorem length_merge_le (run : LocalRun) (runs : List LocalRun) :
    (merge run runs).length ≤ runs.length + 1 := by
  cases runs with
  | nil => rfl
  | cons next runs =>
    rw [merge]
    split <;> simp

/-- One count for two runs takes no more bytes than their own counts. -/
theorem size_merge_le (run : LocalRun) (runs : List LocalRun) :
    size (merge run runs) ≤ size (run :: runs) := by
  cases runs with
  | nil => rfl
  | cons next runs =>
    rw [merge]
    split
    · have hsum : (run.count + next.count).toNat ≤ run.count.toNat + next.count.toNat := by
        rw [UInt32.toNat_add]
        exact Nat.mod_le _ _
      have hlength := (Varint.unsignedLength_mono hsum).trans (Varint.unsignedLength_add_le _ _)
      simp only [size_cons]
      omega
    · rfl

theorem compress_expand_le (runs : List LocalRun) :
    (compress (expand runs)).length ≤ runs.length ∧ size (compress (expand runs)) ≤ size runs := by
  induction runs with
  | nil => exact ⟨Nat.le_refl _, Nat.le_refl _⟩
  | cons run runs ih =>
    obtain ⟨hlength, hsize⟩ := ih
    by_cases hempty : run.count = 0
    · -- A run without locals leaves no trace.
      have hexpand : expand (run :: runs) = expand runs := by simp [hempty]
      rw [hexpand, List.length_cons, size_cons]
      omega
    · have hmerge := length_merge_le run (compress (expand runs))
      have hmerge' := size_merge_le run (compress (expand runs))
      rw [compress_expand_cons hempty]
      rw [size_cons] at hmerge' ⊢
      rw [List.length_cons]
      omega

end LocalRun

/-! ## Bodies -/

namespace FuncBody

theorem localCount_eq (body : FuncBody) :
    body.localCount = (LocalRun.expand body.locals).length := by
  obtain ⟨locals, code⟩ := body
  rw [localCount]
  induction locals with
  | nil => rfl
  | cons run runs ih => simp [ih]

theorem contentSize_eq (body : FuncBody) :
    body.contentSize =
      Varint.unsignedLength body.locals.length + LocalRun.size body.locals + body.code.length := rfl

theorem length_of_encode {body : FuncBody} {written : Bytes} (h : body.encode = .ok written) :
    written.length = Varint.unsignedLength body.contentSize + body.contentSize := by
  obtain ⟨locals, hlocals, h⟩ := bind_eq_ok_iff.1 h
  obtain ⟨hlength, rfl⟩ := lengthPrefixed_eq_ok_iff.1 h
  rw [length_content hlocals] at hlength ⊢
  rw [List.length_append, Varint.length_encodeIndex, toNat_ofNat_of_lt hlength,
    length_content hlocals]

/-- A body with fewer runs in fewer bytes can be written if the other can, and is no longer. -/
theorem encode_le (best other : FuncBody) (hcode : other.code = best.code)
    (hlength : best.locals.length ≤ other.locals.length)
    (hsize : LocalRun.size best.locals ≤ LocalRun.size other.locals) {written : Bytes}
    (hwritten : other.encode = .ok written) :
    ∃ shortest, best.encode = .ok shortest ∧ shortest.length ≤ written.length := by
  have hcontent : best.contentSize ≤ other.contentSize := by
    have hcount := Varint.unsignedLength_mono hlength
    rw [contentSize_eq, contentSize_eq, hcode]
    omega
  have hfit := other.checksSizes.exists_ok_iff.1 ⟨written, hwritten⟩
  simp only [sizes, List.forall_mem_cons] at hfit
  have hbest : ∀ n ∈ best.sizes, n < 0x100000000 := by
    simp only [sizes, List.forall_mem_cons]
    exact ⟨hlength.trans_lt hfit.1, hcontent.trans_lt hfit.2.1, List.forall_mem_nil _⟩
  obtain ⟨shortest, hshortest⟩ := best.checksSizes.exists_ok hbest
  refine ⟨shortest, hshortest, ?_⟩
  rw [length_of_encode hshortest, length_of_encode hwritten]
  exact Nat.add_le_add (Varint.unsignedLength_mono hcontent) hcontent

/-- Locals that are given one by one are put into runs as they come.  The runs are canonical and
stand for just these locals, and no body with the same locals and code has fewer runs or is written
in fewer bytes.  All canonical runs come about in this way. -/
theorem ofLocalTypes_best :
    (∀ (types : List ValType) (code : Bytes), types.length < 0x100000000 →
      (ofLocalTypes types code).locals = types.foldl (fun runs type ↦ LocalRun.grow type runs) [] ∧
      LocalRun.expand (ofLocalTypes types code).locals = types ∧
      LocalRun.Canonical (ofLocalTypes types code).locals ∧
      (ofLocalTypes types code).localCount = types.length ∧
      ∀ other : FuncBody, other.code = code → LocalRun.expand other.locals = types →
        (ofLocalTypes types code).locals.length ≤ other.locals.length ∧
        ∀ written, other.encode = .ok written →
          ∃ shortest, (ofLocalTypes types code).encode = .ok shortest ∧
            shortest.length ≤ written.length) ∧
    ∀ (runs : List LocalRun) (code : Bytes), LocalRun.Canonical runs →
      ofLocalTypes (LocalRun.expand runs) code = ⟨runs, code⟩ := by
  constructor
  · intro types code hfew
    have hexpand : LocalRun.expand (ofLocalTypes types code).locals = types :=
      LocalRun.expand_compress hfew
    refine ⟨LocalRun.compress_eq_foldl types, hexpand, LocalRun.canonical_compress hfew, ?_, ?_⟩
    · rw [localCount_eq, hexpand]
    · rintro other rfl rfl
      obtain ⟨hlength, hsize⟩ := LocalRun.compress_expand_le other.locals
      refine ⟨hlength, fun written hwritten ↦ ?_⟩
      exact encode_le (ofLocalTypes _ other.code) other rfl hlength hsize hwritten
  · intro runs code hruns
    rw [ofLocalTypes, hruns.compress_expand]

/-- Two runs of one type with an empty run between them. -/
def splitRuns : FuncBody :=
  ⟨[⟨1, .i32⟩, ⟨0, .v128⟩, ⟨1, .i32⟩, ⟨1, .f64⟩], [0x0b]⟩

theorem ofLocalTypes_best_splitRuns :
    [ValType.i32, .i32, .f64].length < 0x100000000 ∧
      LocalRun.expand splitRuns.locals = [.i32, .i32, .f64] ∧
      LocalRun.Canonical [⟨2, .i32⟩, ⟨1, .f64⟩] ∧
      (ofLocalTypes [.i32, .i32, .f64] [0x0b]).locals = [⟨2, .i32⟩, ⟨1, .f64⟩] ∧
      (ofLocalTypes [.i32, .i32, .f64] [0x0b]).locals.length ≤ splitRuns.locals.length ∧
      ∃ shortest, (ofLocalTypes [.i32, .i32, .f64] [0x0b]).encode = .ok shortest ∧
        shortest.length ≤ 11 := by
  have hfew : [ValType.i32, .i32, .f64].length < 0x100000000 := by decide
  have hcanonical : LocalRun.Canonical [⟨2, .i32⟩, ⟨1, .f64⟩] := ⟨by decide, by simp⟩
  have hwritten : splitRuns.encode = .ok [10, 4, 1, 0x7f, 0, 0x7b, 1, 0x7f, 1, 0x7c, 0x0b] := by cbv
  obtain ⟨-, -, -, -, hbest⟩ := ofLocalTypes_best.1 [.i32, .i32, .f64] [0x0b] hfew
  obtain ⟨hlength, hshortest⟩ := hbest splitRuns rfl rfl
  exact ⟨hfew, rfl, hcanonical, congrArg FuncBody.locals (ofLocalTypes_best.2 _ [0x0b] hcanonical),
    hlength, hshortest _ hwritten⟩

end FuncBody

end WasmBinary
