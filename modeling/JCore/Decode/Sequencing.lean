import JCore.Decode.Decoder

/-!
# Microcode sequencing

From one dispatch boundary to the next the decoder presents one operation. The
address counts the lines that were issued, whatever the table answers, however
long a line is stalled and whatever the event source and the fetch do meanwhile.

## Main definitions

* `DecoderRun`: a run of the decoder on arbitrary inputs and table lines
* `DecoderRun.presented`, `DecoderRun.boundary`, `DecoderRun.issued`: the
  operation of a clock, whether it is being chosen, whether its line is issued

## Main results

* `DecoderRun.presented_eq`: the operation presented after a boundary
* `DecoderRun.sequence_of_boundary`: with the order of the issued lines and their
  entry into the pipeline
-/

namespace JCore

/-- The operation with the address of its line `n`. -/
def Operation.atLine (start : Operation) (n : ℕ) : Operation :=
  { start with addr := start.addr + BitVec.ofNat 8 n }

@[simp] theorem Operation.atLine_zero (start : Operation) : start.atLine 0 = start := by
  simp [atLine]

theorem Operation.atLine_succ (start : Operation) (n : ℕ) :
    start.atLine (n + 1) = { start.atLine n with addr := (start.atLine n).addr + 1 } := by
  simp only [atLine, BitVec.ofNat_add, BitVec.add_assoc]
  rfl

/-- A run of the decoder: the variant of the table, the state it starts in, and
for every clock the inputs and the line that the table answers with. -/
structure DecoderRun where
  decodeType : CpuDecodeType
  predecode : BitVec 16 → BitVec 8
  start : DecoderReg
  clk : ℕ → DecoderI × TableLine

namespace DecoderRun

variable (run : DecoderRun)

/-- The decoder before clock `t`. -/
def state : ℕ → DecoderReg :=
  trace (fun this c => Decoder.step this c.1 c.2 run.decodeType run.predecode) run.start run.clk

/-- The operation presented in clock `t`. -/
def presented (t : ℕ) : Operation :=
  Decoder.op (run.state t) (run.clk t).1 run.decodeType run.predecode

/-- Clock `t` lies at a dispatch boundary: the operation comes from `next_op`. -/
def boundary (t : ℕ) : Bool := Decoder.boundary (run.state t)

def stalled (t : ℕ) : Bool := Decoder.nextIdStall (run.state t) (run.clk t).1 (run.clk t).2

/-- The line presented in clock `t` is issued. -/
def issued (t : ℕ) : Bool := (run.clk t).1.slot && !run.stalled t

/-- How many lines are issued in the `d` clocks from `m` on. -/
def issuedCount (m d : ℕ) : ℕ := Nat.count (fun j => run.issued (m + j) = true) d

/-- The operations of the lines issued in the `d` clocks from `m` on. -/
def issuedOps (m d : ℕ) : List Operation :=
  ((List.range d).filter fun j => run.issued (m + j)).map fun j => run.presented (m + j)

/-- For `d` clocks from `m` on no line is issued that dispatches. -/
def OpenFor (m d : ℕ) : Prop :=
  ∀ j < d, run.issued (m + j) = true → (run.clk (m + j)).2.dispatch = false

variable {run} {m d t : ℕ}

theorem state_succ (t : ℕ) :
    run.state (t + 1) =
      Decoder.step (run.state t) (run.clk t).1 (run.clk t).2 run.decodeType run.predecode :=
  rfl

theorem OpenFor.mono {d' : ℕ} (h : run.OpenFor m d) (hle : d' ≤ d) : run.OpenFor m d' :=
  fun j hj => h j (hj.trans_le hle)

theorem issuedCount_succ (m d : ℕ) :
    run.issuedCount m (d + 1) = run.issuedCount m d + (run.issued (m + d)).toNat := by
  rw [issuedCount, issuedCount, Nat.count_succ]
  cases run.issued (m + d) <;> rfl

theorem presented_of_boundary (h : run.boundary t = true) :
    run.presented t =
      DecodeCore.nextOp run.decodeType run.predecode (run.state t).core (run.clk t).1.front :=
  Decoder.op_of_boundary _ _ h

theorem presented_of_not_boundary (h : run.boundary t = false) :
    run.presented t = (run.state t).core.op := Decoder.op_of_not_boundary _ _ h

/-! ### What one clock does -/

theorem state_succ_of_not_slot (h : (run.clk t).1.slot = false) :
    run.state (t + 1) = run.state t := Decoder.step_of_not_slot _ _ h

/-- The operation after a slot. -/
theorem op_succ_of_slot (h : (run.clk t).1.slot = true) :
    (run.state (t + 1)).core.op =
      if run.stalled t then run.presented t
      else { run.presented t with addr := (run.presented t).addr + 1 } := by
  rw [state_succ, Decoder.core_step_of_slot _ _ h]
  rfl

/-- The state of an operation under way. -/
theorem boundary_succ (h : (run.clk t).1.slot = true) :
    run.boundary (t + 1) = (run.issued t && (run.clk t).2.dispatch) := by
  rw [boundary, state_succ, Decoder.boundary_step _ _ h, issued, h]
  rfl

/-! ### From a boundary on -/

/-- Until a line that dispatches is issued, the operation of a slot stays, advanced
by the lines issued. So does one that is under way already. -/
theorem presented_eq (fixed : (run.clk m).1.slot = true ∨ run.boundary m = false)
    (openFor : run.OpenFor m d) :
    run.presented (m + d) = (run.presented m).atLine (run.issuedCount m d) ∧
      (0 < d → run.boundary (m + d) = false) := by
  induction d with
  | zero => simp [issuedCount]
  | succ d ih =>
    obtain ⟨hop, hin⟩ := ih (openFor.mono (Nat.le_succ d))
    rw [← Nat.add_assoc, issuedCount_succ]
    rcases hslot : (run.clk (m + d)).1.slot with _ | _
    · -- a clock without a slot is not the first one of an operation just chosen
      have hopen : run.boundary (m + d) = false := by
        rcases Nat.eq_zero_or_pos d with rfl | hd
        · exact fixed.resolve_left (by simpa using hslot)
        · exact hin hd
      have hsame := state_succ_of_not_slot hslot
      have hclosed : run.boundary (m + d + 1) = false := by
        rw [boundary, hsame]
        exact hopen
      refine ⟨?_, fun _ => hclosed⟩
      rw [presented_of_not_boundary hclosed, hsame, ← presented_of_not_boundary hopen, hop,
        issued, hslot]
      rfl
    · have hlatch := op_succ_of_slot hslot
      have hclosed : run.boundary (m + d + 1) = false := by
        rw [boundary_succ hslot]
        rcases hi : run.issued (m + d) with _ | _
        · rfl
        · exact openFor d (Nat.lt_succ_self d) hi
      refine ⟨?_, fun _ => hclosed⟩
      rw [presented_of_not_boundary hclosed, hlatch, issued, hslot, hop]
      cases run.stalled (m + d)
      · exact (Operation.atLine_succ _ _).symm
      · rfl

/-- The issued lines of an operation are its lines 0, 1, 2 and so on. -/
theorem issuedOps_eq (slot : (run.clk m).1.slot = true) (openFor : run.OpenFor m d) :
    run.issuedOps m (d + 1) =
      (List.range (run.issuedCount m (d + 1))).map (run.presented m).atLine := by
  induction d with
  | zero =>
    rw [issuedCount_succ]
    simp only [issuedOps, issuedCount, Nat.count_zero, Nat.add_zero]
    cases hi : run.issued m <;> simp [hi]
  | succ d ih =>
    have hlast := (presented_eq (.inl slot) openFor).1
    have hprev := ih (openFor.mono (Nat.le_succ d))
    rw [issuedCount_succ m (d + 1), issuedOps, List.range_succ, List.filter_append, List.map_append,
      ← issuedOps, hprev]
    cases hi : run.issued (m + (d + 1))
    · simp [hi]
    · simp [hi, List.range_succ, hlast]

/-- A line that is issued enters the pipeline; a stalled one leaves a bubble. -/
theorem pipeline_succ_of_slot (h : (run.clk t).1.slot = true) :
    (run.state (t + 1)).pipeline.ex1 = (run.clk t).2.ex ∧
      (run.state (t + 1)).pipeline.wb1 = (run.clk t).2.wb ∧
      (run.state (t + 1)).pipeline.ex1Stall =
        (if run.issued t then (run.clk t).2.exStall else stageExStallReset) ∧
      (run.state (t + 1)).pipeline.wb1Stall =
        (if run.issued t then (run.clk t).2.wbStall else stageWbStallReset) := by
  rw [state_succ, Decoder.step, Pipeline.step, issued, h]
  refine ⟨rfl, rfl, ?_, ?_⟩ <;>
  · show (if run.stalled t = true then _ else _) = _
    cases run.stalled t <;> rfl

/-- What holds `d` clocks after a boundary in clock `m`, as long as no line that
dispatches was issued before. -/
structure Sequenced (run : DecoderRun) (m d : ℕ) : Prop where
  /-- the operation is the one chosen at the boundary -/
  chosen : run.presented m =
    DecodeCore.nextOp run.decodeType run.predecode (run.state m).core (run.clk m).1.front
  /-- its plane and code stay, its address counts the lines issued -/
  presented : run.presented (m + d) = (run.presented m).atLine (run.issuedCount m d)
  /-- the lines issued are its lines in order -/
  issuedOps : run.issuedOps m (d + 1) =
    (List.range (run.issuedCount m (d + 1))).map (run.presented m).atLine
  /-- nothing else is chosen -/
  inside : 0 < d → run.boundary (m + d) = false
  /-- a line enters the pipeline when it is issued, otherwise a bubble does -/
  entered : (run.clk (m + d)).1.slot = true →
    (run.state (m + d + 1)).pipeline.ex1Stall =
        (if run.issued (m + d) then (run.clk (m + d)).2.exStall else stageExStallReset) ∧
      (run.state (m + d + 1)).pipeline.wb1Stall =
        (if run.issued (m + d) then (run.clk (m + d)).2.wbStall else stageWbStallReset)
  /-- the next boundary follows the line that dispatches -/
  closed : (run.clk (m + d)).1.slot = true →
    run.boundary (m + d + 1) = (run.issued (m + d) && (run.clk (m + d)).2.dispatch)

/-- From a boundary until the line that dispatches has been issued, one operation
is presented and its lines are issued in order. -/
theorem sequence_of_boundary (run : DecoderRun) (m d : ℕ) (slot : (run.clk m).1.slot = true)
    (here : run.boundary m = true) (openFor : run.OpenFor m d) : run.Sequenced m d where
  chosen := presented_of_boundary here
  presented := (presented_eq (.inl slot) openFor).1
  issuedOps := issuedOps_eq slot openFor
  inside := (presented_eq (.inl slot) openFor).2
  entered h := (pipeline_succ_of_slot h).2.2
  closed h := boundary_succ h

/-- A dispatching line, and then an operation that does not end. -/
def endlessRun : DecoderRun where
  decodeType := .rom
  predecode := predecodeRomAddr
  start := decoderReset
  clk t :=
    ({ slot := true, ifStall := false, macBusy := false, maskInt := false
       front :=
         { eventI := ⟨false, .interrupt, 0, false, 0xf⟩, enterDebug := false, ibit := 0xf,
           ifDr := 0x0009, illegalDelaySlot := false, illegalInstr := false } },
      { idleLine with dispatch := t == 0 })

theorem sequence_of_boundary_endlessRun : endlessRun.Sequenced 1 2 :=
  sequence_of_boundary endlessRun 1 2 rfl rfl fun j _ _ => by
    simp [endlessRun, Nat.add_comm 1 j]

end DecoderRun

end JCore
