import JCore.Core.Events
import JCore.Core.Implements
import JCore.Core.MacPath
import Mathlib.Order.Filter.AtTopBot.Basic
import Mathlib.Order.Filter.Cofinite

/-!
# The CPU goes on

No instruction of a program waits for ever. A line is stalled by a load, which the next
slot takes on, or by the multiplier, which comes to rest, as a line that waits for it
starts nothing; and every operation comes to a line that ends it. So each instruction is
taken up at some time, if every request on the buses is answered at some time.

## Main definitions

* `CpuRun.bgnd`: the instruction that asks for the debugger
* `CpuRun.Unbroken`: no break begins
* `CpuRun.far`: how far an operation is from its end

## Main results

* `CpuRun.frequently_slot`, `CpuRun.frequently_issue`, `CpuRun.frequently_selects`: slots,
  lines and instructions follow each other for ever
* `CpuRun.reaches`: every instruction of a program is taken up
-/

namespace JCore

open Datapath DecodeTable Filter

namespace CpuRun

variable {run : CpuRun} {memory : InstrMemory} {t : ℕ}

/-! ### No break -/

/-- The instruction that asks for the debugger. -/
def bgnd : BitVec 16 := 0x003b

theorem eq_bgnd {code : BitVec 16} (group : codeGroup code = 0x0) (high : codeHigh code = 0x0)
    (low : codeLow code = 0x3b) : code = bgnd := by
  have digits : code.toNat / 4096 % 16 = 0 ∧ code.toNat / 256 % 16 = 0 ∧
      code.toNat % 256 = 0x3b := by
    refine ⟨?_, ?_, ?_⟩
    · simpa [codeGroup, BitVec.extractLsb, Nat.shiftRight_eq_div_pow] using
        congrArg BitVec.toNat group
    · simpa [codeHigh, BitVec.extractLsb, Nat.shiftRight_eq_div_pow] using
        congrArg BitVec.toNat high
    · simpa [codeLow, BitVec.extractLsb] using congrArg BitVec.toNat low
  apply BitVec.eq_of_toNat_eq
  show code.toNat = 0x3b
  omega

/-- The words that lead to its line are in the first group. -/
theorem group_of_predecode {code : BitVec 16} (h : predecodeRomAddr code = 0x0f) :
    codeGroup code = 0x0 := by
  have groups : ∀ group : BitVec 4, group = 0x0 ∨
      group ∈ [0x1#4, 0x5, 0x7, 0x9, 0xa, 0xb, 0xd, 0xe] ∨ group ∈ [0x2#4, 0x3, 0x4, 0x6, 0xf] ∨
      group ∈ [0x8#4, 0xc] := by decide
  rcases groups (codeGroup code) with zero | whole | low | high
  · exact zero
  · have word : code.extractLsb 15 12 = codeGroup code := rfl
    rw [predecodeRomAddr, word] at h
    simp only [List.mem_cons, List.not_mem_nil, or_false] at whole
    rcases whole with g | g | g | g | g | g | g | g <;> simp [g] at h
  · have same : predecodeRomAddr code =
        predecodeRomAddr (ofDigits (codeGroup code) 0x0 (codeLow code)) := by
      refine predecodeRomAddr_congr_low (codeLow_ofDigits _ _ _).symm
        (codeGroup_ofDigits _ _ _).symm ?_ ?_
      · rw [codeGroup_ofDigits]
        intro zero
        rw [zero] at low
        exact absurd low (by decide)
      · rw [codeGroup_ofDigits]
        exact List.mem_cons_of_mem _ low
    have test := forall_addr
      (p := fun low => [0x2#4, 0x3, 0x4, 0x6, 0xf].all fun group =>
        predecodeRomAddr (ofDigits group 0x0 low) != 0x0f)
      (by decide +kernel) (codeLow code)
    have other := List.all_eq_true.mp test _ low
    rw [bne_iff_ne, ← same] at other
    exact absurd h other
  · have same : predecodeRomAddr code =
        predecodeRomAddr (ofDigits (codeGroup code) (codeHigh code) 0x0) := by
      refine predecodeRomAddr_congr_high (codeHigh_ofDigits _ _ _).symm
        (codeGroup_ofDigits _ _ _).symm ?_
      rw [codeGroup_ofDigits]
      exact high
    have test : ∀ group ∈ [0x8#4, 0xc], ∀ high,
        predecodeRomAddr (ofDigits group high 0x0) ≠ 0x0f := by
      decide +kernel
    rw [same] at h
    exact absurd h (test _ high _)

/-- No other word leads to its line. -/
theorem eq_bgnd_of_predecode {code : BitVec 16} (h : predecodeRomAddr code = 0x0f) :
    code = bgnd := by
  have group := group_of_predecode h
  have same : ∀ high, (codeHigh code == 0) = (high == 0) →
      predecodeRomAddr (ofDigits 0x0 high (codeLow code)) = 0x0f := by
    intro high zero
    rw [← h]
    refine predecodeRomAddr_congr_low (codeLow_ofDigits _ _ _) ?_ ?_ ?_
    · rw [group, codeGroup_ofDigits]
    · rw [codeHigh_ofDigits]
      exact fun _ => zero.symm
    · rw [group]
      decide
  rcases zero : codeHigh code == 0 with _ | _
  · have test := forall_addr (p := fun low => predecodeRomAddr (ofDigits 0x0 0x1 low) != 0x0f)
      (by decide +kernel) (codeLow code)
    rw [bne_iff_ne] at test
    exact absurd (same 0x1 (zero.trans (by decide))) test
  · have test := forall_addr
      (p := fun low => predecodeRomAddr (ofDigits 0x0 0x0 low) != 0x0f || low == 0x3b)
      (by decide +kernel) (codeLow code)
    rw [Bool.or_eq_true, bne_iff_ne, beq_iff_eq] at test
    exact eq_bgnd group (beq_iff_eq.mp zero)
      (test.resolve_left fun other => other (same 0x0 (zero.trans (by decide))))

theorem debug_eq_false {addr : BitVec 8} (quiet : eventOfLine addr ≠ some .break)
    (other : addr ≠ 0x0f) : DecodeTable.debug (microcodeLine addr) = false := by
  have test := forall_addr
    (p := fun addr => eventOfLine addr == some .break || addr == 0x0f ||
      !DecodeTable.debug (microcodeLine addr))
    (by decide +kernel) addr
  rw [Bool.or_eq_true, Bool.or_eq_true, beq_iff_eq, beq_iff_eq, Bool.not_eq_true'] at test
  exact test.resolve_left (not_or.mpr ⟨quiet, other⟩)

/-- No line but the first of `BGND` leads there. -/
theorem succ_ne_bgnd {addr : BitVec 8} {T : Bool}
    (h : DecodeTable.dispatch (microcodeLine addr) T = false) : addr + 1 ≠ 0x0f := by
  have test := forall_addr
    (p := fun addr => addr + 1 != 0x0f || (DecodeTable.dispatch (microcodeLine addr) true &&
      DecodeTable.dispatch (microcodeLine addr) false))
    (by decide +kernel) addr
  cases T <;> simpa [h] using test

/-- The line belongs to no break. -/
def Quiet (addr : BitVec 8) : Prop := eventOfLine addr ≠ some .break ∧ addr ≠ 0x0f

/-- Without events, a debugger and the instruction `BGND` no break begins. -/
theorem quiet_nextOp {this : DecodeCoreReg} {front : DispatchI} (event : front.eventI.en = false)
    (enterDebug : front.enterDebug = false) (word : front.ifDr ≠ bgnd) :
    Quiet (DecodeCore.nextOp .rom predecodeRomAddr this front).addr := by
  have none : DecodeCore.eventTaken this front = false := by
    rw [DecodeCore.eventTaken, event, Bool.and_false, Bool.false_and]
  have instr : ∀ instr, instr = .slotIllegal ∨ instr = .generalIllegal →
      Quiet (systemInstrRomAddrs instr) := by
    rintro instr (rfl | rfl)
    · exact ⟨by decide, by decide⟩
    · exact ⟨by decide, by decide⟩
  rw [DecodeCore.nextOp, none, enterDebug, Bool.and_false, if_neg Bool.false_ne_true,
    if_neg Bool.false_ne_true]
  split_ifs
  · exact instr _ (.inl rfl)
  · exact instr _ (.inr rfl)
  · refine ⟨fun h => ?_, fun h => word (eq_bgnd_of_predecode h)⟩
    have there := eventAddr_of_eventOfLine h
    rw [not_eventAddr_normalOp] at there
    exact Bool.false_ne_true there

/-- No word on its way to the decoder is `BGND`. -/
structure Clean (this : DatapathReg) : Prop where
  ifDr : this.ifDr ≠ bgnd
  ifDrNext : this.ifEn = true → this.ifDrNext ≠ bgnd

theorem Clean.process {this : DatapathReg} {ctrl : StageCtrl} {dec : DecodeCtrl} {v : ProcessI}
    {i : DatapathI} (h : Clean this) (calm : Calm this) (answer : Answers memory this i)
    (clean : ∀ a, memory a ≠ bgnd) : Clean (process this ctrl dec v i) := by
  have insert : debugCmd this i .insert = false := debugCmd_eq_false _ _ _ (by simp [calm.run])
  have arrives : ∀ w, instWord this i = some w → w ≠ bgnd := by
    intro w some
    rw [instWord, insert, if_neg Bool.false_ne_true] at some
    split_ifs at some with acked
    rw [instAcked, Bool.and_eq_true] at acked
    rw [← Option.some.inj some, answer acked.1 acked.2]
    exact clean _
  have waits : instWord this i = none → instAcked this i = false := by
    intro none
    rw [instWord] at none
    by_contra acked
    rw [if_pos (Bool.eq_true_of_not_eq_false acked)] at none
    exact absurd none (Option.some_ne_none _)
  cases slot : slotO this i with
  | true =>
    constructor
    · rw [process_ifDr, slot, if_pos rfl]
      cases ready : instReady this i with
      | none => exact h.ifDr
      | some w =>
        rw [instReady, Option.or_eq_some_iff] at ready
        rcases ready with some | ⟨-, some⟩
        · exact arrives w some
        · split_ifs at some with en
          rw [Option.getD_some, ← Option.some.inj some]
          exact h.ifDrNext en
    · intro en
      rw [process_ifEn, slot, Bool.not_true, Bool.and_false] at en
      exact absurd en Bool.false_ne_true
  | false =>
    constructor
    · rw [process_ifDr, slot, if_neg Bool.false_ne_true]
      exact h.ifDr
    · intro en
      rw [process_ifEn, slot, insert, Bool.or_false, Bool.not_false, Bool.and_true] at en
      rw [process_ifDrNext_of_not_slot _ _ _ _ _ slot]
      cases ready : instWord this i with
      | none =>
        rw [waits ready, Bool.false_or] at en
        exact h.ifDrNext en
      | some w => exact arrives w ready

/-- The data path runs, and the operation under way is no break. -/
structure Unbroken (run : CpuRun) (t : ℕ) : Prop where
  calm : Calm (run.state t).data.this
  clean : Clean (run.state t).data.this
  inside : run.boundary t = false → Quiet (run.state t).dec.core.op.addr

theorem Unbroken.quiet_op (h : run.Unbroken t) (quiet : run.Undisturbed memory) :
    Quiet (run.op t).addr := by
  cases here : run.boundary t with
  | false =>
    rw [op_of_not_boundary here]
    exact h.inside here
  | true =>
    rw [op, Cpu.op, Decoder.romOp_of_boundary here]
    refine quiet_nextOp (quiet.event t) ?_ h.clean.ifDr
    show (run.state t).data.this.enterDebug.getLsbD 0 = false
    rw [h.calm.enterDebug]
    rfl

theorem Unbroken.step (h : run.Unbroken t) (quiet : run.Undisturbed memory)
    (clean : ∀ a, memory a ≠ bgnd) : run.Unbroken (t + 1) := by
  have op := h.quiet_op quiet
  refine ⟨h.calm.process (quiet.debug t) (debug_eq_false op.1 op.2),
    h.clean.process h.calm (quiet.answers t) clean, fun inside => ?_⟩
  cases slot : run.slot t with
  | false =>
    rw [dec_succ_of_not_slot slot]
    rw [boundary_succ_of_not_slot slot] at inside
    exact h.inside inside
  | true =>
    rw [op_succ_of_slot slot]
    rw [boundary_succ_of_slot slot] at inside
    cases stall : run.stalled t with
    | true => exact op
    | false =>
      rw [stall, Bool.not_false, Bool.true_and] at inside
      refine ⟨?_, succ_ne_bgnd inside⟩
      show eventOfLine ((run.op t).addr + 1) ≠ some .break
      rw [eventOfLine_succ _ inside]
      exact op.1

theorem unbroken (quiet : run.Undisturbed memory) (clean : ∀ a, memory a ≠ bgnd) (t : ℕ) :
    run.Unbroken t := by
  induction t with
  | zero =>
    refine ⟨⟨rfl, rfl, rfl, rfl⟩, ⟨?_, fun none => absurd none Bool.false_ne_true⟩, fun _ => ?_⟩
    · show (0 : BitVec 16) ≠ bgnd
      decide
    · show Quiet 0xe2
      exact ⟨by decide, by decide⟩
  | succ t ih => exact ih.step quiet clean

/-! ### Slots -/

/-- A request that stays until it is answered comes to its end. -/
theorem exists_idle {en ack : ℕ → Bool} (answered : en t = true → ∃ u, t ≤ u ∧ ack u = true)
    (next : ∀ u, t ≤ u → en (u + 1) = (en u && !ack u)) :
    ∃ u, t ≤ u ∧ ∀ v, u ≤ v → en v = false := by
  have idle : ∃ u, t ≤ u ∧ en u = false := by
    cases here : en t with
    | false => exact ⟨t, le_rfl, here⟩
    | true =>
      obtain ⟨u, later, ack⟩ := answered here
      refine ⟨u + 1, Nat.le_succ_of_le later, ?_⟩
      rw [next u later, ack, Bool.not_true, Bool.and_false]
  obtain ⟨u, later, idle⟩ := idle
  refine ⟨u, later, fun v after => ?_⟩
  induction v, after using Nat.le_induction with
  | base => exact idle
  | succ v after ih => rw [next v (later.trans after), ih, Bool.false_and]

theorem instO_succ_of_not_slot (calm : Calm (run.state t).data.this) (slot : run.slot t = false) :
    (run.state (t + 1)).data.this.instO =
      if (run.state t).data.this.instO.en && (run.clk t).instI.ack then nullInstO
      else (run.state t).data.this.instO := by
  have next := process_instO (run.state t).data.this (Cpu.ctrl run.coproDecode (run.state t))
    (Cpu.decodeCtrl run.coproDecode (run.state t) (run.clk t))
    (Cpu.processI run.coproDecode (run.state t) (run.clk t)) (run.clk t).datapathI
  have waits : slotO (run.state t).data.this (run.clk t).datapathI = false := slot
  rw [waits, if_neg Bool.false_ne_true, Option.getD_none, debugFetches_eq_false calm,
    if_neg Bool.false_ne_true] at next
  exact next

/-- Slots follow each other for ever. -/
theorem frequently_slot (quiet : run.Undisturbed memory) (clean : ∀ a, memory a ≠ bgnd)
    (answered : run.Answered) :
    ∃ᶠ t in atTop, run.slot t = true := by
  rw [frequently_atTop]
  intro t
  by_contra none
  have waits : ∀ u, t ≤ u → run.slot u = false := fun u later =>
    Bool.eq_false_iff.mpr fun slot => none ⟨u, later, slot⟩
  -- without slots both buses become idle
  obtain ⟨u, afterU, data⟩ := @exists_idle t (fun u => (run.dataO u).en)
    (fun u => (run.clk u).dbI.ack) (answered.data t) fun u later => by
    rw [dataO_succ_of_not_slot (waits u later)]
    cases en : (run.dataO u).en <;> cases (run.clk u).dbI.ack <;> first | rfl | exact en
  obtain ⟨v, afterV, inst⟩ := @exists_idle t
    (fun u => (run.state u).data.this.instO.en) (fun u => (run.clk u).instI.ack)
    (answered.inst t) fun u later => by
    rw [instO_succ_of_not_slot (unbroken quiet clean u).calm (waits u later)]
    cases en : (run.state u).data.this.instO.en <;> cases (run.clk u).instI.ack <;>
      first | rfl | exact en
  refine Bool.false_ne_true ((waits (max u v) (le_max_of_le_left afterU)).symm.trans ?_)
  have data : (run.state (max u v)).data.this.dataO.en = false := data _ (le_max_left u v)
  show slotO _ _ = true
  rw [slotO, data, inst _ (le_max_right u v), (unbroken quiet clean _).calm.run]
  rfl

/-! ### Lines -/

/-- What every slot leaves in the decoder is there from some time on. -/
theorem eventually_dec (slots : ∃ᶠ t in atTop, run.slot t = true) {R : DecoderReg → Prop}
    (gained : ∀ᶠ t in atTop, run.slot t = true → R (run.state (t + 1)).dec) :
    ∀ᶠ t in atTop, R (run.state t).dec := by
  rw [eventually_atTop] at gained ⊢
  obtain ⟨t, gained⟩ := gained
  obtain ⟨u, later, slot⟩ := frequently_atTop.mp slots t
  refine ⟨u + 1, fun v after => ?_⟩
  induction v, after using Nat.le_induction with
  | base => exact gained u later slot
  | succ v after ih =>
    cases next : run.slot v with
    | false =>
      rw [dec_succ_of_not_slot next]
      exact ih
    | true => exact gained v (later.trans (Nat.le_of_succ_le after)) next

/-- What every slot passes on from one stage to the next comes to the next one. -/
theorem eventually_passed {α : Type} {f g : Pipeline → α}
    (slots : ∃ᶠ t in atTop, run.slot t = true)
    (passes : ∀ t, run.slot t = true →
      g (run.state (t + 1)).dec.pipeline = f (run.state t).dec.pipeline)
    {P : α → Prop} (there : ∀ᶠ t in atTop, P (f (run.state t).dec.pipeline)) :
    ∀ᶠ t in atTop, P (g (run.state t).dec.pipeline) := by
  refine @eventually_dec run slots (fun dec => P (g dec.pipeline)) ?_
  filter_upwards [there] with t holds slot
  rw [passes t slot]
  exact holds

/-- A multiplier that is told nothing comes to rest. -/
theorem eventually_rest (idle : ∀ᶠ t in atTop, (run.multI t).command = .nop) :
    ∀ᶠ t in atTop, (Mult.code (run.mult t)).busy = false := by
  rw [eventually_atTop] at idle ⊢
  obtain ⟨t, idle⟩ := idle
  have falls : ∀ k, Mult.remaining (run.mult (t + k)).state ≤ 3 - k := by
    intro k
    induction k with
    | zero => exact Mult.remaining_le _
    | succ k ih =>
      have next := @Mult.remaining_step_of_no_command (run.mult (t + k)) (run.slot (t + k))
        (run.multI (t + k)) fun _ => idle _ (Nat.le_add_right t k)
      show Mult.remaining
        (Mult.step (run.mult (t + k)) (run.slot (t + k)) (run.multI (t + k))).state ≤ _
      rw [next]
      omega
  refine ⟨t + 3, fun u later => ?_⟩
  obtain ⟨k, rfl⟩ := Nat.exists_eq_add_of_le later
  have rests := falls (3 + k)
  rw [← Nat.add_assoc] at rests
  rw [Mult.code, Mult.busy_code, decide_eq_false_iff_not]
  omega

/-- A line that waits for the multiplier does not make it busy while it waits. -/
theorem macBusy_of_sense {addr : BitVec 8} (sense : macStallSense (microcodeLine addr) = true) :
    exMacBusy (microcodeLine addr) true = false ∧ wbMacBusy (microcodeLine addr) true = false := by
  have test := forall_addr
    (p := fun addr => !macStallSense (microcodeLine addr) ||
      (!exMacBusy (microcodeLine addr) true && !wbMacBusy (microcodeLine addr) true))
    (by decide +kernel) addr
  simpa [sense] using test

/-- What a line waits for: a load in the first write-back stage, or the multiplier. -/
theorem stalled_eq (t : ℕ) : run.stalled t =
    (DecodeCore.regConf (run.state t).dec.pipeline
        (Cpu.line run.coproDecode (run.state t) (run.clk t)).ex
        (Cpu.line run.coproDecode (run.state t) (run.clk t)).exStall ||
      (macStallSense (microcodeLine (run.op t).addr) &&
        ((run.state t).dec.pipeline.wb1.macBusy || (run.state t).dec.pipeline.wb2.macBusy ||
          (run.state t).dec.pipeline.wb3.macBusy || (run.state t).dec.pipeline.ex1.macBusy ||
          (run.clk t).macBusy))) := by
  show (DecodeCore.regConf _ _ _ || false || _) = _
  rw [Bool.or_false]
  rfl

section Waiting

variable (slots : ∃ᶠ t in atTop, run.slot t = true)
  (waits : ∀ᶠ t in atTop, run.slot t = true → run.stalled t = true)

include slots waits

/-- While a line waits only bubbles enter the pipeline, and those before them leave it. -/
theorem eventually_bubbles : ∀ᶠ t in atTop,
    (run.state t).dec.pipeline.ex1Stall = stageExStallReset ∧
      (run.state t).dec.pipeline.wb1Stall = stageWbStallReset ∧
      (run.state t).dec.pipeline.wb3Stall = stageWbStallReset := by
  have first : ∀ᶠ t in atTop, (run.state t).dec.pipeline.ex1Stall = stageExStallReset ∧
      (run.state t).dec.pipeline.wb1Stall = stageWbStallReset := by
    refine @eventually_dec run slots (fun dec => dec.pipeline.ex1Stall = stageExStallReset ∧
      dec.pipeline.wb1Stall = stageWbStallReset) ?_
    filter_upwards [waits] with t wait slot
    rw [pipeline_succ_of_slot slot, wait slot]
    exact ⟨rfl, rfl⟩
  have second : ∀ᶠ t in atTop, (run.state t).dec.pipeline.wb2Stall = stageWbStallReset :=
    eventually_passed (f := fun p => p.wb1Stall) (g := fun p => p.wb2Stall)
      (P := fun stage => stage = stageWbStallReset) slots
      (fun t slot => by rw [pipeline_succ_of_slot slot]; rfl) (first.mono fun t bubble => bubble.2)
  have third : ∀ᶠ t in atTop, (run.state t).dec.pipeline.wb3Stall = stageWbStallReset :=
    eventually_passed (f := fun p => p.wb2Stall) (g := fun p => p.wb3Stall)
      (P := fun stage => stage = stageWbStallReset) slots
      (fun t slot => by rw [pipeline_succ_of_slot slot]; rfl) second
  filter_upwards [first, third] with t bubble last
  exact ⟨bubble.1, bubble.2, last⟩

/-- A line that waits for ever waits for the multiplier. -/
theorem eventually_sense : ∀ᶠ t in atTop, run.slot t = true →
    macStallSense (microcodeLine (run.op t).addr) = true := by
  filter_upwards [waits, eventually_bubbles slots waits] with t wait bubble slot
  have stall := wait slot
  rw [stalled_eq, DecodeCore.regConf, bubble.2.1] at stall
  exact (Bool.and_eq_true_iff.mp stall).1

/-- Then no line in the pipeline is about to use the multiplier. -/
theorem eventually_free : ∀ᶠ t in atTop,
    (run.state t).dec.pipeline.ex1.macBusy = false ∧
      (run.state t).dec.pipeline.wb1.macBusy = false ∧
      (run.state t).dec.pipeline.wb2.macBusy = false ∧
      (run.state t).dec.pipeline.wb3.macBusy = false := by
  have first : ∀ᶠ t in atTop, (run.state t).dec.pipeline.ex1.macBusy = false ∧
      (run.state t).dec.pipeline.wb1.macBusy = false := by
    refine @eventually_dec run slots (fun dec => dec.pipeline.ex1.macBusy = false ∧
      dec.pipeline.wb1.macBusy = false) ?_
    filter_upwards [waits, eventually_sense slots waits] with t wait sense slot
    have stall : Decoder.romStall (run.state t).dec (Cpu.decoderI (run.state t) (run.clk t))
        (Cpu.tBcc run.coproDecode (run.state t) (run.clk t)) = true := wait slot
    rw [pipeline_succ_of_slot slot]
    show exMacBusy (microcodeLine (run.op t).addr) (Decoder.romStall _ _ _) = false ∧
      wbMacBusy (microcodeLine (run.op t).addr) (Decoder.romStall _ _ _) = false
    rw [stall]
    exact macBusy_of_sense (sense slot)
  have second : ∀ᶠ t in atTop, (run.state t).dec.pipeline.wb2.macBusy = false :=
    eventually_passed (f := fun p => p.wb1) (g := fun p => p.wb2)
      (P := fun stage => stage.macBusy = false) slots
      (fun t slot => by rw [pipeline_succ_of_slot slot]; rfl) (first.mono fun t free => free.2)
  have third : ∀ᶠ t in atTop, (run.state t).dec.pipeline.wb3.macBusy = false :=
    eventually_passed (f := fun p => p.wb2) (g := fun p => p.wb3)
      (P := fun stage => stage.macBusy = false) slots
      (fun t slot => by rw [pipeline_succ_of_slot slot]; rfl) second
  filter_upwards [first, second, third] with t ex wb2 wb3
  exact ⟨ex.1, ex.2, wb2, wb3⟩

end Waiting

/-- No line waits for ever. -/
theorem frequently_issue (slots : ∃ᶠ t in atTop, run.slot t = true) (mult : run.Multiplies) :
    ∃ᶠ t in atTop, run.slot t = true ∧ run.stalled t = false := by
  intro none
  have waits : ∀ᶠ t in atTop, run.slot t = true → run.stalled t = true := by
    filter_upwards [none] with t issue slot
    exact Bool.eq_true_of_not_eq_false fun go => issue ⟨slot, go⟩
  have bubbles := eventually_bubbles slots waits
  have rests : ∀ᶠ t in atTop, (Mult.code (run.mult t)).busy = false := by
    refine eventually_rest ?_
    filter_upwards [bubbles] with t bubble
    show ((run.state t).dec.pipeline.mac
      (Cpu.line run.coproDecode (run.state t) (run.clk t)).macSLatch).com2 = .nop
    simp only [Pipeline.mac, bubble.1, bubble.2.2]
    rfl
  obtain ⟨t, slot, wait, bubble, free, rests⟩ := (slots.and_eventually
    (waits.and (bubbles.and ((eventually_free slots waits).and rests)))).exists
  have stall := wait slot
  have load : stageWbStallReset.wrregW = false := rfl
  -- nothing is left to wait for
  simp only [stalled_eq, DecodeCore.regConf, bubble.2.1, load, free.1, free.2.1, free.2.2.1,
    free.2.2.2, mult.busy, rests, Bool.false_and, Bool.or_self, Bool.and_false,
    Bool.false_eq_true] at stall

/-! ### Instructions -/

/-- The line at this address ends its operation, whatever T is. -/
def lastAddr : BitVec 8 := 0x00

theorem dispatch_lastAddr (T : Bool) : DecodeTable.dispatch (microcodeLine lastAddr) T = true := by
  cases T <;> decide +kernel

/-- How far the operation under way is from that line. -/
def far (run : CpuRun) (t : ℕ) : ℕ := (lastAddr - (run.state t).dec.core.op.addr).toNat

/-- A line that is carried out inside an operation comes nearer. -/
theorem far_succ_of_issue (slot : run.slot t = true) (go : run.stalled t = false)
    (here : run.boundary t = false) (next : run.boundary (t + 1) = false) :
    run.far (t + 1) + 1 = run.far t := by
  have op := op_of_not_boundary here
  rw [boundary_succ_of_slot slot, go, Bool.not_false, Bool.true_and, op] at next
  have other : (run.state t).dec.core.op.addr ≠ lastAddr := by
    intro same
    rw [same, dispatch_lastAddr] at next
    exact Bool.false_ne_true next.symm
  have step : (run.state (t + 1)).dec.core.op.addr = (run.state t).dec.core.op.addr + 1 := by
    rw [op_succ_of_slot slot, go, if_neg Bool.false_ne_true, op]
    rfl
  rw [far, far, step]
  revert other
  generalize (run.state t).dec.core.op.addr = addr, lastAddr = last
  intro other
  bv_omega

theorem far_succ_le (here : run.boundary t = false) (next : run.boundary (t + 1) = false) :
    run.far (t + 1) ≤ run.far t := by
  cases slot : run.slot t with
  | false => rw [far, far, dec_succ_of_not_slot slot]
  | true =>
    cases go : run.stalled t with
    | false =>
      have nearer := far_succ_of_issue slot go here next
      omega
    | true => rw [far, far, op_succ_of_slot slot, go, if_pos rfl, op_of_not_boundary here]

/-- An operation that begins is the next to be taken up. -/
theorem boundary_stays {u v : ℕ} (here : run.boundary u = true) (later : u ≤ v)
    (none : ∀ w, u ≤ w → run.selects w ≠ true) : run.boundary v = true := by
  induction v, later using Nat.le_induction with
  | base => exact here
  | succ v after ih =>
    cases slot : run.slot v with
    | false => rw [boundary_succ_of_not_slot slot, ih]
    | true =>
      have taken : run.selects v = true := by rw [selects, slot, ih, Bool.and_self]
      exact absurd taken (none v after)

/-- Instructions are taken up for ever. -/
theorem frequently_selects (slots : ∃ᶠ t in atTop, run.slot t = true) (mult : run.Multiplies) :
    ∃ᶠ t in atTop, run.selects t = true := by
  intro none
  obtain ⟨t, none⟩ := eventually_atTop.mp none
  have inside : ∀ u, t ≤ u → run.boundary u = false := by
    intro u later
    by_contra here
    obtain ⟨v, after, slot⟩ := frequently_atTop.mp slots u
    have begins := boundary_stays (Bool.eq_true_of_not_eq_false here) after fun w hw =>
      none w (later.trans hw)
    have taken : run.selects v = true := by rw [selects, slot, begins, Bool.and_self]
    exact none v (later.trans after) taken
  have falls : ∀ u v, t ≤ u → u ≤ v → run.far v ≤ run.far u := by
    intro u v later after
    induction v, after using Nat.le_induction with
    | base => exact le_rfl
    | succ v after ih =>
      have lower := far_succ_le (inside v (later.trans after))
        (inside (v + 1) (Nat.le_succ_of_le (later.trans after)))
      exact lower.trans ih
  have below : ∀ n, ∃ u, t ≤ u ∧ run.far u + n ≤ run.far t := by
    intro n
    induction n with
    | zero => exact ⟨t, le_rfl, le_rfl⟩
    | succ n ih =>
      obtain ⟨u, later, low⟩ := ih
      obtain ⟨v, after, slot, go⟩ := frequently_atTop.mp (frequently_issue slots mult) u
      have there := later.trans after
      have nearer := far_succ_of_issue slot go (inside v there) (inside _ (Nat.le_succ_of_le there))
      have fallen := falls u v later after
      exact ⟨v + 1, Nat.le_succ_of_le there, by omega⟩
  obtain ⟨u, -, low⟩ := below (run.far t + 1)
  omega

/-- Every instruction of a program is taken up at some time, with PC behind it and with the
registers, SR and the memory as the program sees them. -/
theorem reaches (run : CpuRun) (memory : InstrMemory) (bytes : ByteMemory)
    (bank : Fin 21 → BitVec 32) (cleared : run.regs = RegisterFile.reset bank bank)
    (zero : bank 0 = 0) (quiet : run.Undisturbed memory) (clean : ∀ a, memory a ≠ bgnd)
    (backed : run.Backed bytes) (answered : run.Answered) (mult : run.Multiplies) (n : ℕ)
    {i i' : Isa} (steps : (Isa.ofReset bank bytes).steps memory n = some i)
    (next : i.step memory = some i') :
    ∃ t, (run.selects t = true ∧ run.taken t = n) ∧ run.TakesUp memory bytes t i := by
  have slots := frequently_slot quiet clean answered
  have endless := Nat.frequently_atTop_iff_infinite.mp slots
  have infinite := Nat.frequently_atTop_iff_infinite.mp (frequently_selects slots mult)
  let t := Nat.nth (fun t => run.selects t = true) n
  have taken : run.selects t = true := Nat.nth_mem_of_infinite infinite n
  have count : run.taken t = n := Nat.count_nth_of_infinite infinite n
  have on : run.GoesOn (run.slots t) := by
    refine ⟨Nat.nth (fun t => run.slot t = true) (run.slots t + 4), ?_⟩
    have many : run.slots (Nat.nth (fun t => run.slot t = true) (run.slots t + 4)) =
        run.slots t + 4 := Nat.count_nth_of_infinite endless _
    omega
  rw [← count] at steps
  exact ⟨t, ⟨taken, count⟩, takesUp_of_steps cleared zero quiet backed on steps next taken⟩

open Closed in
/-- The sample comes to its tenth instruction, with what nine of them are to leave. -/
theorem reaches_sample : ∃ t, sampleRun.taken t = 9 ∧
    sampleRun.op t = DecodeCore.normalOp .rom predecodeRomAddr 0x0009 ∧
    (sampleRun.state t).data.this.pc = 0x10A ∧
    ∃ M : Machine, (M.regs .a 1 = 6 ∧ M.regs .b 2 = 9 ∧ M.regs .a 3 = 0x106 ∧ M.mem 0x7ff = 6) ∧
      sampleRun.Shows sampleBytes t M := by
  have clean : ∀ a, sampleProgram a ≠ bgnd := by
    have absent : bgnd ∉ sampleWords := by decide
    intro a
    rw [sampleProgram, List.getD_eq_getElem?_getD]
    cases h : sampleWords[a.toNat - 0x80]? with
    | none => decide
    | some word => exact ne_of_mem_of_not_mem (List.mem_of_getElem? h) absent
  have word : wordAt sampleProgram 0x108 = 0x0009 := by decide
  obtain ⟨i, i', steps, next, flow, left⟩ := steps_sample
  obtain ⟨t, ⟨-, count⟩, takes⟩ := reaches sampleRun sampleProgram sampleBytes (fun _ => 0) rfl rfl
    undisturbed_run clean backed_run answered_run multiplies_run 9 steps next
  obtain ⟨M, agrees, shows⟩ := takes.shows
  have op := takes.op
  have pc := takes.pc
  rw [flow, word] at op
  rw [flow] at pc
  exact ⟨t, count, op, pc, M, left M agrees, shows⟩

end CpuRun

end JCore
