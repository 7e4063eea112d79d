import JCore.Core.Debug
import JCore.Decode.Pipeline
import Mathlib.Tactic.IntervalCases

/-!
# Debug sessions

A session starts when the instruction `BREAK` runs. The first slot after it
that asks for an instruction holds the CPU instead, with PC at the address it
asked for; instructions are inserted; and `STEP` or `CONTINUE` fetches from PC.
The fetch goes through `toInstO`, which makes a request only if the line that
the decoder presents in that clock asks for one. A line that does not, the first
one of an inserted instruction of several lines or one that a conflict stalls,
releases the CPU without the fetch, and the instruction at PC is passed over.

## Main definitions

* `Session`: a session in a run, from the break to its release
* `heldRequest`: the request that a slot would start if the CPU were running
* `Transparent`: the next fetch is the one that was held, and PC has not moved

## Main results

* `Entering.step`, `Paused.step`: the two phases of a session, clock by clock
* `session_transparent`: a session whose release finds a line that asks for an
  instruction is transparent
-/

namespace JCore.Datapath

variable (regs : RegisterFile 5 21 32) (clk : ℕ → ClockI)

/-! ### The run -/

/-- The register record of a run before clock `t`. -/
def recordAt (t : ℕ) : DatapathReg := (run (reset regs) clk t).this

/-- What the process reads of the combinational logic in clock `t`. -/
def logicAt (t : ℕ) : ProcessI := processI (run (reset regs) clk t) (clk t).ctrl (clk t).i

/-- The request for an instruction that clock `t` starts. -/
def requestAt (t : ℕ) : Option CpuInstructionO :=
  instRequest (recordAt regs clk t) (clk t).dec (logicAt regs clk t) (clk t).i

/-- The request that the slot of clock `t` would start if the CPU were running. -/
def heldRequest (t : ℕ) : Option CpuInstructionO :=
  if slotO (recordAt regs clk t) (clk t).i then
    slotRequest { recordAt regs clk t with debugState := .run } (clk t).dec (logicAt regs clk t)
  else none

theorem recordAt_succ (t : ℕ) : recordAt regs clk (t + 1) =
    process (recordAt regs clk t) (clk t).ctrl (clk t).dec (logicAt regs clk t) (clk t).i :=
  run_succ regs clk t

/-- A line that issues a fetch moves PC to the address of the fetch. -/
def FetchMovesPc : Prop :=
  ∀ t, slotO (recordAt regs clk t) (clk t).i = true → (clk t).dec.instr.issue = true →
    if (clk t).dec.instr.addrSel then (clk t).ctrl.wrZ = true
    else (clk t).dec.inc = true ∧ (clk t).ctrl.wrZ = false

/-- A session from the clock in which `BREAK` runs to the first `STEP` or
`CONTINUE`, whose inserted instructions do not write PC. -/
structure Session (b c : ℕ) : Prop where
  enters : breakRan (recordAt regs clk b) (clk b).dec = true
  later : b < c
  inside : ∀ t, b < t → t < c → debugFetches (recordAt regs clk t) (clk t).i = false
  released : debugFetches (recordAt regs clk c) (clk c).i = true
  keepsPc : ∀ u t, b < u → u < t → t < c →
    debugCmd (recordAt regs clk u) (clk u).i .insert = true →
      slotO (recordAt regs clk t) (clk t).i = true → (clk t).ctrl.wrZ = false

/-- After a session the first fetch is for the address of the first request held
in it, and from that request on PC stays. -/
def Transparent (b c : ℕ) : Prop :=
  ∃ p r, b < p ∧ p < c ∧ heldRequest regs clk p = some r ∧
    (∀ t, b < t → t < p → heldRequest regs clk t = none) ∧
    (∃ n fetch, b < n ∧ (∀ t, b < t → t < n → requestAt regs clk t = none) ∧
      requestAt regs clk n = some fetch ∧ fetch.a = r.a) ∧
    ∀ t, p < t → t ≤ c + 1 → (recordAt regs clk t).pc = (recordAt regs clk (p + 1)).pc

variable {regs clk} {b c p t : ℕ}

/-! ### The hold of PC -/

/-- The hold lasts from an insertion until the CPU is ready again. -/
theorem awaitIf_of_stopPcInc (t : ℕ) (h : (recordAt regs clk t).stopPcInc = true) :
    (recordAt regs clk t).debugState = .awaitIf := by
  induction t with
  | zero => cases h
  | succ t ih =>
    rw [recordAt_succ] at h ⊢
    rw [process_stopPcInc, Bool.and_eq_true, Bool.or_eq_true, Bool.not_eq_true'] at h
    obtain ⟨hsettled, hins | hstop⟩ := h
    · have hready : (recordAt regs clk t).debugState = .ready := by
        by_contra hne
        rw [debugCmd_eq_false _ _ _ hne] at hins
        cases hins
      rw [process_debugState_of_ready _ _ _ _ hready, hins, if_pos rfl]
    · rw [process_debugState_of_awaitIf _ _ _ _ (ih hstop)] at hsettled ⊢
      cases hpause : slotO (recordAt regs clk t) (clk t).i && (clk t).dec.instr.issue
      · rfl
      · simp [hpause, DebugState.settled] at hsettled

theorem requestAt_of_awaitIf (h : (recordAt regs clk t).debugState = .awaitIf) :
    requestAt regs clk t = none := by
  have hne : (recordAt regs clk t).debugState ≠ .ready := by simp [h]
  have hfetch : debugFetches (recordAt regs clk t) (clk t).i = false := by
    simp [debugFetches, debugCmd_eq_false _ _ _ hne]
  simp [requestAt, instRequest, slotRequest, h, hfetch]

/-! ### Before the pause -/

/-- The CPU has run `BREAK` and has not asked for an instruction since. -/
structure Entering (regs : RegisterFile 5 21 32) (clk : ℕ → ClockI) (b t : ℕ) : Prop where
  state : (recordAt regs clk t).debugState = .awaitIf
  moves : (recordAt regs clk t).stopPcInc = false
  quiet : ∀ u, b < u → u < t → heldRequest regs clk u = none ∧ requestAt regs clk u = none

/-- The CPU has been held in clock `p`, and either is ready or runs an inserted
instruction. -/
structure Paused (regs : RegisterFile 5 21 32) (clk : ℕ → ClockI) (b p t : ℕ) : Prop where
  before : b < p
  after : p < t
  held : ∃ r, heldRequest regs clk p = some r ∧
    r.a = (recordAt regs clk (p + 1)).pc.extractLsb' 1 31
  first : ∀ u, b < u → u < p → heldRequest regs clk u = none
  quiet : ∀ u, b < u → u < t → requestAt regs clk u = none
  pc : ∀ u, p < u → u ≤ t → (recordAt regs clk u).pc = (recordAt regs clk (p + 1)).pc
  state : (recordAt regs clk t).debugState = .ready ∨
    (recordAt regs clk t).debugState = .awaitIf ∧ (recordAt regs clk t).stopPcInc = true ∧
      ∃ u, b < u ∧ u < t ∧ debugCmd (recordAt regs clk u) (clk u).i .insert = true

theorem entering_of_breakRan (h : breakRan (recordAt regs clk b) (clk b).dec = true) :
    Entering regs clk b (b + 1) := by
  have hstate : (recordAt regs clk b).debugState = .run ∨
      (recordAt regs clk b).debugState = .awaitBreak := by
    simp only [breakRan, Bool.and_eq_true, Bool.or_eq_true, beq_iff_eq] at h
    exact h.2
  have hstop : (recordAt regs clk b).stopPcInc = false := by
    by_contra hs
    rw [Bool.not_eq_false] at hs
    have := awaitIf_of_stopPcInc b hs
    rcases hstate with hrun | hrun <;> simp [hrun] at this
  have hcmd : debugCmd (recordAt regs clk b) (clk b).i .insert = false := by
    apply debugCmd_eq_false
    rcases hstate with hrun | hrun <;> simp [hrun]
  refine ⟨?_, ?_, fun u hu hu' => absurd hu (by omega)⟩
  · rw [recordAt_succ]
    rcases hstate with hrun | hrun
    · rw [process_debugState_of_run _ _ _ _ hrun, h, if_pos rfl]
    · rw [process_debugState_of_awaitBreak _ _ _ _ hrun, h, if_pos rfl]
  · rw [recordAt_succ, process_stopPcInc, hcmd, hstop, Bool.or_false, Bool.and_false]

/-- A request that is held leaves its address in PC. -/
theorem pc_of_held (moves : FetchMovesPc regs clk) (stop : (recordAt regs clk t).stopPcInc = false)
    (slot : slotO (recordAt regs clk t) (clk t).i = true)
    (issue : (clk t).dec.instr.issue = true) :
    ∃ r, heldRequest regs clk t = some r ∧
      r.a = (recordAt regs clk (t + 1)).pc.extractLsb' 1 31 := by
  have hmoves := moves t slot issue
  rw [recordAt_succ, process_pc, slot, if_pos rfl, slotPc, heldPcInc, stop]
  refine ⟨_, by rw [heldRequest, slot, if_pos rfl, slotRequest, issue]; rfl, ?_⟩
  simp only [toInstO, issue, if_true, heldPcInc, stop, Bool.false_eq_true, if_false]
  cases hsel : (clk t).dec.instr.addrSel
  · rw [hsel, if_neg Bool.false_ne_true] at hmoves
    simp [hmoves]
  · rw [hsel, if_pos rfl] at hmoves
    simp [hmoves]

/-- Until a slot asks for an instruction the CPU goes on as if it were running,
and that slot holds it. -/
theorem Entering.step (h : Entering regs clk b t) (later : b < t)
    (moves : FetchMovesPc regs clk) :
    Entering regs clk b (t + 1) ∨ Paused regs clk b t (t + 1) := by
  obtain ⟨hstate, hstop, hquiet⟩ := h
  have hrequest := requestAt_of_awaitIf hstate
  have hnext := process_debugState_of_awaitIf (clk t).ctrl (clk t).dec (logicAt regs clk t) (clk t).i
    hstate
  have hcmd : debugCmd (recordAt regs clk t) (clk t).i .insert = false :=
    debugCmd_eq_false _ _ _ (by simp [hstate])
  rw [← recordAt_succ] at hnext
  -- without a slot of a line that issues it waits on
  cases hslot : slotO (recordAt regs clk t) (clk t).i && (clk t).dec.instr.issue
  · left
    have hheld : heldRequest regs clk t = none := by
      rw [heldRequest, slotRequest]
      cases hs : slotO (recordAt regs clk t) (clk t).i
      · rfl
      · rw [hs, Bool.true_and] at hslot
        simp [hslot]
    refine ⟨by rw [hnext, hslot, if_neg Bool.false_ne_true], ?_, ?_⟩
    · rw [recordAt_succ, process_stopPcInc, hcmd, hstop, Bool.or_false, Bool.and_false]
    · intro u hu hu'
      rcases Nat.lt_succ_iff_lt_or_eq.mp hu' with hlt | rfl
      · exact hquiet u hu hlt
      · exact ⟨hheld, hrequest⟩
  -- with one the fetch is held, and the core pauses
  · right
    have hpause := hslot
    rw [Bool.and_eq_true] at hpause
    refine ⟨later, Nat.lt_succ_self t, pc_of_held moves hstop hpause.1 hpause.2,
      fun u hu hu' => (hquiet u hu hu').1, ?_, ?_, .inl (by rw [hnext, hslot, if_pos rfl])⟩
    · intro u hu hu'
      rcases Nat.lt_succ_iff_lt_or_eq.mp hu' with hlt | rfl
      · exact (hquiet u hu hlt).2
      · exact hrequest
    · intro u hu hu'
      rw [show u = t + 1 by omega]

/-! ### After the pause -/

/-- No slot of an inserted instruction moves PC. -/
theorem slotPc_of_stopPcInc (this : DatapathReg) (ctrl : StageCtrl) (dec : DecodeCtrl)
    (v : ProcessI) (stop : this.stopPcInc = true) (keeps : ctrl.wrZ = false) :
    slotPc this ctrl dec v = this.pc := by
  simp [slotPc, heldPcInc, stop, keeps]

theorem requestAt_of_ready (h : (recordAt regs clk t).debugState = .ready) :
    requestAt regs clk t =
      if debugFetches (recordAt regs clk t) (clk t).i && (clk t).dec.instr.issue then
        some (toInstO (clk t).dec.instr (recordAt regs clk t).pc true)
      else none := by
  rw [requestAt, instRequest, slotO_of_ready _ h, if_neg Bool.false_ne_true]

/-- An inserted instruction runs without a fetch and without moving PC, up to
the slot that asks for the next one. -/
theorem Paused.step (h : Paused regs clk b p t)
    (stays : debugFetches (recordAt regs clk t) (clk t).i = false)
    (keepsPc : ∀ u, b < u → u < t →
      debugCmd (recordAt regs clk u) (clk u).i .insert = true →
        slotO (recordAt regs clk t) (clk t).i = true → (clk t).ctrl.wrZ = false) :
    Paused regs clk b p (t + 1) := by
  have hlater := h.before.trans h.after
  -- the request and PC in this clock, and the state it leads to
  suffices hclock : requestAt regs clk t = none ∧
      (recordAt regs clk (t + 1)).pc = (recordAt regs clk t).pc ∧
      ((recordAt regs clk (t + 1)).debugState = .ready ∨
        (recordAt regs clk (t + 1)).debugState = .awaitIf ∧
          (recordAt regs clk (t + 1)).stopPcInc = true ∧
          ∃ u, b < u ∧ u < t + 1 ∧ debugCmd (recordAt regs clk u) (clk u).i .insert = true) by
    obtain ⟨hrequest, hpc, hstate⟩ := hclock
    refine ⟨h.before, h.after.trans (Nat.lt_succ_self t), h.held, h.first, ?_, ?_, hstate⟩
    · intro u hu hu'
      rcases Nat.lt_succ_iff_lt_or_eq.mp hu' with hlt | rfl
      · exact h.quiet u hu hlt
      · exact hrequest
    · intro u hu hu'
      rcases Nat.le_succ_iff.mp hu' with hle | rfl
      · exact h.pc u hu hle
      · rw [hpc]
        exact h.pc t h.after le_rfl
  rcases h.state with hready | ⟨hawait, hstop, u, hu, hut, hinsert⟩
  · -- held: only an insertion leads out, for no release is taken
    have hslot := slotO_of_ready (clk t).i hready
    have hnext := process_debugState_of_ready (clk t).ctrl (clk t).dec (logicAt regs clk t)
      (clk t).i hready
    have hrelease : debugCmd (recordAt regs clk t) (clk t).i .step = false ∧
        debugCmd (recordAt regs clk t) (clk t).i .continue = false := by
      simpa [debugFetches] using stays
    rw [hrelease.1, hrelease.2, ← recordAt_succ] at hnext
    refine ⟨?_, ?_, ?_⟩
    · rw [requestAt_of_ready hready, stays, Bool.false_and, if_neg Bool.false_ne_true]
    · rw [recordAt_succ, process_pc, hslot, if_neg Bool.false_ne_true]
    · cases hins : debugCmd (recordAt regs clk t) (clk t).i .insert
      · left
        simpa [hins] using hnext
      · right
        rw [hins, if_pos rfl] at hnext
        refine ⟨hnext, ?_, t, hlater, Nat.lt_succ_self t, hins⟩
        rw [recordAt_succ] at hnext
        rw [recordAt_succ, process_stopPcInc, hnext, hins]
        rfl
  · -- an inserted instruction runs
    have hnext := process_debugState_of_awaitIf (clk t).ctrl (clk t).dec (logicAt regs clk t)
      (clk t).i hawait
    refine ⟨requestAt_of_awaitIf hawait, ?_, ?_⟩
    · rw [recordAt_succ, process_pc]
      cases hslot : slotO (recordAt regs clk t) (clk t).i
      · rfl
      · rw [if_pos rfl, slotPc_of_stopPcInc _ _ _ _ hstop (keepsPc u hu hut hinsert hslot)]
    · cases hslot : slotO (recordAt regs clk t) (clk t).i && (clk t).dec.instr.issue
      · right
        rw [hslot, if_neg Bool.false_ne_true] at hnext
        refine ⟨by rw [recordAt_succ, hnext], ?_, u, hu, hut.trans (Nat.lt_succ_self t), hinsert⟩
        rw [recordAt_succ, process_stopPcInc, hnext, hstop, Bool.or_true]
        rfl
      · left
        rw [recordAt_succ, hnext, hslot, if_pos rfl]

/-! ### Sessions -/

/-- A session has held the CPU by the time it is released. -/
theorem Session.phase (session : Session regs clk b c) (moves : FetchMovesPc regs clk) :
    ∀ t, b < t → t ≤ c → Entering regs clk b t ∨ ∃ p, Paused regs clk b p t := by
  intro t later
  induction t, later using Nat.le_induction with
  | base => exact fun _ => .inl (entering_of_breakRan session.enters)
  | succ t later ih =>
    intro hc
    rcases ih (by omega) with hentering | ⟨p, hpaused⟩
    · rcases hentering.step later moves with h | h
      · exact .inl h
      · exact .inr ⟨t, h⟩
    · refine .inr ⟨p, hpaused.step (session.inside t later hc) fun u hu hut hins => ?_⟩
      exact session.keepsPc u t hu hut hc hins

theorem ready_of_debugFetches {this : DatapathReg} {i : DatapathI}
    (h : debugFetches this i = true) : this.debugState = .ready := by
  by_contra hne
  simp [debugFetches, debugCmd_eq_false _ _ _ hne] at h

theorem Session.transparent (session : Session regs clk b c) (moves : FetchMovesPc regs clk)
    (issue : (clk c).dec.instr.issue = true) : Transparent regs clk b c := by
  have hready := ready_of_debugFetches session.released
  rcases session.phase moves c session.later le_rfl with hentering | ⟨p, hpaused⟩
  · rw [hentering.state] at hready
    cases hready
  · obtain ⟨r, hheld, haddr⟩ := hpaused.held
    have hpc := hpaused.pc c hpaused.after le_rfl
    refine ⟨p, r, hpaused.before, hpaused.after, hheld, hpaused.first,
      ⟨c, toInstO (clk c).dec.instr (recordAt regs clk c).pc true, session.later,
        hpaused.quiet, ?_, ?_⟩, ?_⟩
    · rw [requestAt_of_ready hready, session.released, issue]
      rfl
    · rw [toInstO, issue, if_pos rfl, haddr, hpc]
    · intro t ht htc
      rcases Nat.le_succ_iff.mp htc with hle | rfl
      · exact hpaused.pc t ht hle
      · rw [recordAt_succ, process_pc, slotO_of_ready _ hready, if_neg Bool.false_ne_true, hpc]

/-- While the debug state is `READY` no slot occurs, and PC, SR, the registers
and `mDr` stay. -/
def ReadyHolds (regs : RegisterFile 5 21 32) (clk : ℕ → ClockI) : Prop :=
  ∀ t, (recordAt regs clk t).debugState = .ready →
    (recordAt regs clk (t + 1)).slot = false ∧
      (recordAt regs clk (t + 1)).pc = (recordAt regs clk t).pc ∧
      (recordAt regs clk (t + 1)).sr = (recordAt regs clk t).sr ∧
      (recordAt regs clk (t + 1)).mDr = (recordAt regs clk t).mDr ∧
      (run (reset regs) clk (t + 1)).regs = (run (reset regs) clk t).regs

theorem readyHolds (regs : RegisterFile 5 21 32) (clk : ℕ → ClockI) : ReadyHolds regs clk := by
  intro t hready
  obtain ⟨hslot, hpc, hsr, hmDr⟩ := process_of_ready _ (clk t).ctrl (clk t).dec
    (logicAt regs clk t) (clk t).i hready
  rw [← recordAt_succ] at hslot hpc hsr hmDr
  refine ⟨hslot, hpc, hsr, hmDr, ?_⟩
  have hstep : (run (reset regs) clk (t + 1)).regs =
      (run (reset regs) clk t).regs.step
        (wbPipe (recordAt regs clk t) (clk t).ctrl)
        (exPipe0 (recordAt regs clk t) (run (reset regs) clk t).regs (clk t).ctrl (clk t).i)
        (recordAt regs clk (t + 1)).slot := rfl
  rw [hstep, hslot]
  rfl

/-- In every run the CPU stands still while it is ready, and every session whose
release finds a line that asks for an instruction is transparent. -/
theorem session_transparent (regs : RegisterFile 5 21 32) (clk : ℕ → ClockI)
    (moves : FetchMovesPc regs clk) :
    ReadyHolds regs clk ∧
      ∀ b c, Session regs clk b c → (clk c).dec.instr.issue = true → Transparent regs clk b c :=
  ⟨readyHolds regs clk, fun _ _ session issue => session.transparent moves issue⟩

/-! ### A session with one inserted instruction -/

/-- The file with cleared memory blocks. -/
def clearedFile : RegisterFile 5 21 32 := RegisterFile.reset (fun _ => 0) fun _ => 0

/-- Whether the line of a clock asks for an instruction: not the one that runs
`BREAK`, and of the inserted instruction, which the decoder presents in the
clocks 4 and 5, only if it has no more than one line. -/
def insertedAsks (oneLine : Bool) : ℕ → Bool
  | 0 => false
  | 4 | 5 => oneLine
  | _ => true

/-- The debugger inserts an instruction in clock 2 and continues in clock 4. -/
def insertedCmd : ℕ → CpuDebugI
  | 2 => { en := true, cmd := .insert, ir := 0x6106, d := 0, dEn := false }
  | 4 => { en := true, cmd := .continue, ir := 0, d := 0, dEn := false }
  | _ => { en := false, cmd := .break, ir := 0, d := 0, dEn := false }

def insertedClock (oneLine : Bool) (t : ℕ) : ClockI where
  ctrl :=
    { reg := pipelineReset.reg, func := pipelineReset.func, sr := pipelineReset.sr 0,
      mem := pipelineReset.mem, buses := pipelineReset.buses, coproc := pipelineReset.coproc,
      wrZ := false, wrpr := false }
  dec :=
    { debug := t == 0, instr := { issue := insertedAsks oneLine t, addrSel := false },
      inc := insertedAsks oneLine t, sLatch := false }
  i :=
    { dbI := { d := 0, ack := false }, instI := { d := 9, ack := false },
      debugI := insertedCmd t, copD := 0, mach := 0, macl := 0 }

theorem fetchMovesPc_insertedClock (oneLine : Bool) :
    FetchMovesPc clearedFile (insertedClock oneLine) := by
  intro t _ issue
  exact ⟨issue, rfl⟩

theorem session_insertedClock (oneLine : Bool) : Session clearedFile (insertedClock oneLine) 0 4 where
  enters := rfl
  later := by decide
  inside := by
    intro t h0 h4
    cases oneLine <;> interval_cases t <;> decide +kernel
  released := by cases oneLine <;> decide +kernel
  keepsPc := fun _ _ _ _ _ _ _ => rfl

/-- With an instruction of one line the session is transparent. -/
theorem session_transparent_insertedClock :
    ReadyHolds clearedFile (insertedClock true) ∧
      Transparent clearedFile (insertedClock true) 0 4 := by
  have h := session_transparent clearedFile (insertedClock true) (fetchMovesPc_insertedClock true)
  exact ⟨h.1, h.2 0 4 (session_insertedClock true) rfl⟩

/-- With an instruction of two lines the fetch from address 2 is held, and the
first fetch after the session is from address 4. -/
theorem session_twoLines_wrong :
    FetchMovesPc clearedFile (insertedClock false) ∧
      Session clearedFile (insertedClock false) 0 4 ∧
      ¬Transparent clearedFile (insertedClock false) 0 4 := by
  refine ⟨fetchMovesPc_insertedClock false, session_insertedClock false, ?_⟩
  have held : heldRequest clearedFile (insertedClock false) 1 =
      some { en := true, a := 1, jp := false } := by decide +kernel
  have quiet : ∀ t < 6, requestAt clearedFile (insertedClock false) t = none := by decide +kernel
  have fetched : requestAt clearedFile (insertedClock false) 6 =
      some { en := true, a := 2, jp := false } := by decide +kernel
  rintro ⟨p, r, hp, -, hr, hfirst, ⟨n, fetch, hn, hquiet, hfetch, haddr⟩, -⟩
  have hp1 : p = 1 := by
    by_contra hne
    have := hfirst 1 (by decide) (by omega)
    rw [held] at this
    cases this
  have hn6 : n = 6 := by
    rcases Nat.lt_trichotomy n 6 with hlt | heq | hgt
    · rw [quiet n hlt] at hfetch
      cases hfetch
    · exact heq
    · have := hquiet 6 (by decide) hgt
      rw [fetched] at this
      cases this
  subst hp1 hn6
  rw [held] at hr
  rw [fetched] at hfetch
  cases hr
  cases hfetch
  exact absurd haddr (by decide)

end JCore.Datapath
