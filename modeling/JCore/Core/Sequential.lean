import JCore.Core.DataMemory
import JCore.Core.Startup

/-!
# Lines one after the other

The registers, SR and the memory in program order are the state of the sequential machine:
each line that is issued does to them what the line does on its own, and a stalled one
does nothing.

## Main definitions

* `CpuRun.machine`: the state of the sequential machine after the lines of the first slots

## Main results

* `CpuRun.Executes.machine_eq`: one line
* `CpuRun.machine_of_stalled`: a stalled one
-/

namespace JCore

open Datapath DecodeTable

namespace CpuRun

variable (run : CpuRun) (bytes : ByteMemory)

/-- What the lines of the first `n` slots leave. -/
noncomputable def machine (n : ℕ) : Machine where
  regs port := run.programRegs port n
  sr := run.programSr n
  mem := run.programMem bytes n

/-- The slots go on for three more. -/
def GoesOn (n : ℕ) : Prop := ∃ u, n + 3 < run.slots u

variable {run bytes} {p t n : ℕ}

theorem GoesOn.mono {m : ℕ} (h : run.GoesOn n) (le : m ≤ n) : run.GoesOn m := by
  obtain ⟨u, hu⟩ := h
  exact ⟨u, lt_of_le_of_lt (Nat.add_le_add_right le 3) hu⟩

/-- The line is the one for T in program order. -/
theorem lineAt_eq (slot : run.slot p = true) : run.lineAt p =
    Line.ofRom (microcodeLine (run.op p).addr) (run.programSr (run.slots p)).t := by
  have order := (Cpu.sr_program_order run.coproDecode run.clk decoderReset.core
    (Datapath.reset run.regs) p slot).2.1
  have issue : maIssue (microcodeLine (run.op p).addr) (run.tBcc p) =
      maIssue (microcodeLine (run.op p).addr) (run.programSr (run.slots p)).t :=
    congrArg (fun l : TableLine => l.exStall.maIssue) order
  rw [lineAt, Line.ofRom, Line.ofRom, issue]

/-- A line without a request of a load takes nothing from the W bus. -/
theorem request_of_load {line : BitVec 75} (seq : Sequential line)
    (load : wrregW line = true ∨ wrsrW line = true) (T : Bool) (code : BitVec 16) (v : Values) :
    (Line.ofRom line T).request code v =
      some (.load (Line.ofRom line T).size ((Line.ofRom line T).addr code v)) := by
  have issue : (Line.ofRom line T).maIssue = true := (seq.load load).1 T
  have read : (Line.ofRom line T).maWr = false := (seq.load load).2
  rw [Line.request, issue, if_pos rfl, read, if_neg Bool.false_ne_true]

/-- A line that executes does to the state what it does on its own. -/
theorem Executes.machine_eq {bankA bankB : Fin 21 → BitVec 32}
    (cleared : run.regs = RegisterFile.reset bankA bankB) (backed : run.Backed bytes)
    (h : run.Executes p t) (seq : Sequential (microcodeLine (run.op p).addr))
    (on : run.GoesOn (run.slots p)) : run.machine bytes (run.slots p + 1) =
      (Line.ofRom (microcodeLine (run.op p).addr) (run.machine bytes (run.slots p)).sr.t).exec
        (run.codeAt p) (run.state t).data.this.pc (run.machine bytes (run.slots p)) := by
  obtain ⟨z, hz⟩ := on
  obtain ⟨u, -, slot, later⟩ := exists_slot hz
  have line : run.lineAt p = Line.ofRom (microcodeLine (run.op p).addr)
    (run.machine bytes (run.slots p)).sr.t := lineAt_eq h.presented
  have mac := Line.withoutMac seq (run.machine bytes (run.slots p)).sr.t (run.codeAt p)
    (run.values p t) 0 0
  have loaded : ∀ size addr,
      (run.lineAt p).request (run.codeAt p) (run.values p t) = some (.load size addr) →
        (run.state u).data.this.mDr = loadAt (run.programMem bytes (run.slots p)) size addr :=
    fun _ _ request => h.loaded cleared backed seq request later
  have regs := h.programRegs_eq cleared seq
  have sr := h.programSr_eq cleared seq
  have mem : run.programMem bytes (run.slots p + 1) = _ := h.programMem_eq cleared seq
  have load := h.programRegs_eq_of_load
  rw [line] at loaded regs sr mem load
  obtain ⟨write, sr', request⟩ := mac
  rw [← write] at regs
  rw [← sr'] at sr
  rw [← request] at mem
  -- what a load brings
  have datum : wrregW (microcodeLine (run.op p).addr) = true ∨
      wrsrW (microcodeLine (run.op p).addr) = true → (run.state u).data.this.mDr =
        (Line.ofRom (microcodeLine (run.op p).addr) (run.machine bytes (run.slots p)).sr.t).datum
          (run.codeAt p) (run.state t).data.this.pc (run.machine bytes (run.slots p)) := by
    intro load
    have asks := request_of_load seq load (run.machine bytes (run.slots p)).sr.t (run.codeAt p)
      (run.values p t)
    have here : (Line.ofRom (microcodeLine (run.op p).addr)
          (run.machine bytes (run.slots p)).sr.t).request (run.codeAt p)
        ((run.machine bytes (run.slots p)).values (run.state t).data.this.pc) = _ := request.trans asks
    rw [loaded _ _ asks, Line.datum, here]
    rfl
  generalize hL : Line.ofRom (microcodeLine (run.op p).addr) (run.machine bytes (run.slots p)).sr.t = L
    at *
  have w : L.wrregW = wrregW (microcodeLine (run.op p).addr) := by rw [← hL]; rfl
  have ws : L.wrsrW = wrsrW (microcodeLine (run.op p).addr) := by rw [← hL]; rfl
  rw [← w] at regs load
  rw [← ws] at sr
  rw [← w, ← ws] at datum
  apply Machine.ext
  case regs =>
    funext port
    cases hw : L.wrregW with
    | true =>
      have wbus : (run.slotI (run.slots p + 3)).wbus = (run.state u).data.this.mDr := by
        rw [← later, slotI_slots slot]
        rfl
      have target : L.target (run.codeAt p) = some (L.regW (run.codeAt p)) := if_pos hw
      rw [Line.exec, target]
      refine (load hw port).trans ?_
      rw [wbus, datum (.inl hw)]
      rfl
    | false =>
      have target : L.target (run.codeAt p) = none := if_neg (Bool.eq_false_iff.mp hw)
      rw [Line.exec, target]
      exact regs hw port
  case sr =>
    cases hw : L.wrsrW with
    | true =>
      have wbus : (run.srInputs (run.slots p + 3)).v.wbus = (run.state u).data.this.mDr := by
        rw [← later, srInputs_eq slot]
        rfl
      rw [Line.exec, if_pos hw, ← datum (.inr hw), ← wbus]
      exact h.programSr_eq_of_load (ws.symm.trans hw)
    | false =>
      rw [Line.exec, hw, if_neg Bool.false_ne_true]
      exact sr hw
  case mem =>
    rw [Line.exec]
    exact mem

/-! ### Slots -/

/-- PC stays between two slots. -/
theorem pc_eq_of_slots (slot : run.slot t = true) : ∀ u, run.slots u = run.slots t + 1 →
    (run.state u).data.this.pc = (run.state (t + 1)).data.this.pc := by
  refine slots_induction ?_ ?_
  · intro x here before
    rw [← slotClock_slots here, before, slotClock_slots slot]
  · intro x wait _ same
    have here : slotO (run.state x).data.this (run.clk x).datapathI = false := wait
    rw [datapath_succ, process_pc, here, if_neg Bool.false_ne_true, same]

/-- A line that is issued. -/
theorem machine_of_issued {bankA bankB : Fin 21 → BitVec 32}
    (cleared : run.regs = RegisterFile.reset bankA bankB) (backed : run.Backed bytes)
    (debug : ∀ t, (run.clk t).debugI.en = false) (slot : run.slot t = true)
    (go : run.stalled t = false) (seq : Sequential (microcodeLine (run.op t).addr))
    (on : run.GoesOn (run.slots t)) : run.machine bytes (run.slots t + 1) =
      (Line.ofRom (microcodeLine (run.op t).addr) (run.machine bytes (run.slots t)).sr.t).exec
        (run.op t).code (run.state (t + 1)).data.this.pc (run.machine bytes (run.slots t)) := by
  obtain ⟨z, hz⟩ := on
  obtain ⟨u, -, here, next⟩ := exists_slot (Nat.lt_of_succ_lt (Nat.lt_of_succ_lt hz))
  have executes : run.Executes t u := ⟨slot, go, here, next, (unforced debug u).ybusOverride0⟩
  rw [executes.machine_eq cleared backed seq ⟨z, hz⟩, pc_eq_of_slots slot u next]
  rfl

/-- A line without a request leaves the memory alone. -/
theorem programMem_succ_of_quiet (slot : run.slot t = true)
    (quiet : run.stalled t = true ∨ maIssue (microcodeLine (run.op t).addr) (run.tBcc t) = false)
    (on : run.GoesOn (run.slots t)) :
    run.programMem bytes (run.slots t + 1) = run.programMem bytes (run.slots t) := by
  obtain ⟨z, hz⟩ := on
  obtain ⟨u, -, here, next⟩ := exists_slot (Nat.lt_of_succ_lt (Nat.lt_of_succ_lt hz))
  have none : (run.mem u).issue = false := by
    have stage := (ex1_eq next).2
    rw [issued_slots slot, line_slots slot] at stage
    rw [mem, Pipeline.mem, stage]
    rcases quiet with stall | idle
    · rw [stall]
      rfl
    · cases run.stalled t
      · exact idle
      · rfl
  have clock := slotClock_slots here
  rw [next] at clock
  rw [programMem, clock, none, Bool.false_and, if_neg Bool.false_ne_true]

/-- A line that is stalled. -/
theorem machine_of_stalled (slot : run.slot t = true) (stall : run.stalled t = true)
    (on : run.GoesOn (run.slots t)) :
    run.machine bytes (run.slots t + 1) = run.machine bytes (run.slots t) := by
  apply Machine.ext
  case regs =>
    funext port
    exact programRegs_succ_of_stalled slot stall port
  case sr => exact programSr_succ_of_stalled slot stall
  case mem => exact programMem_succ_of_quiet slot (.inl stall) on

/-- A line without an effect. -/
theorem machine_of_idle (slot : run.slot t = true) (line : idle (microcodeLine (run.op t).addr) = true)
    (on : run.GoesOn (run.slots t)) :
    run.machine bytes (run.slots t + 1) = run.machine bytes (run.slots t) := by
  simp only [idle, Bool.and_eq_true, Bool.not_eq_true', beq_iff_eq] at line
  obtain ⟨⟨⟨⟨⟨wz, ww⟩, ws⟩, sel⟩, requestT⟩, requestF⟩ := line
  apply Machine.ext
  case regs =>
    funext port
    refine programRegs_succ_of_free port ?_ ?_
    · rw [line_slots slot]
      exact wz
    · rw [line_slots slot]
      exact ww
  case sr => exact lineSr_of_free slot (SrPath.srFree_iff.mpr ⟨sel, ws⟩)
  case mem =>
    refine programMem_succ_of_quiet slot (.inr ?_) on
    cases run.tBcc t
    · exact requestF
    · exact requestT

end CpuRun

end JCore
