import JCore.Core.DataMemory
import JCore.Core.Front
import JCore.Core.Latency
import JCore.Mult.Unit

/-!
# The CPU in its surroundings

The CPU with its multiplier, an instruction memory, and a data memory. Both memories answer
a request in the clock in which it is made, as the memory of the simulation does.

## Main definitions

* `CpuRun.mult`, `CpuRun.Multiplies`: the multiplier beside the CPU
* `CpuRun.Answered`: requests are answered at some time
* `Closed`, `Closed.step`: the CPU with its multiplier and its memories
* `Closed.run`: its run from a reset

## Main results

* `Closed.undisturbed_run`, `Closed.backed_run`: what it is for the CPU
-/

namespace JCore

open Datapath

/-! ### The multiplier -/

namespace Cpu

variable (coproDecode : Bool) (this : Cpu) (i : CpuI)

/-- The signals for the multiplier. -/
def mac : MacCtrl := this.dec.pipeline.mac (line coproDecode this i).macSLatch

/-- What the multiplier is told. -/
def multI : MultI where
  wrM1 := (mac coproDecode this i).com1
  command := (mac coproDecode this i).com2
  s := this.data.this.macS
  wrMach := (mac coproDecode this i).wrmach
  wrMacl := (mac coproDecode this i).wrmacl
  in1 :=
    macin1 this.data.this this.data.regs (ctrl coproDecode this) i.datapathI
      (mac coproDecode this i).sel1
  in2 :=
    macin2 this.data.this this.data.regs (ctrl coproDecode this) i.datapathI
      (mac coproDecode this i).sel2

end Cpu

namespace CpuRun

variable (run : CpuRun)

def multI (t : ℕ) : MultI := Cpu.multI run.coproDecode (run.state t) (run.clk t)

/-- The multiplier before clock `t`. -/
def mult : ℕ → MultReg
  | 0 => multReset
  | t + 1 => Mult.step (mult t) (run.slot t) (run.multI t)

/-- The CPU hears from its multiplier. -/
structure Multiplies : Prop where
  busy : ∀ t, (run.clk t).macBusy = (Mult.code (run.mult t)).busy
  mach : ∀ t, (run.clk t).mach = (run.mult t).mach
  macl : ∀ t, (run.clk t).macl = (run.mult t).macl

/-- Every request is answered at some time. -/
structure Answered : Prop where
  data : ∀ t, (run.dataO t).en = true → ∃ u, t ≤ u ∧ (run.clk u).dbI.ack = true
  inst : ∀ t, (run.state t).data.this.instO.en = true → ∃ u, t ≤ u ∧ (run.clk u).instI.ack = true

end CpuRun

/-! ### Memories that answer at once -/

/-- The CPU with its multiplier and a data memory. -/
structure Closed where
  cpu : Cpu
  mult : MultReg
  mem : ByteMemory

namespace Closed

variable (memory : InstrMemory) (this : Closed)

/-- The answers in a clock. -/
def inputs : CpuI where
  dbI :=
    { d := busRead this.mem this.cpu.data.this.dataO.a, ack := this.cpu.data.this.dataO.en }
  instI := { d := memory this.cpu.data.this.instO.a, ack := this.cpu.data.this.instO.en }
  debugI := noDebug
  copD := 0
  eventI := ⟨false, .interrupt, 0, false, 0⟩
  macBusy := (Mult.code this.mult).busy
  mach := this.mult.mach
  macl := this.mult.macl

/-- One clock. -/
def step : Closed where
  cpu := Cpu.step false this.cpu (inputs memory this)
  mult :=
    Mult.step this.mult (Cpu.slot this.cpu (inputs memory this))
      (Cpu.multI false this.cpu (inputs memory this))
  mem :=
    if this.cpu.data.this.dataO.en && this.cpu.data.this.dataO.wr then
      busWrite this.mem this.cpu.data.this.dataO
    else this.mem

variable (bank : Fin 21 → BitVec 32) (bytes : ByteMemory)

def reset : Closed where
  cpu := Cpu.reset (RegisterFile.reset bank bank)
  mult := multReset
  mem := bytes

/-- The state before clock `t`. -/
def state (t : ℕ) : Closed := (step memory)^[t] (reset bank bytes)

def run : CpuRun where
  coproDecode := false
  regs := RegisterFile.reset bank bank
  clk t := inputs memory (state memory bank bytes t)

variable {memory bank bytes} {t : ℕ}

theorem state_succ (t : ℕ) :
    state memory bank bytes (t + 1) = step memory (state memory bank bytes t) :=
  Function.iterate_succ_apply' _ _ _

theorem state_run (t : ℕ) :
    (run memory bank bytes).state t = (state memory bank bytes t).cpu := by
  induction t with
  | zero => rfl
  | succ t ih =>
    rw [CpuRun.state_succ, ih, state_succ]
    rfl

theorem mult_run (t : ℕ) : (run memory bank bytes).mult t = (state memory bank bytes t).mult := by
  induction t with
  | zero => rfl
  | succ t ih =>
    rw [CpuRun.mult, CpuRun.slot, CpuRun.multI, state_run, ih, state_succ]
    rfl

theorem memory_run (t : ℕ) :
    (run memory bank bytes).memory bytes t = (state memory bank bytes t).mem := by
  induction t with
  | zero => rfl
  | succ t ih =>
    rw [CpuRun.memory, CpuRun.dataO, state_run, ih, state_succ]
    let o := (state memory bank bytes t).cpu.data.this.dataO
    show (if o.en && o.wr && o.en then _ else _) = if o.en && o.wr then _ else _
    rw [Bool.and_right_comm, Bool.and_self]

theorem undisturbed_run : (run memory bank bytes).Undisturbed memory where
  event := fun _ => rfl
  debug := fun _ => rfl
  answers t := by
    intro _ _
    rw [state_run]
    rfl

theorem backed_run : (run memory bank bytes).Backed bytes := by
  intro t _ _ _
  rw [memory_run, CpuRun.dataO, state_run]
  rfl

theorem answered_run : (run memory bank bytes).Answered where
  data t := by
    intro en
    rw [CpuRun.dataO, state_run] at en
    exact ⟨t, le_rfl, en⟩
  inst t := by
    intro en
    rw [state_run] at en
    exact ⟨t, le_rfl, en⟩

theorem multiplies_run : (run memory bank bytes).Multiplies where
  busy t := by
    rw [mult_run]
    rfl
  mach t := by
    rw [mult_run]
    rfl
  macl t := by
    rw [mult_run]
    rfl

/-! ### A sample -/

/-- A program at `0x100`: `MOV #6, R1`, `BSR 0x10A` with `MOV.L R1, @-R15` behind it, then
`STS PR, R3` where it returns, `NOP`, and at `0x10A` `MOV.L @R15, R2`, `ADD #1, R2`,
`TST R2, R2`, `BF/S 0x106` with `ADD #2, R2` behind it. -/
def sampleWords : List (BitVec 16) :=
  [0xE106, 0xB002, 0x2F16, 0x032A, 0x0009, 0x62F2, 0x7201, 0x2228, 0x8FF9, 0x7202]

def sampleProgram : InstrMemory := fun a => sampleWords.getD (a.toNat - 0x80) 0x0009

/-- The addresses of the program and of the stack. -/
def sampleBytes : ByteMemory := fun a => if a = 2 then 0x01 else if a = 6 then 0x08 else 0

def sampleRun : CpuRun := run sampleProgram (fun _ => 0) sampleBytes

end Closed

end JCore
