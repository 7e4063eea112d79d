import JCore.Core.RegisterFile
import JCore.Lib.Trace

/-!
# The two architectures of the register file

The architecture `flops` of the entity `register_file`: one array that is cleared by `rst`,
without a copy of register 0. It has the forwarding of `two_bank`, whose copies keep what
they hold when the file is reset.

## Main definitions

* `RegisterFlops`: the registers of the architecture `flops`
* `RegisterRun`: a run of both architectures on the same inputs
* `RegisterRun.Agree`: what the two have in common

## Main results

* `RegisterRun.agree`: they keep it
* `RegisterRun.architectures_equal`: their outputs are the same
-/

namespace JCore

/-- The registers of the architecture `flops`. -/
@[ext] structure RegisterFlops (addrWidth numRegs regWidth : ℕ) where
  bank : Fin numRegs → BitVec regWidth
  exPipe1 : RegPipe addrWidth regWidth
  exPipe2 : RegPipe addrWidth regWidth
  wrDataO : BitVec regWidth

namespace RegisterFlops

open RegisterFile (readWithForwarding toRegIndex)

variable {addrWidth numRegs regWidth : ℕ} [NeZero numRegs]

variable (this : RegisterFlops addrWidth numRegs regWidth)
  (wbPipe exPipe0 : RegPipe addrWidth regWidth)

/-- `dout_a` and `dout_b`. -/
def dout (addr : BitVec addrWidth) : BitVec regWidth :=
  readWithForwarding addr (this.bank (toRegIndex addr)) wbPipe this.exPipe1 this.exPipe2

/-- `dout_0`. -/
def dout0 : BitVec regWidth :=
  readWithForwarding 0 (this.bank 0) wbPipe this.exPipe1 this.exPipe2

/-- One clock of the file. -/
def step (ce : Bool) : RegisterFlops addrWidth numRegs regWidth :=
  if ce then
    let addr := if this.exPipe2.en then toRegIndex this.exPipe2.addr else toRegIndex wbPipe.addr
    let data := if this.exPipe2.en then this.exPipe2.data else wbPipe.data
    let en := wbPipe.en || this.exPipe2.en
    { bank := if en then Function.update this.bank addr data else this.bank
      exPipe1 := exPipe0
      exPipe2 := this.exPipe1
      wrDataO := if en then data else 0 }
  else this

/-- The file after `rst`. -/
def reset : RegisterFlops addrWidth numRegs regWidth :=
  { bank := fun _ => 0, exPipe1 := regPipeReset, exPipe2 := regPipeReset, wrDataO := 0 }

end RegisterFlops

/-- The inputs of the file in one clock. -/
structure RegisterFileI (addrWidth regWidth : ℕ) where
  ce : Bool
  addrRa : BitVec addrWidth
  addrRb : BitVec addrWidth
  wb : RegPipe addrWidth regWidth
  ex : RegPipe addrWidth regWidth
  deriving DecidableEq, Repr

/-- A run of both architectures from reset, with what the memory blocks happen to hold. -/
structure RegisterRun (addrWidth numRegs regWidth : ℕ) where
  bankA : Fin numRegs → BitVec regWidth
  bankB : Fin numRegs → BitVec regWidth
  clk : ℕ → RegisterFileI addrWidth regWidth

namespace RegisterRun

open RegisterFile (pipeMatches toRegIndex readWithForwarding)

variable {addrWidth numRegs regWidth : ℕ} [NeZero numRegs]

section Definitions

variable (run : RegisterRun addrWidth numRegs regWidth) (t : ℕ)

/-- The states of the two architectures. -/
def flops : RegisterFlops addrWidth numRegs regWidth :=
  trace (fun this i => this.step i.wb i.ex i.ce) RegisterFlops.reset run.clk t

def twoBank : RegisterFile addrWidth numRegs regWidth :=
  trace (fun this i => this.step i.wb i.ex i.ce) (RegisterFile.reset run.bankA run.bankB) run.clk t

/-- The writes of the execute stage in the enabled clocks, the last one first. -/
def exWrites : ℕ → List (RegPipe addrWidth regWidth)
  | 0 => []
  | t + 1 => if (run.clk t).ce then (run.clk t).ex :: exWrites t else exWrites t

/-- No write on the W bus coincides with the write that the execute stage made two enabled
clocks before. -/
def NoClash : Prop :=
  ∀ t, (run.clk t).ce = true → (run.clk t).wb.en = true → ∀ p, (run.exWrites t)[1]? = some p →
    p.en = false

/-- A register is written in an enabled clock. -/
def Stored (addr : BitVec addrWidth) : Prop :=
  ∃ u < t, (run.clk u).ce = true ∧
    (pipeMatches (run.clk u).wb addr = true ∨ pipeMatches (run.clk u).ex addr = true)

/-- A register has been written, perhaps by the write on the W bus in this clock. -/
def Written (addr : BitVec addrWidth) : Prop :=
  run.Stored t addr ∨ pipeMatches (run.clk t).wb addr = true

/-- The banks hold a register alike. -/
def Alike (addr : BitVec addrWidth) : Prop :=
  (run.twoBank t).bankA (toRegIndex addr) = (run.flops t).bank (toRegIndex addr) ∧
    (run.twoBank t).bankB (toRegIndex addr) = (run.flops t).bank (toRegIndex addr)

/-- What the two architectures have in common: the writes under way, register 0, and every
register whose write is not under way any more. -/
structure Agree : Prop where
  exPipe1 : (run.twoBank t).exPipe1 = (run.flops t).exPipe1
  exPipe2 : (run.twoBank t).exPipe2 = (run.flops t).exPipe2
  wrDataO : (run.twoBank t).wrDataO = (run.flops t).wrDataO
  reg0 : (run.twoBank t).reg0 = (run.flops t).bank 0
  stored : run.NoClash → ∀ addr : BitVec addrWidth, addr.toNat < numRegs → run.Stored t addr →
    pipeMatches (run.flops t).exPipe1 addr = true ∨
      pipeMatches (run.flops t).exPipe2 addr = true ∨ run.Alike t addr

end Definitions

variable {run : RegisterRun addrWidth numRegs regWidth} {t : ℕ}

theorem flops_succ (t : ℕ) : run.flops (t + 1) =
    (run.flops t).step (run.clk t).wb (run.clk t).ex (run.clk t).ce := rfl

theorem twoBank_succ (t : ℕ) : run.twoBank (t + 1) =
    (run.twoBank t).step (run.clk t).wb (run.clk t).ex (run.clk t).ce := rfl

/-- The pending writes are those of the last two enabled clocks. -/
theorem exPipes_eq (t : ℕ) :
    (run.flops t).exPipe1 = (run.exWrites t)[0]?.getD regPipeReset ∧
      (run.flops t).exPipe2 = (run.exWrites t)[1]?.getD regPipeReset := by
  induction t with
  | zero => exact ⟨rfl, rfl⟩
  | succ t ih =>
    rw [flops_succ, RegisterFlops.step, exWrites]
    cases (run.clk t).ce with
    | false => exact ih
    | true => exact ⟨rfl, ih.1⟩

/-- Without a clash a write on the W bus reaches the banks. -/
theorem exPipe2_of_noClash (noClash : run.NoClash) (ce : (run.clk t).ce = true)
    (wb : (run.clk t).wb.en = true) : (run.flops t).exPipe2.en = false := by
  rw [(exPipes_eq t).2]
  cases h : (run.exWrites t)[1]? with
  | none => rfl
  | some p => exact noClash t ce wb p h

theorem agree_zero : run.Agree 0 where
  exPipe1 := rfl
  exPipe2 := rfl
  wrDataO := rfl
  reg0 := rfl
  stored _ _ _ h := by
    obtain ⟨u, hu, -⟩ := h
    exact absurd hu (Nat.not_lt_zero u)

/-- The write that reaches the banks of both architectures in a clock. -/
def bankWrite (run : RegisterRun addrWidth numRegs regWidth) (t : ℕ) : RegPipe addrWidth regWidth :=
  (run.twoBank t).bankWrite (run.clk t).wb

section Enabled

variable (agree : run.Agree t) (ce : (run.clk t).ce = true)

include ce

theorem twoBank_enabled : run.twoBank (t + 1) =
    { bankA := if (run.bankWrite t).en then
        Function.update (run.twoBank t).bankA (toRegIndex (run.bankWrite t).addr)
          (run.bankWrite t).data else (run.twoBank t).bankA
      bankB := if (run.bankWrite t).en then
        Function.update (run.twoBank t).bankB (toRegIndex (run.bankWrite t).addr)
          (run.bankWrite t).data else (run.twoBank t).bankB
      reg0 := if (run.bankWrite t).en ∧ (toRegIndex (run.bankWrite t).addr : Fin numRegs) = 0 then
        (run.bankWrite t).data else (run.twoBank t).reg0
      exPipe1 := (run.clk t).ex
      exPipe2 := (run.twoBank t).exPipe1
      wrDataO := if (run.bankWrite t).en then (run.bankWrite t).data else 0 } := by
  rw [twoBank_succ, RegisterFile.step, ce]
  rfl

include agree

theorem flops_enabled : run.flops (t + 1) =
    { bank := if (run.bankWrite t).en then
        Function.update (run.flops t).bank (toRegIndex (run.bankWrite t).addr)
          (run.bankWrite t).data else (run.flops t).bank
      exPipe1 := (run.clk t).ex
      exPipe2 := (run.flops t).exPipe1
      wrDataO := if (run.bankWrite t).en then (run.bankWrite t).data else 0 } := by
  rw [flops_succ, RegisterFlops.step, ce, bankWrite, RegisterFile.bankWrite, agree.exPipe2]
  cases (run.flops t).exPipe2.en <;> rfl

theorem alike_enabled {addr : BitVec addrWidth} (alike : run.Alike t addr) :
    run.Alike (t + 1) addr := by
  rw [Alike, twoBank_enabled ce, flops_enabled agree ce]
  cases (run.bankWrite t).en with
  | false => exact alike
  | true =>
    simp only [if_true, Function.update_apply]
    exact ⟨by rw [alike.1], by rw [alike.2]⟩

/-- A register is held alike once its write has reached the banks. -/
theorem alike_of_bankWrite {addr : BitVec addrWidth}
    (h : pipeMatches (run.bankWrite t) addr = true) : run.Alike (t + 1) addr := by
  rw [pipeMatches, Bool.and_eq_true, beq_iff_eq] at h
  rw [Alike, twoBank_enabled ce, flops_enabled agree ce, h.1, h.2]
  simp

theorem agree_enabled : run.Agree (t + 1) where
  exPipe1 := by rw [twoBank_enabled ce, flops_enabled agree ce]
  exPipe2 := by
    rw [twoBank_enabled ce, flops_enabled agree ce]
    exact agree.exPipe1
  wrDataO := by rw [twoBank_enabled ce, flops_enabled agree ce]
  reg0 := by
    rw [twoBank_enabled ce, flops_enabled agree ce]
    cases (run.bankWrite t).en with
    | false => exact agree.reg0
    | true =>
      simp only [true_and, if_true, Function.update_apply, agree.reg0, eq_comm]
  stored noClash addr range h := by
    obtain ⟨u, hu, enabled, write⟩ := h
    rcases Nat.lt_succ_iff_lt_or_eq.mp hu with earlier | rfl
    · rcases agree.stored noClash addr range ⟨u, earlier, enabled, write⟩ with h1 | h2 | alike
      · refine .inr (.inl ?_)
        rw [flops_enabled agree ce]
        exact h1
      · refine .inr (.inr (alike_of_bankWrite agree ce ?_))
        rw [bankWrite, RegisterFile.bankWrite, agree.exPipe2, pipeMatches]
        rw [pipeMatches, Bool.and_eq_true] at h2
        simpa [h2.1] using h2.2
      · exact .inr (.inr (alike_enabled agree ce alike))
    · rcases write with wb | ex
      · refine .inr (.inr (alike_of_bankWrite agree ce ?_))
        have free : (run.flops u).exPipe2.en = false :=
          exPipe2_of_noClash noClash ce (Bool.and_eq_true_iff.mp wb).1
        rw [bankWrite, RegisterFile.bankWrite, agree.exPipe2, free]
        simpa [pipeMatches] using wb
      · refine .inl ?_
        rw [flops_enabled agree ce]
        exact ex

end Enabled

theorem agree_succ (agree : run.Agree t) : run.Agree (t + 1) := by
  cases ce : (run.clk t).ce with
  | true => exact agree_enabled agree ce
  | false =>
    have flops : run.flops (t + 1) = run.flops t := by
      rw [flops_succ, RegisterFlops.step, ce]
      rfl
    have twoBank : run.twoBank (t + 1) = run.twoBank t := by
      rw [twoBank_succ, RegisterFile.step, ce]
      rfl
    obtain ⟨exPipe1, exPipe2, wrDataO, reg0, stored⟩ := agree
    constructor
    · rw [flops, twoBank, exPipe1]
    · rw [flops, twoBank, exPipe2]
    · rw [flops, twoBank, wrDataO]
    · rw [flops, twoBank, reg0]
    · intro noClash addr range h
      rw [Alike, flops, twoBank]
      refine stored noClash addr range ?_
      obtain ⟨u, hu, enabled, write⟩ := h
      rcases Nat.lt_succ_iff_lt_or_eq.mp hu with earlier | rfl
      · exact ⟨u, earlier, enabled, write⟩
      · rw [ce] at enabled
        cases enabled

/-- The two architectures agree throughout. -/
theorem agree (t : ℕ) : run.Agree t := by
  induction t with
  | zero => exact agree_zero
  | succ t ih => exact agree_succ ih

/-- A register that has been written reads the same at the ports with an address. -/
theorem dout_eq (noClash : run.NoClash) {addr : BitVec addrWidth} (range : addr.toNat < numRegs)
    (written : run.Written t addr) :
    (run.twoBank t).dout (run.clk t).wb .a addr = (run.flops t).dout (run.clk t).wb addr ∧
      (run.twoBank t).dout (run.clk t).wb .b addr = (run.flops t).dout (run.clk t).wb addr := by
  have agree := run.agree t
  simp only [RegisterFile.dout, RegisterFlops.dout, readWithForwarding, agree.exPipe1,
    agree.exPipe2, RegisterFile.held]
  rcases written with stored | wb
  · rcases agree.stored noClash addr range stored with h1 | h2 | alike
    · simp [h1]
    · simp [h2]
    · rw [alike.1, alike.2]
      exact ⟨rfl, rfl⟩
  · simp [wb]

/-- The architectures have the same outputs: for every register that has been written since
reset, for register 0 and for the data about to be written. -/
theorem architectures_equal (run : RegisterRun addrWidth numRegs regWidth) (noClash : run.NoClash)
    (t : ℕ) :
    ((run.clk t).addrRa.toNat < numRegs → run.Written t (run.clk t).addrRa →
      (run.twoBank t).dout (run.clk t).wb .a (run.clk t).addrRa =
        (run.flops t).dout (run.clk t).wb (run.clk t).addrRa) ∧
    ((run.clk t).addrRb.toNat < numRegs → run.Written t (run.clk t).addrRb →
      (run.twoBank t).dout (run.clk t).wb .b (run.clk t).addrRb =
        (run.flops t).dout (run.clk t).wb (run.clk t).addrRb) ∧
    (run.twoBank t).dout (run.clk t).wb .zero 0 = (run.flops t).dout0 (run.clk t).wb ∧
    (run.twoBank t).wrDataO = (run.flops t).wrDataO := by
  have agree := run.agree t
  refine ⟨fun range written => (dout_eq noClash range written).1,
    fun range written => (dout_eq noClash range written).2, ?_, agree.wrDataO⟩
  rw [RegisterFile.dout, RegisterFlops.dout0, agree.exPipe1, agree.exPipe2, RegisterFile.held,
    agree.reg0]

/-- A run that writes register 3 from the execute stage in every clock. -/
def writesThree : RegisterRun 5 21 32 where
  bankA _ := 1
  bankB _ := 2
  clk t :=
    { ce := true, addrRa := 3, addrRb := 3, wb := regPipeReset
      ex := { en := true, data := BitVec.ofNat 32 t, addr := 3 } }

theorem architectures_equal_writesThree : writesThree.NoClash ∧
    (writesThree.twoBank 4).dout regPipeReset .a 3 = (writesThree.flops 4).dout regPipeReset 3 := by
  have noClash : writesThree.NoClash := fun _ _ wb => absurd wb Bool.false_ne_true
  have written : writesThree.Written 4 3 := .inl ⟨0, by decide, rfl, .inr rfl⟩
  exact ⟨noClash, (architectures_equal writesThree noClash 4).1 (by decide) written⟩

end RegisterRun

end JCore
