import Mathlib.Data.BitVec
import Mathlib.Logic.Function.Basic

/-!
# The register file

The entity `register_file` with its architecture `two_bank`: two copies of the
registers with one write port each, and a copy of register 0. Both write ports
of the file share the port of the copies: a write of the execute stage waits
two slots in `exPipe1` and `exPipe2`, and until it is done a read takes it from
there.
-/

namespace JCore

/-- A pending write. -/
structure RegPipe (addrWidth regWidth : ℕ) where
  en : Bool
  data : BitVec regWidth
  addr : BitVec addrWidth
  deriving DecidableEq, Repr

def regPipeReset {addrWidth regWidth : ℕ} : RegPipe addrWidth regWidth :=
  { en := false, data := 0, addr := 0 }

/-- The registers of the architecture `two_bank`. -/
@[ext] structure RegisterFile (addrWidth numRegs regWidth : ℕ) where
  bankA : Fin numRegs → BitVec regWidth
  bankB : Fin numRegs → BitVec regWidth
  reg0 : BitVec regWidth
  exPipe1 : RegPipe addrWidth regWidth
  exPipe2 : RegPipe addrWidth regWidth
  wrDataO : BitVec regWidth

/-- The CPU has 21 registers. -/
instance neZero_numRegs : NeZero 21 := ⟨by decide⟩

/-- The read ports: two with an address, and the side port of register 0. -/
inductive ReadPort where
  | a | b | zero
  deriving DecidableEq, Repr

namespace RegisterFile

variable {addrWidth numRegs regWidth : ℕ} [NeZero numRegs]

/-- `to_reg_index`: a number out of range stands for register 0. -/
def toRegIndex (addr : BitVec addrWidth) : Fin numRegs :=
  if h : addr.toNat < numRegs then ⟨addr.toNat, h⟩ else 0

def pipeMatches (pipe : RegPipe addrWidth regWidth) (addr : BitVec addrWidth) : Bool :=
  pipe.en && pipe.addr == addr

/-- The most recent value of a register: the write of this slot, then the
pending writes, the later one first, then the bank. -/
def readWithForwarding (addr : BitVec addrWidth) (bankData : BitVec regWidth)
    (wbPipe exPipe1 exPipe2 : RegPipe addrWidth regWidth) : BitVec regWidth :=
  if pipeMatches wbPipe addr then wbPipe.data
  else if pipeMatches exPipe1 addr then exPipe1.data
  else if pipeMatches exPipe2 addr then exPipe2.data
  else bankData

variable (this : RegisterFile addrWidth numRegs regWidth)
  (wbPipe exPipe0 : RegPipe addrWidth regWidth)

/-- The copy of a register behind a read port. -/
def held (port : ReadPort) (addr : BitVec addrWidth) : BitVec regWidth :=
  match port with
  | .a => this.bankA (toRegIndex addr)
  | .b => this.bankB (toRegIndex addr)
  | .zero => this.reg0

/-- `dout_a`, `dout_b` and `dout_0`. -/
def dout (port : ReadPort) (addr : BitVec addrWidth) : BitVec regWidth :=
  readWithForwarding addr (this.held port addr) wbPipe this.exPipe1 this.exPipe2

/-- The write that reaches the banks in this slot. The pending write of the
execute stage comes before one on the W bus. -/
def bankWrite : RegPipe addrWidth regWidth :=
  { en := wbPipe.en || this.exPipe2.en
    data := if this.exPipe2.en then this.exPipe2.data else wbPipe.data
    addr := if this.exPipe2.en then this.exPipe2.addr else wbPipe.addr }

/-- One clock of the file. -/
def step (ce : Bool) : RegisterFile addrWidth numRegs regWidth :=
  if ce then
    let write := this.bankWrite wbPipe
    let addr := toRegIndex write.addr
    { bankA := if write.en then Function.update this.bankA addr write.data else this.bankA
      bankB := if write.en then Function.update this.bankB addr write.data else this.bankB
      reg0 := if write.en ∧ addr = 0 then write.data else this.reg0
      exPipe1 := exPipe0
      exPipe2 := this.exPipe1
      wrDataO := if write.en then write.data else 0 }
  else this

/-- The file after `rst`, with what the memory blocks happen to hold. -/
def reset (bankA bankB : Fin numRegs → BitVec regWidth) :
    RegisterFile addrWidth numRegs regWidth :=
  { bankA := bankA, bankB := bankB, reg0 := 0, exPipe1 := regPipeReset, exPipe2 := regPipeReset,
    wrDataO := 0 }

/-! ### What a clock does to the copies -/

/-- Within the range of the file the index tells two numbers apart. -/
theorem toRegIndex_inj {x y : BitVec addrWidth} (hx : x.toNat < numRegs) (hy : y.toNat < numRegs) :
    (toRegIndex x : Fin numRegs) = toRegIndex y ↔ x = y := by
  rw [toRegIndex, dif_pos hx, toRegIndex, dif_pos hy, Fin.mk.injEq, BitVec.toNat_inj]

theorem toRegIndex_zero : (toRegIndex (0 : BitVec addrWidth) : Fin numRegs) = 0 := by
  rw [toRegIndex, dif_pos (by simpa using Nat.pos_of_neZero numRegs)]
  rfl

/-- The side port has one address only. -/
def PortAddr (numRegs : ℕ) (port : ReadPort) (addr : BitVec addrWidth) : Prop :=
  addr.toNat < numRegs ∧ (port = .zero → addr = 0)

/-- A clock writes every copy of the addressed register and no other. -/
theorem held_step {port : ReadPort} {addr : BitVec addrWidth} (ok : PortAddr numRegs port addr)
    (range : (this.bankWrite wbPipe).en → (this.bankWrite wbPipe).addr.toNat < numRegs) :
    (this.step wbPipe exPipe0 true).held port addr =
      if pipeMatches (this.bankWrite wbPipe) addr then (this.bankWrite wbPipe).data
      else this.held port addr := by
  have hzero : (toRegIndex (0 : BitVec addrWidth) : Fin numRegs) = 0 := toRegIndex_zero
  rcases hen : (this.bankWrite wbPipe).en with _ | _
  · cases port <;> simp [step, held, pipeMatches, hen]
  · have inj : ((toRegIndex addr : Fin numRegs) = toRegIndex (this.bankWrite wbPipe).addr) ↔
        (this.bankWrite wbPipe).addr = addr := by
      rw [toRegIndex_inj ok.1 (range hen), eq_comm]
    cases port with
    | a => simp [step, held, pipeMatches, hen, Function.update_apply, inj]
    | b => simp [step, held, pipeMatches, hen, Function.update_apply, inj]
    | zero =>
      rw [ok.2 rfl, hzero, eq_comm] at inj
      simp [step, held, pipeMatches, hen, ok.2 rfl, inj]

end RegisterFile

end JCore
