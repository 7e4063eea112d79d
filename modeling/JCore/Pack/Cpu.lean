import Mathlib.Data.BitVec

/-!
# The interface of the CPU

The records of `cpu2j0_pack` that the data path and the decoder read and drive:
the two buses, the debugger, the event source and the coprocessor.
-/

namespace JCore

/-- An instruction request. -/
structure CpuInstructionO where
  en : Bool
  a : BitVec 31
  jp : Bool
  deriving DecidableEq, Repr

def nullInstO : CpuInstructionO := { en := false, a := 0, jp := false }

/-- The answer of the instruction bus. -/
structure CpuInstructionI where
  d : BitVec 16
  ack : Bool
  deriving DecidableEq, Repr

/-- A data request. -/
structure CpuDataO where
  en : Bool
  a : BitVec 32
  rd : Bool
  wr : Bool
  we : BitVec 4
  d : BitVec 32
  deriving DecidableEq, Repr

def nullDataO : CpuDataO := { en := false, a := 0, rd := false, wr := false, we := 0, d := 0 }

/-- The answer of the data bus. -/
structure CpuDataI where
  d : BitVec 32
  ack : Bool
  deriving DecidableEq, Repr

structure CpuDebugO where
  ack : Bool
  d : BitVec 32
  rdy : Bool
  deriving DecidableEq, Repr

inductive CpuDebugCmd where
  | break | step | insert | continue
  deriving DecidableEq, Repr

/-- A command of the debugger, with an instruction and a value to insert. -/
structure CpuDebugI where
  en : Bool
  cmd : CpuDebugCmd
  ir : BitVec 16
  d : BitVec 32
  dEn : Bool
  deriving DecidableEq, Repr

inductive CpuEventCmd where
  | interrupt | error | break | resetCpu
  deriving DecidableEq, Repr

/-- A request of the event source. -/
structure CpuEventI where
  en : Bool
  cmd : CpuEventCmd
  vec : BitVec 8
  msk : Bool
  lvl : BitVec 4
  deriving DecidableEq, Repr

end JCore
