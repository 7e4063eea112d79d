import JCore.Cache.Arrivals
import JCore.Cache.IcacheRam

/-!
# The instruction cache with its RAMs

The entity `icache_adapter`: the cache and the RAMs put together. The RAMs put out what
they read at the last edge of the CPU clock.

## Main definitions

* `IcacheAdapter.step`: one instant
* `IcacheAdapterRun`: a run at any interleaving of the clocks
* `IcacheAdapterRun.icache`: the run of the cache in it

## Main results

* `IcacheAdapterRun.dataCell_succ`, `IcacheAdapterRun.tagCell_succ`: the RAMs in a run
* `IcacheAdapterRun.d0_succ`, `IcacheAdapterRun.tag_succ`: what they put out
-/

namespace JCore

/-- An instant: which clocks have an edge, and the inputs from the CPU and the memory. -/
structure IcacheAdapterI where
  clk125 : Bool
  clk200 : Bool
  a : IcacheI
  icccra : IcccrI
  ma : MemI
  deriving DecidableEq, Repr

structure IcacheAdapter (tagRam : TagRam1rw) (dataRam : DataRam2rw) where
  icache : IcacheReg
  ram : IcacheRam tagRam dataRam

namespace IcacheAdapter

variable {tagRam : TagRam1rw} {dataRam : DataRam2rw} (this : IcacheAdapter tagRam dataRam)
  (i : IcacheAdapterI)

/-- The inputs of the cache. -/
def clkI : IcacheClkI :=
  { clk125 := i.clk125, clk200 := i.clk200, ra := this.ram.out, a := i.a, icccra := i.icccra
    ma := i.ma }

def ryCcl : IcacheRamcclI :=
  IcacheCcl.ryCcl this.icache.ccl (Icache.cclI this.icache (clkI this i))

def ryMcl : IcacheRammclI :=
  IcacheMcl.ryMcl this.icache.mcl (Icache.mclI this.icache (clkI this i))

/-- One instant. -/
def step : IcacheAdapter tagRam dataRam where
  icache := Icache.step this.icache (clkI this i)
  ram := this.ram.step
    (if Icache.rises125 this.icache (clkI this i) then some (ryCcl this i) else none)
    (if Icache.rises200 this.icache (clkI this i) then some (ryMcl this i) else none)

end IcacheAdapter

/-- A run of the cache from reset, with what its RAMs happen to hold. -/
structure IcacheAdapterRun (tagRam : TagRam1rw) (dataRam : DataRam2rw) where
  clk125 : Bool
  clk200 : Bool
  ram : IcacheRam tagRam dataRam
  clk : ℕ → IcacheAdapterI

namespace IcacheAdapterRun

variable {tagRam : TagRam1rw} {dataRam : DataRam2rw} (run : IcacheAdapterRun tagRam dataRam)

def state : ℕ → IcacheAdapter tagRam dataRam :=
  trace IcacheAdapter.step
    { icache := Icache.regReset run.clk125 run.clk200, ram := run.ram } run.clk

/-- The run of the cache. -/
def icache : IcacheRun where
  clk125 := run.clk125
  clk200 := run.clk200
  clk t := IcacheAdapter.clkI (run.state t) (run.clk t)

/-- What the RAMs hold. -/
def tagCell (t : ℕ) : BitVec 8 → BitVec 15 := (run.state t).ram.tagCell

def dataCell (t : ℕ) : BitVec 11 → BitVec 32 := (run.state t).ram.dataCell

/-- What the RAMs put out. -/
def out (t : ℕ) : IcacheRamO := (run.state t).ram.out

variable {run} {t : ℕ}

theorem state_icache (t : ℕ) : run.icache.state t = (run.state t).icache := by
  induction t with
  | zero => rfl
  | succ t ih =>
    rw [IcacheRun.state_succ, ih]
    rfl

theorem ram_succ (t : ℕ) : (run.state (t + 1)).ram = (run.state t).ram.step
    (if run.icache.rises125 t then
      some (IcacheCcl.ryCcl (run.icache.ccl t) (run.icache.cclI t)) else none)
    (if run.icache.rises200 t then
      some (IcacheMcl.ryMcl (run.icache.mcl t) (run.icache.mclI t)) else none) := by
  rw [IcacheRun.rises125, IcacheRun.rises200, IcacheRun.ccl, IcacheRun.cclI, IcacheRun.mcl,
    IcacheRun.mclI, state_icache]
  rfl

/-! ### The cells -/

/-- The memory side writes a word. -/
def writes (run : IcacheAdapterRun tagRam dataRam) (t : ℕ) : Bool :=
  run.icache.rises200 t && ((run.icache.mcl t).men && (run.clk t).ma.ackR)

section Data

variable (lawful : dataRam.Lawful)

include lawful

theorem dataCell_succ (t : ℕ) : run.dataCell (t + 1) =
    if run.writes t then
      Function.update (run.dataCell t) ((run.icache.mcl t).ma0.extractLsb 12 2) (run.clk t).ma.d
    else run.dataCell t := by
  rw [dataCell, ram_succ, writes]
  cases rises : run.icache.rises200 t with
  | false => exact IcacheRam.dataCell_keep lawful (by simp)
  | true =>
    rw [if_pos rfl, Bool.true_and]
    cases on : (run.icache.mcl t).men && (run.clk t).ma.ackR with
    | false =>
      refine IcacheRam.dataCell_keep lawful fun ry hry => ?_
      cases hry
      exact on
    | true => exact IcacheRam.dataCell_write lawful on on

theorem d0_succ (rises : run.icache.rises125 t = true)
    (en : IcacheCcl.ryEn0 (run.icache.ccl t) (run.icache.cclI t) = true)
    (rests : (run.icache.mcl t).men = false) :
    (run.out (t + 1)).d0 = run.dataCell t (IcacheCcl.a0 (run.icache.ccl t) (run.icache.cclI t)) := by
  rw [out, ram_succ, rises, if_pos rfl]
  refine IcacheRam.d0_read lawful en fun rm hrm writes => ?_
  split_ifs at hrm
  · cases hrm
    have on : ((run.icache.mcl t).men && _) = true := writes
    rw [rests] at on
    cases on
  · cases hrm

theorem d0_keep (rises : run.icache.rises125 t = false) :
    (run.out (t + 1)).d0 = (run.out t).d0 := by
  rw [out, ram_succ, rises, if_neg Bool.false_ne_true]
  exact IcacheRam.d0_hold lawful

end Data

theorem tag_keep (rises : run.icache.rises125 t = false) :
    (run.out (t + 1)).tag = (run.out t).tag := by
  rw [out, ram_succ, rises]
  rfl

section Tags

variable (lawful : tagRam.Lawful)

include lawful

theorem tagCell_succ (t : ℕ) : run.tagCell (t + 1) =
    if run.icache.rises125 t && (run.icache.ccl t).state == .miss1 then
      Function.update (run.tagCell t) (toCacheIndex (run.clk t).a.a)
        (toCacheTag (run.icache.ccl t).ma0)
    else run.tagCell t := by
  rw [tagCell, ram_succ]
  cases rises : run.icache.rises125 t with
  | false => rfl
  | true =>
    rw [if_pos rfl, Bool.true_and]
    cases miss : (run.icache.ccl t).state == .miss1 with
    | false => exact IcacheRam.tagCell_keep lawful miss
    | true => exact IcacheRam.tagCell_write lawful miss

theorem tag_succ (rises : run.icache.rises125 t = true)
    (miss : (run.icache.ccl t).state ≠ .miss1) :
    (run.out (t + 1)).tag = run.tagCell t (toCacheIndex (run.clk t).a.a) := by
  rw [out, ram_succ, rises, if_pos rfl]
  exact IcacheRam.tag_read lawful (beq_eq_false_iff_ne.mpr miss)

end Tags

end IcacheAdapterRun

end JCore
