import JCore.Cache.Ccl
import JCore.Cache.Mcl
import JCore.Lib.Handshake

/-!
# The synchroniser of the data cache

The entity `dcache`: the two controllers and the registers between their clocks. Every
enable crosses as a level, sampled by two registers on the other side; part 0 carries the
requests and their completions, part 2 the critical word, parts 3-0 and 3-1 the stores
that the other cache is told of.

## Main definitions

* `DcacheReg`, `Dcache.step`: the registers, and one instant with edges of either clock
* `Dcache.toLink`: part 0 as a handshake

## Main results

* `Dcache.toLink_step`: the registers of part 0 are those of the handshake
-/

namespace JCore

/-- An enable on its way across the clocks, `fsync_enable_t`. -/
structure FsyncEnable where
  value : Bool
  metastable : Bool
  stable : Bool
  deriving DecidableEq, Repr

/-- The registers of the CPU clock. -/
structure DcacheFsyncCcReg where
  en0 : FsyncEnable
  d0v : BitVec 65
  d0sMetastable : BitVec 32
  d0sStable : BitVec 32
  en2 : FsyncEnable
  d2sMetastable : BitVec 32
  d2sStable : BitVec 32
  en30 : FsyncEnable
  en31 : FsyncEnable
  deriving DecidableEq, Repr

/-- The registers of the memory clock. -/
structure DcacheFsyncMcReg where
  en0 : FsyncEnable
  d0v : BitVec 32
  d0bMetastable : BitVec 65
  d0bStable : BitVec 65
  en2 : FsyncEnable
  d2v : BitVec 32
  en30 : FsyncEnable
  en31 : FsyncEnable
  deriving DecidableEq, Repr

def fsyncEnableReset : FsyncEnable := { value := false, metastable := false, stable := false }

def dcacheFsyncCcRegReset : DcacheFsyncCcReg :=
  { en0 := fsyncEnableReset, d0v := 0, d0sMetastable := 0, d0sStable := 0, en2 := fsyncEnableReset
    d2sMetastable := 0, d2sStable := 0, en30 := fsyncEnableReset, en31 := fsyncEnableReset }

def dcacheFsyncMcRegReset : DcacheFsyncMcReg :=
  { en0 := fsyncEnableReset, d0v := 0, d0bMetastable := 0, d0bStable := 0, en2 := fsyncEnableReset
    d2v := 0, en30 := fsyncEnableReset, en31 := fsyncEnableReset }

/-- The registers of the data cache, with the levels of its clocks and the two latches that
delay a level by half a clock. -/
structure DcacheReg where
  clk125 : Bool
  clk200 : Bool
  ccl : DcacheCclReg
  mcl : DcacheMclReg
  thisbc : DcacheFsyncCcReg
  thisbm : DcacheFsyncMcReg
  bcenValueHalfcb0 : Bool
  bmenValueHalfcb2 : Bool

/-- An instant: which clocks have an edge, and the inputs. What the RAMs put out is an input
here. -/
structure DcacheI where
  clk125 : Bool
  clk200 : Bool
  ra : DcacheRamO
  a : CpuDataO
  lock : Bool
  sa : DcacheSnoopIo
  ctrl : CacheCtrl
  ma : MemI
  deriving DecidableEq, Repr

namespace Dcache

/-- The registers after reset, at any levels of the clocks. -/
def regReset (clk125 clk200 : Bool) : DcacheReg :=
  { clk125 := clk125, clk200 := clk200, ccl := dcacheCclRegReset, mcl := dcacheMclRegReset
    thisbc := dcacheFsyncCcRegReset, thisbm := dcacheFsyncMcRegReset, bcenValueHalfcb0 := false
    bmenValueHalfcb2 := false }

variable (this : DcacheReg) (i : DcacheI)

/-! ### Between the controllers -/

/-- What the CPU side sees of the memory side. -/
def mtoc2 : MtocDc :=
  { b0enr := this.thisbc.en0.stable, b0enrMcdata := false, b0dUnc := this.thisbc.d0sStable
    b2enr := this.thisbc.en2.stable, b2dCfil := this.thisbc.d2sStable
    b30enr := this.thisbc.en30.stable, b31enr := this.thisbc.en31.stable }

/-- What the memory side sees of the CPU side. -/
def ctom2 : CtomDc :=
  { b0en := this.thisbm.en0.stable, b0d := this.thisbm.d0bStable, b2en := this.thisbm.en2.stable
    b30en := this.thisbm.en30.stable, b31en := this.thisbm.en31.stable }

def cclI : DcacheCclI :=
  { ra := i.ra, a := i.a, aLock := i.lock, sa := i.sa, mtoc := mtoc2 this, ctrl := i.ctrl }

def mclI : DcacheMclI := { ctom := ctom2 this, ma := i.ma }

def ctom1 : CtomDc := DcacheCcl.ctom this.ccl (cclI this i)

def mtoc1 : MtocDc := DcacheMcl.mtoc this.mcl (mclI this i)

/-! ### Edges -/

def rises125 : Bool := i.clk125 && !this.clk125

def falls125 : Bool := i.clk125 && this.clk125

def rises200 : Bool := i.clk200 && !this.clk200

def falls200 : Bool := i.clk200 && this.clk200

/-! ### The registers of the next clock -/

/-- The CPU clock. A level is set against the one that comes back. -/
def thisbc : DcacheFsyncCcReg :=
  let r := this.thisbc
  let m := this.thisbm
  let ctom := ctom1 this i
  { en0 :=
      { value := if ctom.b0en then !m.en0.value else r.en0.value
        metastable := m.en0.value ^^ this.bcenValueHalfcb0, stable := r.en0.metastable }
    d0v := if ctom.b0en then ctom.b0d else r.d0v
    d0sMetastable := m.d0v, d0sStable := r.d0sMetastable
    en2 :=
      { value := if ctom.b2en then !this.bmenValueHalfcb2 else r.en2.value
        metastable := this.bmenValueHalfcb2 ^^ r.en2.value, stable := r.en2.metastable }
    d2sMetastable := if this.bmenValueHalfcb2 ^^ r.en2.value then 0 else m.d2v
    d2sStable := r.d2sMetastable
    en30 :=
      { value := if ctom.b30en then !m.en30.value else r.en30.value
        metastable := m.en30.value ^^ r.en30.value, stable := r.en30.metastable }
    en31 :=
      { value := if ctom.b31en then !m.en31.value else r.en31.value
        metastable := m.en31.value ^^ r.en31.value, stable := r.en31.metastable } }

/-- The memory clock. A level is answered by making it equal. -/
def thisbm : DcacheFsyncMcReg :=
  let r := this.thisbm
  let c := this.thisbc
  let mtoc := mtoc1 this i
  { en0 :=
      { value := if mtoc.b0enr then this.bcenValueHalfcb0 else r.en0.value
        metastable := r.en0.value ^^ !this.bcenValueHalfcb0, stable := r.en0.metastable }
    d0v := if mtoc.b0enrMcdata then mtoc.b0dUnc else r.d0v
    d0bMetastable := c.d0v, d0bStable := r.d0bMetastable
    en2 :=
      { value := if mtoc.b2enr then c.en2.value else r.en2.value
        metastable := this.bmenValueHalfcb2 ^^ !c.en2.value, stable := r.en2.metastable }
    d2v := if mtoc.b2enr then mtoc.b2dCfil else r.d2v
    en30 :=
      { value := if mtoc.b30enr then c.en30.value else r.en30.value
        metastable := r.en30.value ^^ !c.en30.value, stable := r.en30.metastable }
    en31 :=
      { value := if mtoc.b31enr then c.en31.value else r.en31.value
        metastable := r.en31.value ^^ !c.en31.value, stable := r.en31.metastable } }

/-- One instant. A register takes what was there before it; a latch follows its level while
the clock is low, so it changes when the clock falls. -/
def step : DcacheReg where
  clk125 := this.clk125 ^^ i.clk125
  clk200 := this.clk200 ^^ i.clk200
  ccl := if rises125 this i then DcacheCcl.step this.ccl (cclI this i) else this.ccl
  mcl := if rises200 this i then DcacheMcl.step this.mcl (mclI this i) else this.mcl
  thisbc := if rises125 this i then thisbc this i else this.thisbc
  thisbm := if rises200 this i then thisbm this i else this.thisbm
  bcenValueHalfcb0 := if falls125 this i then this.thisbc.en0.value else this.bcenValueHalfcb0
  bmenValueHalfcb2 := if falls200 this i then this.thisbm.en2.value else this.bmenValueHalfcb2

/-! ### Part 0 as a handshake -/

/-- The registers of part 0, and those in which the controllers find its events. -/
def toLink : Link (BitVec 65) (BitVec 32) where
  high := this.clk125
  asked := this.thisbc.en0.value
  answerMeta := this.thisbc.en0.metastable
  answerStable := this.thisbc.en0.stable
  answerPrev := this.ccl.rfillv
  payload := this.thisbc.d0v
  dataMeta := this.thisbc.d0sMetastable
  dataStable := this.thisbc.d0sStable
  half := this.bcenValueHalfcb0
  answered := this.thisbm.en0.value
  requestMeta := this.thisbm.en0.metastable
  requestStable := this.thisbm.en0.stable
  requestPrev := this.mcl.fillvDel1
  payloadMeta := this.thisbm.d0bMetastable
  payloadStable := this.thisbm.d0bStable
  data := this.thisbm.d0v

/-- What the two controllers do at an instant. -/
def linkI : LinkI (BitVec 65) (BitVec 32) where
  client := i.clk125
  server := rises200 this i
  request := if (ctom1 this i).b0en then some (ctom1 this i).b0d else none
  complete := (mtoc1 this i).b0enr
  data := if (mtoc1 this i).b0enrMcdata then some (mtoc1 this i).b0dUnc else none

/-- The registers of part 0 are those of the handshake. -/
theorem toLink_step : toLink (step this i) = Link.step (toLink this) (linkI this i) := by
  have client : Link.rises (toLink this) (linkI this i) = rises125 this i := rfl
  have falls : Link.falls (toLink this) (linkI this i) = falls125 this i := rfl
  have server : (linkI this i).server = rises200 this i := rfl
  ext1
  all_goals simp only [step, Link.step, client, falls, server]
  all_goals cases rises125 this i <;> cases hm : rises200 this i
  all_goals simp [toLink, linkI, hm, thisbc, thisbm, DcacheCcl.step, DcacheMcl.step,
    cclI, mclI, mtoc2, ctom2]
  all_goals split_ifs <;> rfl

end Dcache

end JCore
