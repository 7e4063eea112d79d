import JCore.Cache.IcacheMcl
import JCore.Lib.Handshake

/-!
# The requests of the instruction cache

The entity `icache`: its two controllers and the registers between their clocks, with the
handshake that carries the requests for lines. The valid bits of the words cross through
two registers without a handshake, the words themselves through none.

## Main definitions

* `IcacheReg`, `Icache.step`: the registers, and one instant with edges of either clock
* `IcacheRun`: a run at any interleaving of the clocks

## Main results

* `Icache.toLink_step`: the registers between the clocks are those of the handshake
* `IcacheRun.requested_link` and its like: the events of the controllers are those of the
  handshake
-/

namespace JCore

/-- The registers of one clock, `cache_fsync_reg_t`. -/
structure CacheFsyncReg where
  enValue : Bool
  enMetastable : Bool
  enStable : Bool
  dValue : BitVec 29
  dMetastable : BitVec 29
  dStable : BitVec 29
  deriving DecidableEq, Repr

def cacheFsyncRegReset : CacheFsyncReg :=
  { enValue := false, enMetastable := false, enStable := false, dValue := 0, dMetastable := 0
    dStable := 0 }

/-- The registers of the instruction cache, with the levels of its clocks, the latch that
delays the level of the CPU side by half a clock and the registers of the valid bits. -/
structure IcacheReg where
  clk125 : Bool
  clk200 : Bool
  ccl : IcacheCclReg
  mcl : IcacheMclReg
  thisbc : CacheFsyncReg
  thisbm : CacheFsyncReg
  vMetastable : BitVec 16
  vStable : BitVec 16
  bcenValueHalfcb0 : Bool

/-- An instant: which clocks have an edge, and the inputs. -/
structure IcacheClkI where
  clk125 : Bool
  clk200 : Bool
  ra : IcacheRamO
  a : IcacheI
  icccra : IcccrI
  ma : MemI
  deriving DecidableEq, Repr

namespace Icache

/-- The registers after reset, at any levels of the clocks. -/
def regReset (clk125 clk200 : Bool) : IcacheReg :=
  { clk125 := clk125, clk200 := clk200, ccl := icacheCclRegReset, mcl := icacheMclRegReset
    thisbc := cacheFsyncRegReset, thisbm := cacheFsyncRegReset, vMetastable := 0, vStable := 0
    bcenValueHalfcb0 := false }

variable (this : IcacheReg) (i : IcacheClkI)

/-! ### Between the controllers -/

def mtoc1 : MtocIc := IcacheMcl.mtoc this.mcl

/-- What the CPU side sees of the memory side. -/
def mtoc2 : MtocIc :=
  { rfillv := this.thisbc.enStable, rfillvAdvance := false
    rfilld := 0#1 ++ this.thisbc.dStable.extractLsb 19 4, v := this.vStable
    cd := (mtoc1 this).cd }

/-- What the memory side sees of the CPU side. -/
def ctom2 : CtomIc := { fillv := this.thisbm.enStable, filla := this.thisbm.dStable }

def cclI : IcacheCclI := { ra := i.ra, a := i.a, mtoc := mtoc2 this, icccra := i.icccra }

def mclI : IcacheMclI := { ctom := ctom2 this, ma := i.ma }

def ctom1 : CtomIc := IcacheCcl.ctom this.ccl (cclI this i)

/-- The word that is fetched, packed for the way to the CPU side. -/
def dMcl : BitVec 29 :=
  (mtoc1 this).rfilld.extractLsb 16 16 ++ 0xff#8 ++ (mtoc1 this).rfilld.extractLsb 15 0 ++ 0xf#4

/-! ### Edges -/

def rises125 : Bool := i.clk125 && !this.clk125

def falls125 : Bool := i.clk125 && this.clk125

def rises200 : Bool := i.clk200 && !this.clk200

/-! ### The registers of the next clock -/

/-- The CPU clock. -/
def thisbc : CacheFsyncReg :=
  let r := this.thisbc
  let m := this.thisbm
  let ctom := ctom1 this i
  { enValue := if ctom.fillv then !m.enValue else r.enValue
    enMetastable := m.enValue ^^ this.bcenValueHalfcb0, enStable := r.enMetastable
    dValue := if ctom.fillv then ctom.filla else r.dValue
    dMetastable := m.dValue, dStable := r.dMetastable }

/-- The memory clock. -/
def thisbm : CacheFsyncReg :=
  let r := this.thisbm
  let mtoc := mtoc1 this
  { enValue := if mtoc.rfillv then this.bcenValueHalfcb0 else r.enValue
    enMetastable := r.enValue ^^ !this.bcenValueHalfcb0, enStable := r.enMetastable
    dValue := if mtoc.rfillvAdvance then dMcl this else r.dValue
    dMetastable := this.thisbc.dValue, dStable := r.dMetastable }

/-- One instant. -/
def step : IcacheReg where
  clk125 := this.clk125 ^^ i.clk125
  clk200 := this.clk200 ^^ i.clk200
  ccl := if rises125 this i then IcacheCcl.step this.ccl (cclI this i) else this.ccl
  mcl := if rises200 this i then IcacheMcl.step this.mcl (mclI this i) else this.mcl
  thisbc := if rises125 this i then thisbc this i else this.thisbc
  thisbm := if rises200 this i then thisbm this else this.thisbm
  vMetastable := if rises125 this i then (mtoc1 this).v else this.vMetastable
  vStable := if rises125 this i then this.vMetastable else this.vStable
  bcenValueHalfcb0 := if falls125 this i then this.thisbc.enValue else this.bcenValueHalfcb0

/-! ### The handshake -/

/-- The registers of the handshake, and those in which the controllers find its events. -/
def toLink : Link (BitVec 29) (BitVec 29) where
  high := this.clk125
  asked := this.thisbc.enValue
  answerMeta := this.thisbc.enMetastable
  answerStable := this.thisbc.enStable
  answerPrev := this.ccl.rfillv
  payload := this.thisbc.dValue
  dataMeta := this.thisbc.dMetastable
  dataStable := this.thisbc.dStable
  half := this.bcenValueHalfcb0
  answered := this.thisbm.enValue
  requestMeta := this.thisbm.enMetastable
  requestStable := this.thisbm.enStable
  requestPrev := this.mcl.fillvDel1
  payloadMeta := this.thisbm.dMetastable
  payloadStable := this.thisbm.dStable
  data := this.thisbm.dValue

/-- What the two controllers do at an instant. -/
def linkI : LinkI (BitVec 29) (BitVec 29) where
  client := i.clk125
  server := rises200 this i
  request := if (ctom1 this i).fillv then some (ctom1 this i).filla else none
  complete := (mtoc1 this).rfillv
  data := if (mtoc1 this).rfillvAdvance then some (dMcl this) else none

/-- The registers between the clocks are those of the handshake. -/
theorem toLink_step : toLink (step this i) = Link.step (toLink this) (linkI this i) := by
  have client : Link.rises (toLink this) (linkI this i) = rises125 this i := rfl
  have falls : Link.falls (toLink this) (linkI this i) = falls125 this i := rfl
  have server : (linkI this i).server = rises200 this i := rfl
  ext1
  all_goals simp only [step, Link.step, client, falls, server]
  all_goals cases rises125 this i <;> cases hm : rises200 this i
  all_goals simp [toLink, linkI, hm, thisbc, thisbm, IcacheCcl.step, IcacheMcl.step, cclI, mclI,
    mtoc2, ctom2]
  all_goals split_ifs <;> rfl

end Icache

/-! ### Runs -/

/-- A run of the instruction cache from reset. -/
structure IcacheRun where
  clk125 : Bool
  clk200 : Bool
  clk : ℕ → IcacheClkI

namespace IcacheRun

section Events

variable (run : IcacheRun) (t : ℕ)

def state : ℕ → IcacheReg :=
  trace Icache.step (Icache.regReset run.clk125 run.clk200) run.clk

def rises125 : Bool := Icache.rises125 (run.state t) (run.clk t)

def rises200 : Bool := Icache.rises200 (run.state t) (run.clk t)

/-- The handshake of the requests. -/
def link : LinkRun (BitVec 29) (BitVec 29) where
  high := run.clk125
  payload := 0
  data := 0
  clk t := Icache.linkI (run.state t) (run.clk t)

/-- The request that the CPU side sends. -/
def requested : Option (BitVec 29) :=
  let ctom := Icache.ctom1 (run.state t) (run.clk t)
  if run.rises125 t && ctom.fillv then some ctom.filla else none

/-- The request that the memory side finds. -/
def received : Option (BitVec 29) :=
  let i := Icache.mclI (run.state t) (run.clk t)
  if run.rises200 t && IcacheMcl.seen (run.state t).mcl i then some i.ctom.filla else none

/-- The lines that the memory side reads the request from. -/
def lines : BitVec 29 := (Icache.ctom2 (run.state t)).filla

/-- The word with which the memory side completes a request. -/
def completed : Option (BitVec 29) :=
  let mtoc := Icache.mtoc1 (run.state t)
  if run.rises200 t && mtoc.rfillv then
    some (if mtoc.rfillvAdvance then Icache.dMcl (run.state t) else (run.state t).thisbm.dValue)
  else none

/-- The word with which the CPU side finds a completion. -/
def heard : Option (BitVec 29) :=
  let i := Icache.cclI (run.state t) (run.clk t)
  if run.rises125 t && IcacheCcl.yAckOff (run.state t).ccl i then
    some (run.state t).thisbc.dStable
  else none

end Events

variable {run : IcacheRun} {t : ℕ}

theorem state_succ (t : ℕ) : run.state (t + 1) = Icache.step (run.state t) (run.clk t) := rfl

theorem state_link (t : ℕ) : run.link.state t = Icache.toLink (run.state t) := by
  induction t with
  | zero => rfl
  | succ t ih => rw [LinkRun.state_succ, ih, state_succ, Icache.toLink_step]; rfl

theorem rises_link (t : ℕ) : run.link.rises t = run.rises125 t := by
  rw [LinkRun.rises, state_link]
  rfl

theorem seen_link (t : ℕ) : Link.seen (run.link.state t) =
    IcacheMcl.seen (run.state t).mcl (Icache.mclI (run.state t) (run.clk t)) := by
  rw [state_link]
  rfl

theorem heard_link (t : ℕ) : Link.heard (run.link.state t) =
    IcacheCcl.yAckOff (run.state t).ccl (Icache.cclI (run.state t) (run.clk t)) := by
  rw [state_link]
  rfl

theorem thisbm_succ (t : ℕ) : (run.state (t + 1)).thisbm =
    if run.rises200 t then Icache.thisbm (run.state t) else (run.state t).thisbm := rfl

/-! ### The events of the controllers -/

theorem requested_link : run.link.requested = run.requested := by
  funext t
  rw [LinkRun.requested, rises_link, requested]
  cases run.rises125 t <;> rfl

theorem received_link : run.link.received = run.received := by
  funext t
  rw [LinkRun.received, seen_link, state_link]
  rfl

theorem lines_link : (fun t => (run.link.state t).payloadStable) = run.lines := by
  funext t
  rw [state_link]
  rfl

theorem completed_link : run.link.completed = run.completed := by
  funext t
  rw [LinkRun.completed, state_link, completed]
  change (if run.rises200 t && (Icache.mtoc1 (run.state t)).rfillv then _ else _) = _
  cases h : (Icache.mtoc1 (run.state t)).rfillvAdvance <;>
    simp [link, Icache.linkI, Icache.toLink, h]

theorem heard_link_eq : run.link.heard = run.heard := by
  funext t
  rw [LinkRun.heard, rises_link, heard_link, state_link]
  rfl

end IcacheRun

end JCore
