import JCore.Cache.Pack
import Mathlib.Logic.Function.Basic

/-!
# The CPU side of the instruction cache

The entity `icache_ccl`: hits, misses, and the fetches of a cache that is switched off. It
asks for a line with the address of the instruction, and finds the words that have arrived
in the valid bits of the bank that the line is filled through.

## Main definitions

* `IcacheCcl.nextState`: the state machine
* `IcacheCcl.y`, `IcacheCcl.ctom`, `IcacheCcl.ryCcl`: the outputs
* `IcacheCcl.step`: one clock
-/

namespace JCore

/-! ### Records -/

inductive IcacheState where
  | idle | miss1 | miss2 | miss3 | off1 | off2
  deriving DecidableEq, Repr

/-- A fetch of the CPU. -/
structure IcacheI where
  a : BitVec 28
  en : Bool
  deriving DecidableEq, Repr

structure IcacheO where
  d : BitVec 16
  ack : Bool
  deriving DecidableEq, Repr

structure IcacheRamO where
  d0 : BitVec 32
  tag : BitVec 15
  deriving DecidableEq, Repr

/-- What the CPU side wants of the RAMs; `ten` is always set. -/
structure IcacheRamcclI where
  a0 : BitVec 11
  en0 : Bool
  ta : BitVec 8
  twr : Bool
  tag : BitVec 15
  deriving DecidableEq, Repr

/-- The switches of the instruction cache. -/
structure IcccrI where
  icOnm : Bool
  icInv : Bool
  deriving DecidableEq, Repr

/-- From the CPU clock to the memory clock. -/
structure CtomIc where
  fillv : Bool
  filla : BitVec 29
  deriving DecidableEq, Repr

/-- From the memory clock to the CPU clock; the data have their switch at the top. -/
structure MtocIc where
  rfillv : Bool
  rfillvAdvance : Bool
  rfilld : BitVec 17
  v : BitVec 16
  cd : BitVec 32
  deriving DecidableEq, Repr

/-- The registers of the CPU side; `ffv` holds the valid bits. -/
@[ext] structure IcacheCclReg where
  state : IcacheState
  ma0 : BitVec 28
  aPrev : IcacheI
  aPrevV : Bool
  cHitstate : Bool
  prefInc : Bool
  aenDel1 : Bool
  dw : BitVec 32
  ryTwr : Bool
  ryEn0 : Bool
  ffv : BitVec 8 → Bool
  rfillv : Bool
  mvbank : Bool
  cd0 : BitVec 32
  cd1 : BitVec 32
  icOnm : Bool
  icInv : Bool

def icacheCclRegReset : IcacheCclReg :=
  { state := .idle, ma0 := 0, aPrev := { a := 0, en := false }, aPrevV := false, cHitstate := false
    prefInc := false, aenDel1 := false, dw := 0, ryTwr := false, ryEn0 := false
    ffv := fun _ => false, rfillv := false, mvbank := false, cd0 := 0, cd1 := 0, icOnm := false
    icInv := false }

/-- The inputs of the CPU side in one clock. -/
structure IcacheCclI where
  ra : IcacheRamO
  a : IcacheI
  mtoc : MtocIc
  icccra : IcccrI
  deriving DecidableEq, Repr

/-- The half of a word that an address picks, `to_cache_idata`. -/
def toCacheIdata {w : ℕ} (a : BitVec w) (d : BitVec 32) : BitVec 16 :=
  if a.getLsbD 1 then d.extractLsb 15 0 else d.extractLsb 31 16

namespace IcacheCcl

variable (this : IcacheCclReg) (i : IcacheCclI)

/-- The half word within the line, bits 4 to 1. -/
def halfWord (a : BitVec 28) : BitVec 4 := a.extractLsb 4 1

/-! ### Address sequence -/

def adrsEqucacheli : Bool := toCacheLine this.aPrev.a == toCacheLine i.a.a && this.aPrevV

/-- The fetch follows that of the same half word or of the one before. -/
def adrsSeqequ : Bool :=
  if this.prefInc && i.a.a.getLsbD 1 then false
  else
    adrsEqucacheli this i &&
      ((halfWord this.aPrev.a + 1 == halfWord i.a.a && halfWord i.a.a != 0) ||
        halfWord this.aPrev.a == halfWord i.a.a)

/-- The valid bit of the word in the bank that is being filled. -/
def wvsel : Bool :=
  if this.mvbank then i.mtoc.v.getLsbD (toCacheWord i.a.a).toNat
  else i.mtoc.v.getLsbD ((toCacheWord i.a.a).toNat + 8)

/-- The half word that was missed, or the next one, has arrived. -/
def filllineHit : Bool :=
  toCacheLine i.a.a == toCacheLine this.ma0 &&
    (halfWord i.a.a == halfWord this.ma0 || halfWord i.a.a == halfWord this.ma0 + 1) && wvsel this i

/-! ### Acknowledgement -/

def yAckBeforetI : Bool :=
  i.a.en &&
    match this.state with
    | .miss2 => filllineHit this i
    | .miss3 => adrsSeqequ this i && filllineHit this i
    | _ => false

def yAckBeforetD : Bool := i.a.en && this.state == .idle && adrsSeqequ this i

/-- The answer from the memory side. -/
def yAckOff : Bool := !i.mtoc.rfillv && this.rfillv

/-- The RAM reads one word ahead of the upper half of an acknowledged fetch. -/
def a0 : BitVec 11 :=
  toCacheIndex i.a.a ++
    (if (yAckBeforetI this i || yAckBeforetD this i) && i.a.a.getLsbD 1 then
      toCacheWord i.a.a + 1
    else toCacheWord i.a.a)

def prefInc : Bool :=
  if !this.icOnm || this.state == .miss3 then false
  else if !i.a.en then this.prefInc
  else (yAckBeforetI this i || yAckBeforetD this i) && i.a.a.getLsbD 1

def ryEn0 : Bool :=
  this.icOnm &&
    match this.state with
    | .miss1 => false
    | .miss2 => !filllineHit this i && yAckOff this i
    | .miss3 => yAckOff this i
    | _ => !((yAckBeforetI this i || yAckBeforetD this i) && !i.a.a.getLsbD 1)

/-- The tag belongs to the address of the previous clock. -/
def cachehit : Bool :=
  ((this.aenDel1 && i.ra.tag == toCacheTag this.aPrev.a) || (!this.aenDel1 && this.cHitstate)) &&
    this.ffv (toCacheIndex i.a.a)

/-! ### The state machine -/

def nextStateOn : IcacheState :=
  match this.state with
  | .idle => if i.a.en && adrsEqucacheli this i && !cachehit this i then .miss1 else .idle
  | .miss1 => .miss2
  | .miss2 =>
    if filllineHit this i then .miss3 else if yAckOff this i then .idle else .miss2
  | .off1 => .idle
  | .off2 => .idle
  | .miss3 => if yAckOff this i then .idle else .miss3

def nextStateOff : IcacheState :=
  match this.state with
  | .idle => if i.a.en then .off1 else .idle
  | .off1 => .off2
  | .off2 => if yAckOff this i then .idle else .off2
  | _ => .idle

def nextState : IcacheState := if this.icOnm then nextStateOn this i else nextStateOff this i

def cHitstate : Bool :=
  if !this.icOnm || this.icInv then false
  else if i.a.en then cachehit this i
  else this.cHitstate

/-- The cache is switched only when the state machine is idle. -/
def icOnm : Bool :=
  if i.icccra.icOnm != this.icOnm && nextState this i == .idle then i.icccra.icOnm else this.icOnm

/-- The request goes out with the transition into the state. -/
def fillv : Bool := nextState this i == .miss1 || nextState this i == .off1

/-- The request: the switch, the address and the bank. -/
def filla : BitVec 29 :=
  if fillv this i then
    BitVec.ofBool this.icOnm ++ i.a.a.extractLsb 27 1 ++ BitVec.ofBool this.mvbank
  else 0

def ctom : CtomIc := { fillv := fillv this i, filla := filla this i }

def ryTwr : Bool := this.state == .miss1

/-! ### The registers of the next clock -/

def aPrevV : Bool :=
  if !this.icOnm || this.state == .miss3 then false
  else if i.a.en then true
  else this.aPrevV

def ffv : BitVec 8 → Bool :=
  if !this.icOnm || this.icInv then fun _ => false
  else if this.state = .miss1 then Function.update this.ffv (toCacheIndex this.ma0) true
  else this.ffv

/-- One clock. -/
def step : IcacheCclReg where
  state := nextState this i
  ma0 := if nextState this i = .miss1 then i.a.a else this.ma0
  aPrev := if i.a.en then i.a else this.aPrev
  aPrevV := aPrevV this i
  cHitstate := cHitstate this i
  prefInc := prefInc this i
  aenDel1 := i.a.en
  dw := if this.aenDel1 && this.ryEn0 then i.ra.d0 else this.dw
  ryTwr := ryTwr this
  ryEn0 := ryEn0 this i
  ffv := ffv this
  rfillv := i.mtoc.rfillv
  -- the next line is filled through the other bank
  mvbank := if fillv this i then !this.mvbank else this.mvbank
  cd0 := i.mtoc.cd
  cd1 := this.cd0
  icOnm := icOnm this i
  icInv := i.icccra.icInv

/-! ### Outputs -/

/-- The answer to the CPU. -/
def y : IcacheO :=
  { d :=
      if this.icOnm then
        if this.state = .miss2 ∨ this.state = .miss3 then
          if halfWord i.a.a = halfWord this.ma0 then this.cd1.extractLsb 31 16
          else this.cd1.extractLsb 15 0
        else if this.aenDel1 && this.ryEn0 then toCacheIdata i.a.a i.ra.d0
        else toCacheIdata i.a.a this.dw
      else i.mtoc.rfilld.extractLsb 15 0
    ack :=
      if this.icOnm then yAckBeforetI this i || (yAckBeforetD this i && cachehit this i)
      else yAckOff this i }

def ryCcl : IcacheRamcclI :=
  { a0 := a0 this i, en0 := ryEn0 this i, ta := toCacheIndex i.a.a, twr := ryTwr this
    tag := toCacheTag this.ma0 }

/-! ### Transitions -/

section Transitions

variable {this i}

/-- A request goes out when nothing is under way. -/
theorem idle_of_fillv (h : fillv this i = true) : this.state = .idle := by
  grind [fillv, nextState, nextStateOn, nextStateOff]

theorem nextState_ne_idle (h : fillv this i = true) : nextState this i ≠ .idle := by
  grind [fillv]

/-- The states of a cache that is switched off, and of one that is on. -/
def Switched (this : IcacheCclReg) : Prop :=
  if this.icOnm then this.state ≠ .off1 ∧ this.state ≠ .off2
  else this.state = .idle ∨ this.state = .off1 ∨ this.state = .off2

/-- What is under way ends with its completion. -/
theorem nextState_eq_idle (switched : Switched this) (h : nextState this i = .idle) :
    this.state = .idle ∨ yAckOff this i = true := by
  grind [Switched, nextState, nextStateOn, nextStateOff]

theorem switched_step (switched : Switched this) : Switched (step this i) := by
  simp only [Switched, step]
  grind [Switched, nextState, nextStateOn, nextStateOff, icOnm]

end Transitions

end IcacheCcl

end JCore
