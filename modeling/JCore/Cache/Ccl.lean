import JCore.Cache.Pack
import Mathlib.Logic.Function.Basic

/-!
# The CPU side of the data cache

The entity `dcache_ccl`. Every variable of its process is a function of the
registers and the inputs of a clock.

## Main definitions

* `DcacheCcl.nextState`: the state machine of misses, stores and locked accesses
* `DcacheCcl.y`, `DcacheCcl.sy`, `DcacheCcl.ctom`, `DcacheCcl.ryCcl`: the outputs
* `DcacheCcl.step`: one clock
-/

namespace JCore

/-- The inputs of the CPU side in one clock. -/
structure DcacheCclI where
  ra : DcacheRamO
  a : CpuDataO
  aLock : Bool
  sa : DcacheSnoopIo
  mtoc : MtocDc
  ctrl : CacheCtrl
  deriving DecidableEq, Repr

namespace DcacheCcl

variable (this : DcacheCclReg) (i : DcacheCclI)

/-! ### Tag RAM -/

/-- The tag write of a fill. -/
def ryTwr : Bool := this.state == .rmiss1 || this.state == .wmiss1

def ta0 : BitVec 8 := if this.state = .wmiss1 then toCacheIndex this.ma0 else toCacheIndex i.a.a

/-- The address on the side of the snoop; a fill writes both sides. -/
def ta1 : BitVec 8 := if ryTwr this then ta0 this i else lineIndex i.sa.al

/-! ### Answers from memory -/

/-- A completion of bank 1 comes first. -/
def obsWrcomplAck : Bool × Bool :=
  if this.b3enR.1 && !i.mtoc.b31enr then (true, false)
  else if this.b3enR.2 && !i.mtoc.b30enr then (false, true)
  else (false, false)

def sabankRcv : Bool :=
  if this.b3enR.1 && !i.mtoc.b31enr then true
  else if this.b3enR.2 && !i.mtoc.b30enr then false
  else this.sabankRcv

def memTransAck : Bool := !i.mtoc.b0enr && this.rfillv

/-- The critical word of a miss has arrived. -/
def fillAck : Bool := this.b2enR && !i.mtoc.b2enr

def yAckOff : Bool := this.state == .off2 && memTransAck this i

/-! ### Data RAM -/

def ryEn0 : Bool :=
  !(this.state == .rmiss2 || (this.state == .rmiss3 && !memTransAck this i) ||
    (this.state == .wmiss2 && !memTransAck this i))

/-- A store is written to the RAM in these states. -/
def wr0 : Bool :=
  i.a.en && i.a.wr && !i.aLock && (this.state == .idle || this.state == .sb1 || this.state == .sb2)

def we0 : BitVec 4 := if wr0 this i then i.a.we else 0

/-! ### Address sequence -/

/-- The access lies in the line of the previous one. -/
def adrsEqucacheli : Bool := toCacheLine this.aPrev.a == toCacheLine i.a.a && this.aPrevV

/-- A read that follows a read of the same word or of the word before. -/
def adrsRSeqequ : Bool :=
  adrsEqucacheli this i && !this.aPrev.wr &&
    ((toCacheWord this.aPrev.a + 1 == toCacheWord i.a.a && toCacheWord i.a.a != 0) ||
      (toCacheWord this.aPrev.a == toCacheWord i.a.a && !this.prefInc))

/-! ### Acknowledgement -/

def yAckBeforetI1 : Bool :=
  i.a.en &&
    match this.state with
    | .idle => !i.aLock && i.a.wr && adrsEqucacheli this i
    | .rmiss2 => fillAck this i
    | .sb2 =>
      !i.aLock && i.a.wr && memTransAck this i && adrsEqucacheli this i && i.ctrl.en == this.dcOnm
    | _ => false

def yAckBeforetI2 : Bool :=
  i.a.en && (this.state == .rlock2 || this.state == .wunca2) && memTransAck this i

def yAckBeforetD : Bool :=
  i.a.en && (this.state == .idle || this.state == .sb2) && !i.aLock && !i.a.wr &&
    adrsRSeqequ this i

/-- The RAM reads one word ahead of a read that is acknowledged. -/
def a0 : BitVec 11 :=
  toCacheIndex i.a.a ++
    (if (yAckBeforetI1 this i || yAckBeforetD this i) && !i.a.wr then toCacheWord i.a.a + 1
      else toCacheWord i.a.a)

def prefInc : Bool :=
  if !this.dcOnm || this.state == .rmiss2 || this.state == .rmiss3 || this.state == .wmiss2 then
    false
  else if !i.a.en then this.prefInc
  else (yAckBeforetI1 this i || yAckBeforetD this i) && !i.a.wr

/-! ### Hits -/

/-- The tag belongs to the address of the previous clock. -/
def cachehit : Bool :=
  ((this.aenDel1 && i.ra.tag0 == toCacheTag this.aPrev.a) ||
    (!this.aenDel1 && this.cHitstate)) &&
    this.ffv (toCacheIndex i.a.a)

/-- The tag read for a snoop belongs to its line. -/
def cachehitSnoop : Bool := lineTag this.saAl == i.ra.tag1 && this.saEnState && !this.ryTwr

/-! ### The state machine -/

def nextStateOn : DcacheState :=
  match this.state with
  | .idle =>
    if i.a.en then
      if !i.a.wr then
        if i.aLock && adrsEqucacheli this i then .rlock1
        else if !i.aLock && adrsEqucacheli this i && !cachehit this i then .rmiss1
        else .idle
      else if i.aLock && adrsEqucacheli this i then .wunca1
      else if !i.aLock && adrsEqucacheli this i then
        if !cachehit this i then .wmiss1 else .sb1
      else .idle
    else if !i.aLock && this.memlockState then .neglck
    else .idle
  | .sb1 => if memTransAck this i then .idle else .sb2
  | .sb2 =>
    if memTransAck this i then
      if i.ctrl.en != this.dcOnm then .idle
      else if i.a.en && i.a.wr && adrsEqucacheli this i then
        if !cachehit this i then .wmiss1 else .sb1
      else .idle
    else .sb2
  | .rmiss1 => .rmiss2
  | .rmiss2 =>
    if fillAck this i then .rmiss3
    else if memTransAck this i then .idle
    else .rmiss2
  | .wmiss1 => .wmiss2
  | .wmiss2 => if memTransAck this i then .idle else .wmiss2
  | .off1 => .idle
  | .off2 => .idle
  | .rlock1 => .rlock2
  | .rlock2 => if memTransAck this i then .idle else .rlock2
  | .wunca1 => .wunca2
  | .wunca2 => if memTransAck this i then .idle else .wunca2
  | .neglck => if memTransAck this i then .idle else .neglck
  | .rmiss3 => if memTransAck this i then .idle else .rmiss3

def nextStateOff : DcacheState :=
  match this.state with
  | .idle =>
    if i.a.en then .off1
    else if !i.aLock && this.memlockState then .neglck
    else .idle
  | .off1 => .off2
  | .off2 => if memTransAck this i then .idle else .off2
  | .neglck => if memTransAck this i then .idle else .neglck
  | _ => .idle

def nextState : DcacheState := if this.dcOnm then nextStateOn this i else nextStateOff this i

def cHitstate : Bool :=
  if !this.dcOnm || this.dcInv then false
  else if i.a.en then cachehit this i
  else this.cHitstate

def memlockState : Bool :=
  if this.state == .rlock1 || (this.state == .off1 && !i.a.wr && i.aLock) then true
  else if !i.aLock || (i.a.en && i.a.wr) then false
  else this.memlockState

/-- The cache is switched only when the state machine is idle. -/
def dcOnm : Bool :=
  if i.ctrl.en != this.dcOnm && nextState this i == .idle then i.ctrl.en else this.dcOnm

/-! ### Requests to the memory side -/

def saoutAl1 : BitVec 23 :=
  match nextState this i with
  | .sb1 | .wmiss1 | .wunca1 | .off1 => toCacheLine i.a.a
  | _ => this.saoutAl1

/-- The size of an access from its write enables. -/
def sz : BitVec 2 :=
  match i.a.we with
  | 0b1111#4 => 0b10
  | 0b0011#4 | 0b1100#4 => 0b01
  | _ => 0b00

def ctomCmd : BitVec 3 :=
  match nextState this i with
  | .rmiss1 => cacheDcmdReadmiss
  | .off1 =>
    if i.a.wr then cacheDcmdWritesglSl
    else if i.aLock then cacheDcmdReadsglLo
    else cacheDcmdReadsglNm
  | .wmiss1 => cacheDcmdWritemiss
  | .sb1 => cacheDcmdWritesglFa
  | .rlock1 => cacheDcmdReadsglLo
  | .wunca1 => cacheDcmdWritesglSl
  | .neglck => if this.state == .idle then cacheDcmdNegateLo else 0b000
  | _ => 0b000

/-- The request goes out with the transition into the state. -/
def ctomB0en : Bool :=
  match nextState this i with
  | .rmiss1 | .off1 | .wmiss1 | .sb1 | .rlock1 | .wunca1 => true
  | .neglck => this.state == .idle
  | _ => false

/-- A store is announced to the other cache through one bank after the other. -/
def sends : Bool :=
  match nextState this i with
  | .rmiss1 | .off1 | .wmiss1 | .sb1 | .rlock1 | .wunca1 => i.a.wr
  | _ => false

def ctomB0d : BitVec 65 :=
  match nextState this i with
  | .rmiss1 => ctomCmd this i ++ 0b00#2 ++ i.a.a.extractLsb 27 0 ++ 0#32
  | .neglck =>
    if this.state == .idle then ctomCmd this i ++ 0b00#2 ++ i.a.a.extractLsb 27 0 ++ 0#32
    else ctomCmd this i ++ sz i ++ i.a.a.extractLsb 27 0 ++ i.a.d
  | _ => ctomCmd this i ++ sz i ++ i.a.a.extractLsb 27 0 ++ i.a.d

def ctom : CtomDc :=
  { b0en := ctomB0en this i
    b0d := ctomB0d this i
    b2en := nextState this i == .rmiss1 || nextState this i == .wmiss1
    b30en := sends this i && this.sabankSend
    b31en := sends this i && !this.sabankSend }

/-! ### The registers of the next clock -/

def aPrevV : Bool :=
  if !this.dcOnm || (this.state == .rmiss3 && this.stateDel1 == .rmiss2) || this.state == .wmiss1 ||
      cachehitSnoop this i ||
      (memTransAck this i && (this.state == .rlock2 || this.state == .wunca2)) then
    false
  else if i.a.en then true
  else this.aPrevV

def ma0 : BitVec 28 :=
  match nextState this i with
  | .rmiss1 | .wmiss1 | .rlock1 => i.a.a.extractLsb 27 0
  | _ => this.ma0

def dw : BitVec 32 := if this.aenrdDel1 && this.ryEn0 then i.ra.d0 else this.dw

/-- The valid bits with the end of a fill or of a locked read. -/
def ffvFilled : BitVec 8 → Bool :=
  match this.state with
  | .rmiss1 | .wmiss1 => Function.update this.ffv (toCacheIndex this.ma0) true
  | .rlock1 => Function.update this.ffv (toCacheIndex this.ma0) false
  | _ => this.ffv

/-- The valid bits; a snoop has the last word. -/
def ffv : BitVec 8 → Bool :=
  if !this.dcOnm || this.dcInv then fun _ => false
  else if cachehitSnoop this i then Function.update (ffvFilled this) (lineIndex this.saAl) false
  else ffvFilled this

/-- One clock. -/
def step : DcacheCclReg where
  state := nextState this i
  stateDel1 := this.state
  ma0 := ma0 this i
  aPrev := if i.a.en then i.a else this.aPrev
  aPrevV := aPrevV this i
  saAl := if i.sa.en then i.sa.al else this.saAl
  -- a lookup that met a fill is made again
  saEnState := i.sa.en || (this.saEnState && this.ryTwr)
  saoutAl1 := saoutAl1 this i
  saoutAl2a := if this.sabankSend then this.saoutAl2a else this.saoutAl1
  saoutAl2b := if this.sabankSend then this.saoutAl1 else this.saoutAl2b
  sabankSend := if sends this i then !this.sabankSend else this.sabankSend
  sabankRcv := sabankRcv this i
  ta0 := ta0 this i
  cHitstate := cHitstate this i
  memlockState := memlockState this i
  prefInc := prefInc this i
  aenDel1 := i.a.en && !i.aLock
  aenrdDel1 := i.a.en && !i.a.wr
  dw := dw this i
  ryTwr := ryTwr this
  ryEn0 := ryEn0 this i
  ffv := ffv this i
  rfillv := i.mtoc.b0enr
  dcOnm := dcOnm this i
  dcInv := i.ctrl.inv
  b2enR := i.mtoc.b2enr
  b3enR := (i.mtoc.b31enr, i.mtoc.b30enr)

/-! ### Outputs -/

/-- The answer to the CPU. -/
def y : CpuDataI :=
  { d :=
      if this.dcOnm && !i.aLock then
        if this.state = .rmiss2 then i.mtoc.b2dCfil
        else if this.aenrdDel1 && this.ryEn0 then i.ra.d0
        else this.dw
      else i.mtoc.b0dUnc
    ack :=
      if this.dcOnm then
        yAckBeforetI1 this i || yAckBeforetI2 this i || (yAckBeforetD this i && cachehit this i)
      else yAckOff this i }

/-- The line of a store that has reached memory. -/
def sy : DcacheSnoopIo :=
  { al := if sabankRcv this i then this.saoutAl2b else this.saoutAl2a
    en := (obsWrcomplAck this i).1 || (obsWrcomplAck this i).2 }

def ryCcl : DcacheRamcclI :=
  { a0 := a0 this i, en0 := ryEn0 this i, wr0 := wr0 this i, we0 := we0 this i, d0 := i.a.d,
    ta0 := ta0 this i, twr0 := ryTwr this, tag0 := toCacheTag this.ma0, ta1 := ta1 this i }

/-! ### Transitions -/

section Transitions

variable {this i}

/-- A read miss. -/
theorem nextState_eq_rmiss1 (h : nextState this i = .rmiss1) :
    this.dcOnm = true ∧ this.state = .idle ∧ i.a.en = true ∧ i.a.wr = false ∧ i.aLock = false ∧
      adrsEqucacheli this i = true ∧ cachehit this i = false := by
  grind [nextState, nextStateOn, nextStateOff]

/-- A request goes out when nothing is under way, or with the completion of a store. -/
theorem ctomB0en_cases (h : ctomB0en this i = true) :
    this.state = .idle ∨ this.state = .sb2 ∧ memTransAck this i = true := by
  grind [ctomB0en, nextState, nextStateOn, nextStateOff]

theorem nextState_ne_idle (h : ctomB0en this i = true) : nextState this i ≠ .idle := by
  grind [ctomB0en]

/-- The states of a cache that is switched off, and of one that is on. -/
def Switched (this : DcacheCclReg) : Prop :=
  if this.dcOnm then this.state ≠ .off1 ∧ this.state ≠ .off2
  else this.state = .idle ∨ this.state = .off1 ∨ this.state = .off2 ∨ this.state = .neglck

/-- What is under way ends with its completion. -/
theorem nextState_eq_idle (switched : Switched this) (h : nextState this i = .idle) :
    this.state = .idle ∨ memTransAck this i = true := by
  grind [Switched, nextState, nextStateOn, nextStateOff]

theorem switched_step (switched : Switched this) : Switched (step this i) := by
  simp only [Switched, step]
  grind [Switched, nextState, nextStateOn, nextStateOff, dcOnm]

/-- After the tag write of a fill comes none. -/
theorem nextState_of_ryTwr (h : ryTwr this = true) :
    nextState this i ≠ .rmiss1 ∧ nextState this i ≠ .wmiss1 := by
  rw [ryTwr, Bool.or_eq_true, beq_iff_eq, beq_iff_eq] at h
  rcases h with h | h <;> rw [nextState, nextStateOn, nextStateOff, h] <;>
    cases this.dcOnm <;> simp

/-! ### Valid bits -/

theorem ffvFilled_eq : ffvFilled this =
    if ryTwr this then Function.update this.ffv (toCacheIndex this.ma0) true
    else if this.state = .rlock1 then Function.update this.ffv (toCacheIndex this.ma0) false
    else this.ffv := by
  cases hs : this.state <;> simp [ffvFilled, ryTwr, hs]

theorem ffvFilled_eq_true {index : BitVec 8} (h : ffvFilled this index = true) :
    this.ffv index = true ∨ ryTwr this = true ∧ toCacheIndex this.ma0 = index := by
  rw [ffvFilled_eq] at h
  by_cases hindex : index = toCacheIndex this.ma0
  · split_ifs at h with htwr
    · exact .inr ⟨htwr, hindex.symm⟩
    · simp [hindex] at h
    · exact .inl h
  · left
    split_ifs at h
    · rwa [Function.update_of_ne hindex] at h
    · rwa [Function.update_of_ne hindex] at h
    · exact h

/-- A valid bit is set by a fill only. -/
theorem ffv_eq_true {index : BitVec 8} (h : ffv this i index = true) :
    this.ffv index = true ∨ ryTwr this = true ∧ toCacheIndex this.ma0 = index := by
  rw [ffv] at h
  split_ifs at h
  · by_cases hindex : index = lineIndex this.saAl
    · simp [hindex] at h
    · rw [Function.update_of_ne hindex] at h
      exact ffvFilled_eq_true h
  · exact ffvFilled_eq_true h

/-- A snoop that hits clears it. -/
theorem ffv_of_cachehitSnoop (h : cachehitSnoop this i = true) :
    ffv this i (lineIndex this.saAl) = false := by
  rw [ffv]
  split_ifs
  · rfl
  · exact Function.update_self _ _ _

end Transitions

end DcacheCcl

end JCore
