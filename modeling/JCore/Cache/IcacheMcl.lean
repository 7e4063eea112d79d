import JCore.Cache.IcacheCcl

/-!
# The memory side of the instruction cache

The entity `icache_mcl`. It reads the line of a miss from the critical word on, or a single
word for a cache that is switched off, and completes the request when the last word has
arrived; without the cache one clock later, when the word itself is on its line.

## Main definitions

* `IcacheMcl.mtoc`, `IcacheMcl.my`, `IcacheMcl.ryMcl`: the outputs
* `IcacheMcl.step`: one clock
* `IcacheMcl.Rests`, `IcacheMcl.Serves`: the registers outside of a request, and in one

## Main results

* `IcacheMcl.rests_step`, `IcacheMcl.serves_step`: what one clock does
-/

namespace JCore

/-- The registers of the memory side that its outputs and its next state depend on. -/
@[ext] structure IcacheMclReg where
  ma0 : BitVec 28
  ma0In1 : Bool
  reqw : BitVec 3
  men : Bool
  mav : Bool
  wv : BitVec 16
  d : BitVec 16
  fillvDel1 : Bool
  ryA1fillc : BitVec 3
  ryEn1 : Bool
  rfillv : Bool
  rfillvDel1 : Bool
  rfillvDel2 : Bool
  mvbank : Bool
  cd : BitVec 32
  icOnm : Bool
  deriving DecidableEq, Repr

def icacheMclRegReset : IcacheMclReg :=
  { ma0 := 0, ma0In1 := false, reqw := 0, men := false, mav := false, wv := 0, d := 0
    fillvDel1 := false, ryA1fillc := 0, ryEn1 := false, rfillv := false, rfillvDel1 := false
    rfillvDel2 := false, mvbank := false, cd := 0, icOnm := false }

/-- The inputs of the memory side in one clock. -/
structure IcacheMclI where
  ctom : CtomIc
  ma : MemI
  deriving DecidableEq, Repr

/-- What the memory side wants of the data RAM. -/
structure IcacheRammclI where
  a1 : BitVec 11
  en1 : Bool
  wr1 : Bool
  d1 : BitVec 32
  deriving DecidableEq, Repr

namespace IcacheMcl

variable (this : IcacheMclReg) (i : IcacheMclI)

/-- A request has just arrived. -/
def seen : Bool := !i.ctom.fillv && this.fillvDel1

/-- The last word of a line. -/
def cwLast : Bool := toCacheWord this.ma0 + 1 == this.reqw

/-- The last word of a request. -/
def last : Bool := i.ma.ackR && ((this.icOnm && cwLast this) || !this.icOnm)

/-- The half of the valid bits that belongs to a bank. -/
def bankMask (bank : Bool) : BitVec 16 := if bank then 0xff00 else 0x00ff

/-- The place of a word in the valid bits. -/
def bankBit (bank : Bool) (word : BitVec 3) : BitVec 16 :=
  1#16 <<< (word.toNat + if bank then 8 else 0)

def wv : BitVec 16 :=
  if seen this i || !this.icOnm then 0
  else if this.rfillvDel2 then this.wv &&& ~~~ bankMask this.mvbank
  else if this.ryEn1 && this.icOnm then this.wv ||| bankBit this.mvbank this.ryA1fillc
  else this.wv

def reqw : BitVec 3 := if seen this i then toCacheWord (i.ctom.filla.extractLsb 27 0) else this.reqw

def men : Bool := if seen this i then true else if last this i then false else this.men

def rfillv : Bool := this.men && last this i

def mav : Bool := seen this i || (this.mav && !i.ma.ackR)

def ma0 : BitVec 28 :=
  if seen this i then (i.ctom.filla.extractLsb 27 2) ++ 0b00#2
  else if this.men && i.ma.ackR && this.icOnm then
    toCacheLine this.ma0 ++ (toCacheWord this.ma0 + 1) ++ 0b00#2
  else this.ma0

def ma0In1 : Bool := if seen this i then i.ctom.filla.getLsbD 1 else this.ma0In1

/-- The half words that the CPU waits for: both of the critical word, or its lower half and
the upper half of the next word. -/
def cd : BitVec 32 :=
  if this.men && i.ma.ackR && this.icOnm then
    if toCacheWord this.ma0 = this.reqw then
      if this.ma0In1 then i.ma.d.extractLsb 15 0 ++ this.cd.extractLsb 15 0 else i.ma.d
    else if this.reqw + 1 = toCacheWord this.ma0 ∧ this.ma0In1 = true then
      this.cd.extractLsb 31 16 ++ i.ma.d.extractLsb 31 16
    else this.cd
  else this.cd

def mvbank : Bool := if seen this i then i.ctom.filla.getLsbD 0 else this.mvbank

/-- One clock. -/
def step : IcacheMclReg where
  ma0 := ma0 this i
  ma0In1 := ma0In1 this i
  reqw := reqw this i
  men := men this i
  mav := mav this i
  wv := wv this i
  d := toCacheIdata (BitVec.ofBool this.ma0In1 ++ 0#1) i.ma.d
  fillvDel1 := i.ctom.fillv
  ryA1fillc := toCacheWord this.ma0
  ryEn1 := this.men && i.ma.ackR
  rfillv := rfillv this i
  rfillvDel1 := this.rfillv
  rfillvDel2 := this.rfillvDel1
  mvbank := mvbank this i
  cd := cd this i
  icOnm := i.ctom.filla.getLsbD 28

/-! ### Outputs -/

def mtoc : MtocIc :=
  { rfillv := if this.icOnm then this.rfillv else this.rfillvDel1, rfillvAdvance := this.rfillv
    rfilld := BitVec.ofBool this.icOnm ++ this.d, v := this.wv, cd := this.cd }

def my : MemO :=
  { a := this.ma0, av := this.mav, lock := false, ddrburst := this.mav && this.icOnm
    en := this.men, d := 0, wr := false, we := 0 }

def ryMcl : IcacheRammclI :=
  { a1 := this.ma0.extractLsb 12 2, en1 := this.men && i.ma.ackR, wr1 := this.men && i.ma.ackR
    d1 := i.ma.d }

/-! ### A request -/

/-- No request is being served. The delayed completion of the last one may still be there,
but the switch of its cache masks it. -/
structure Rests (this : IcacheMclReg) : Prop where
  men : this.men = false
  rfillv : this.rfillv = false
  masked : this.rfillvDel1 = true → this.icOnm = true

/-- A request with the given switch is being served: its words are read, or it is about to
be completed. -/
structure Serves (this : IcacheMclReg) (onm : Bool) : Prop where
  fillvDel1 : this.fillvDel1 = false
  icOnm : this.icOnm = onm
  phase : this.men = true ∧ this.rfillv = false ∧ this.rfillvDel1 = false ∨
    this.men = false ∧ this.rfillv = true ∧ this.rfillvDel1 = false ∨
      this.men = false ∧ this.rfillv = false ∧ this.rfillvDel1 = true ∧ onm = false

section Request

variable {this i}

theorem rests_reset : Rests icacheMclRegReset := ⟨rfl, rfl, fun h => absurd h Bool.false_ne_true⟩

/-- Outside of a request nothing is completed. -/
theorem mtoc_of_rests (rests : Rests this) :
    (mtoc this).rfillv = false ∧ (mtoc this).rfillvAdvance = false := by
  obtain ⟨men, rfillv, masked⟩ := rests
  cases h : this.icOnm <;> simp_all [mtoc]

/-- A request is completed when its words have been read. -/
theorem men_of_complete {onm : Bool} (serves : Serves this onm) (h : (mtoc this).rfillv = true) :
    this.men = false := by
  obtain ⟨-, -, ⟨-, rfillv, rfillvDel1⟩ | ⟨men, -⟩ | ⟨men, -⟩⟩ := serves
  · simp [mtoc, rfillv, rfillvDel1] at h
  · exact men
  · exact men

/-- A request is taken over as soon as it is found. -/
theorem rests_step (rests : Rests this) :
    if seen this i then Serves (step this i) (i.ctom.filla.getLsbD 28)
    else Rests (step this i) := by
  obtain ⟨hmen, hrfillv, -⟩ := rests
  split_ifs with h
  · have lines : i.ctom.fillv = false := by
      rw [seen, Bool.and_eq_true] at h
      simpa using h.1
    refine ⟨lines, rfl, .inl ⟨?_, ?_, ?_⟩⟩
    · simp [step, men, h]
    · simp [step, rfillv, hmen]
    · simp [step, hrfillv]
  · constructor
    · simp [step, men, h, hmen]
    · simp [step, rfillv, hmen]
    · simp [step, hrfillv]

/-- A request is served until it is completed. -/
theorem serves_step {onm : Bool} (serves : Serves this onm) (lines : i.ctom.fillv = false)
    (switch : i.ctom.filla.getLsbD 28 = onm) :
    if (mtoc this).rfillv then Rests (step this i) else Serves (step this i) onm := by
  obtain ⟨hdel, honm, phase⟩ := serves
  have quiet : seen this i = false := by simp [seen, hdel]
  rcases phase with ⟨hmen, hrfillv, hdel1⟩ | ⟨hmen, hrfillv, hdel1⟩ | ⟨hmen, hrfillv, hdel1, off⟩
  · -- the words are read until the last one
    rw [if_neg (by simp [mtoc, hrfillv, hdel1])]
    refine ⟨lines, switch, ?_⟩
    cases h : last this i with
    | false => exact .inl (by simp [step, men, rfillv, quiet, h, hmen, hrfillv])
    | true => exact .inr (.inl (by simp [step, men, rfillv, quiet, h, hmen, hrfillv]))
  · -- with the cache the request is completed at once, else one clock later
    cases onm with
    | true =>
      rw [if_pos (by simp [mtoc, honm, hrfillv])]
      constructor
      · simp [step, men, quiet, hmen]
      · simp [step, rfillv, hmen]
      · intro _
        exact switch
    | false =>
      rw [if_neg (by simp [mtoc, honm, hdel1])]
      exact ⟨lines, switch, .inr (.inr (by simp [step, men, rfillv, quiet, hmen, hrfillv]))⟩
  · subst off
    rw [if_pos (by simp [mtoc, honm, hdel1])]
    constructor
    · simp [step, men, quiet, hmen]
    · simp [step, rfillv, hmen]
    · simp [step, hrfillv]

end Request

end IcacheMcl

end JCore
