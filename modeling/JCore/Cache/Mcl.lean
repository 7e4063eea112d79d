import JCore.Cache.Pack

/-!
# The memory side of the data cache

The entity `dcache_mcl`. It takes requests over from the lines of the synchroniser,
reads lines and single words, and writes stores. A store is acknowledged when it is
taken over, and a request that arrives while it is still being written is remembered.

## Main definitions

* `DcacheMcl.sboutEn1`, `DcacheMcl.sboutCmd`: when a request is taken over, and which
* `DcacheMcl.nextStatemcl`, `DcacheMcl.nextStatemwi`: the two state machines
* `DcacheMcl.my`, `DcacheMcl.mtoc`, `DcacheMcl.ryMcl`: the outputs
* `DcacheMcl.step`: one clock
-/

namespace JCore

/-- The inputs of the memory side in one clock. -/
structure DcacheMclI where
  ctom : CtomDc
  ma : MemI
  deriving DecidableEq, Repr

/-! ### Requests on the lines -/

section Lines

variable (b0d : BitVec 65)

def b0dCmd : BitVec 3 := b0d.extractLsb 64 62

def b0dSize : BitVec 2 := b0d.extractLsb 61 60

def b0dAddr : BitVec 28 := b0d.extractLsb 59 32

def b0dData : BitVec 32 := b0d.extractLsb 31 0

/-- The bytes that a store of the given size writes. -/
def b0dWe : BitVec 4 :=
  match b0dSize b0d with
  | 0b00 =>
    match (b0dAddr b0d).extractLsb 1 0 with
    | 0b00 => 0b1000
    | 0b01 => 0b0100
    | 0b10 => 0b0010
    | _ => 0b0001
  | 0b01 => if (b0dAddr b0d).getLsbD 1 then 0b0011 else 0b1100
  | _ => 0xf

/-! ### The fields of a request -/

section Fields

variable (cmd : BitVec 3) (size : BitVec 2) (a : BitVec 28) (d : BitVec 32)

@[simp] theorem b0dCmd_append : b0dCmd (cmd ++ size ++ a ++ d) = cmd := by
  apply BitVec.eq_of_getLsbD_eq
  intro k hk
  have h32 : ¬62 + k < 32 := by omega
  have h28 : ¬62 + k - 32 < 28 := by omega
  have h2 : ¬62 + k - 32 - 28 < 2 := by omega
  have hk' : 62 + k - 32 - 28 - 2 = k := by omega
  rw [b0dCmd, BitVec.getLsbD_extractLsb]
  simp only [BitVec.getLsbD_append, h32, h28, h2, hk']
  simp [hk]

@[simp] theorem b0dSize_append : b0dSize (cmd ++ size ++ a ++ d) = size := by
  apply BitVec.eq_of_getLsbD_eq
  intro k hk
  have h32 : ¬60 + k < 32 := by omega
  have h28 : ¬60 + k - 32 < 28 := by omega
  have hk' : 60 + k - 32 - 28 = k := by omega
  rw [b0dSize, BitVec.getLsbD_extractLsb]
  simp only [BitVec.getLsbD_append, h32, h28, hk', hk]
  simp

@[simp] theorem b0dAddr_append : b0dAddr (cmd ++ size ++ a ++ d) = a := by
  apply BitVec.eq_of_getLsbD_eq
  intro k hk
  have h32 : ¬32 + k < 32 := by omega
  have hk' : 32 + k - 32 = k := by omega
  rw [b0dAddr, BitVec.getLsbD_extractLsb]
  simp only [BitVec.getLsbD_append, h32, hk', hk]
  simp

@[simp] theorem b0dData_append : b0dData (cmd ++ size ++ a ++ d) = d := by
  apply BitVec.eq_of_getLsbD_eq
  intro k hk
  rw [b0dData, BitVec.getLsbD_extractLsb, Nat.zero_add]
  simp only [BitVec.getLsbD_append, hk]
  simp

end Fields

end Lines

namespace DcacheMcl

variable (this : DcacheMclReg) (i : DcacheMclI)

/-! ### Taking a request over -/

/-- A request has just arrived. -/
def seen : Bool := !i.ctom.b0en && this.fillvDel1

/-- A request is taken over, now or as the one remembered. -/
def sboutEn1 : Bool := this.statemcl == .idle && (seen this i || this.sbblknxst)

/-- While the store buffer is in use the command is that of its store. -/
def sboutCmd : BitVec 3 :=
  if this.sbbufin then
    if this.statemcl = .wthi then cacheDcmdWritesglFa else cacheDcmdWritesglSl
  else b0dCmd i.ctom.b0d

def sboutD : BitVec 32 := if this.sbbufin2 then this.sbdata else b0dData i.ctom.b0d

def isWritesgl (cmd : BitVec 3) : Bool := cmd == cacheDcmdWritesglFa || cmd == cacheDcmdWritesglSl

def sboutEn1w : Bool :=
  sboutEn1 this i && (isWritesgl (sboutCmd this i) || sboutCmd this i == cacheDcmdNegateLo)

def sboutWe : BitVec 4 :=
  if isWritesgl (sboutCmd this i) || sboutCmd this i == cacheDcmdWritemiss then b0dWe i.ctom.b0d
  else 0

/-- A request that arrives during a write is remembered. -/
def sbblknxst : Bool :=
  if seen this i && this.statemcl != .idle then true
  else if this.statemcl == .idle then false
  else this.sbblknxst

/-! ### Completion -/

/-- A fast store is acknowledged when it is taken over, or at the end of the gap. -/
def b0enr : Bool :=
  if sboutCmd this i == cacheDcmdWritesglFa then
    if this.statemcl == .idle && sboutEn1 this i then
      !(this.statemwi == .gap1 || this.statemwi == .gap2s || this.statemwi == .gap2r)
    else this.statemwi == .gap3r
  else this.rfillv

/-- The last word of a line. -/
def cwLast : Bool := toCacheWord this.ma0 + 1 == this.reqw

/-- The acknowledgement, masked in the gaps between writes. -/
def maAckG : Bool :=
  i.ma.ack &&
    !((this.statemcl == .wsg || this.statemcl == .wthi || this.statemcl == .wtha) &&
      (this.statemwi == .gap2s || this.statemwi == .gap2r || this.statemwi == .gap3s ||
        this.statemwi == .gap3r))

/-! ### The state machines -/

def nextStatemcl : DcachemclState :=
  match this.statemcl with
  | .idle =>
    if sboutEn1 this i then
      if sboutCmd this i == cacheDcmdReadmiss then .rfill
      else if sboutCmd this i == cacheDcmdWritemiss then .wfill
      else if sboutCmd this i == cacheDcmdReadsglNm || sboutCmd this i == cacheDcmdReadsglLo then
        .rsg
      else if sboutCmd this i == cacheDcmdWritesglSl then .wsg
      else if sboutCmd this i == cacheDcmdNegateLo then .idle
      else .wthi
    else .idle
  | .rfill => if this.men && i.ma.ack && cwLast this then .idle else .rfill
  | .wfill => if this.men && i.ma.ack && cwLast this then .wtha else .wfill
  | .wtha => if maAckG this i then .idle else .wtha
  | .wthi => if maAckG this i then .idle else .wthi
  | .rsg => if maAckG this i then .idle else .rsg
  | .wsg => if maAckG this i then .idle else .wsg

/-- The gap after a write. -/
def nextStatemwi : DcachemwiState :=
  match this.statemwi with
  | .idle =>
    if (this.statemcl == .wtha || this.statemcl == .wthi || this.statemcl == .wsg) &&
        maAckG this i then
      .gap1
    else .idle
  | .gap1 => if !sboutEn1 this i then .gap2s else if !sboutEn1w this i then .idle else .gap2r
  | .gap2r => .gap3r
  | .gap2s => if !sboutEn1 this i then .gap3s else if !sboutEn1w this i then .idle else .gap3r
  | .gap3s => .idle
  | .gap3r => .idle

/-! ### The registers of the next clock -/

def reqw : BitVec 3 := if sboutEn1 this i then toCacheWord (b0dAddr i.ctom.b0d) else this.reqw

def men : Bool :=
  nextStatemcl this i != .idle &&
    !(nextStatemwi this i == .gap2r || nextStatemwi this i == .gap3r)

def mwr : Bool :=
  (men this i && isWritesgl (sboutCmd this i)) || nextStatemcl this i == .wtha

def mlock : Bool :=
  if men this i then sboutCmd this i == cacheDcmdReadsglLo
  else if sboutEn1 this i && sboutCmd this i == cacheDcmdNegateLo then false
  else this.mlock

def ddrburst : Bool :=
  if this.statemcl == .idle && (nextStatemcl this i == .rfill || nextStatemcl this i == .wfill) then
    true
  else if i.ma.ack then false
  else this.ddrburst

def rfillvPre1 : Bool := this.statemcl == .rsg && nextStatemcl this i == .idle

def rfillv : Bool :=
  if this.statemcl == .rfill || this.statemcl == .wtha || this.statemcl == .wsg then
    maAckG this i && (this.statemcl != .rfill || (this.men && cwLast this))
  else if sboutEn1 this i && sboutCmd this i == cacheDcmdNegateLo then true
  else this.rfillvPre1

def b0enrMcdata : Bool :=
  if this.statemcl == .idle && sboutCmd this i == cacheDcmdWritesglFa && sboutEn1 this i then true
  else rfillv this i

/-- Every write flips the bank of the snoop toggle. -/
def b3enrPls : Bool := this.mwr && maAckG this i

def b3enrDir : Bool := if b3enrPls this i then !this.b3enrDir else this.b3enrDir

def mav : Bool :=
  if (this.statemcl == .idle && nextStatemcl this i != .idle) ||
      (this.statemcl == .wfill && nextStatemcl this i == .wtha) then
    true
  else if maAckG this i then false
  else this.mav

def ryWe1 : BitVec 4 :=
  if sboutCmd this i == cacheDcmdReadmiss then 0xf
  else if sboutCmd this i == cacheDcmdWritemiss then
    if mav this i then ~~~ sboutWe this i else 0xf
  else 0

/-- The address with another word and the lowest bits clear. -/
def withWord (a : BitVec 28) (w : BitVec 3) : BitVec 28 := toCacheLine a ++ w ++ 0b00#2

@[simp] theorem toCacheWord_withWord (a : BitVec 28) (w : BitVec 3) :
    toCacheWord (withWord a w) = w := by
  apply BitVec.eq_of_getLsbD_eq
  intro k hk
  have low : ¬2 + k < 2 := by omega
  have word : 2 + k - 2 = k := by omega
  simp only [toCacheWord, withWord, BitVec.getLsbD_extractLsb, BitVec.getLsbD_append, low, word, hk]
  simp

@[simp] theorem toCacheLine_withWord (a : BitVec 28) (w : BitVec 3) :
    toCacheLine (withWord a w) = toCacheLine a := by
  apply BitVec.eq_of_getLsbD_eq
  intro k hk
  have low : ¬5 + k < 2 := by omega
  have word : ¬5 + k - 2 < 3 := by omega
  have line : 5 + k - 2 - 3 = k := by omega
  rw [toCacheLine, BitVec.getLsbD_extractLsb]
  simp only [withWord, BitVec.getLsbD_append, low, word, line]
  simp [hk]

@[simp] theorem withWord_withWord (a : BitVec 28) (v w : BitVec 3) :
    withWord (withWord a v) w = withWord a w := by
  rw [withWord, toCacheLine_withWord, ← withWord]

def ma0 : BitVec 28 :=
  match this.statemcl with
  | .idle =>
    if nextStatemcl this i == .rfill || nextStatemcl this i == .wfill then
      withWord (b0dAddr i.ctom.b0d) (toCacheWord (b0dAddr i.ctom.b0d))
    else if nextStatemcl this i != .idle then b0dAddr i.ctom.b0d
    else this.ma0
  | .rfill | .wfill =>
    if nextStatemcl this i == .wtha then b0dAddr i.ctom.b0d
    else if i.ma.ack then withWord this.ma0 (toCacheWord this.ma0 + 1)
    else this.ma0
  | _ => this.ma0

def sbwe : BitVec 4 :=
  match this.statemcl with
  | .idle =>
    if nextStatemcl this i == .wthi || nextStatemcl this i == .wsg then sboutWe this i else 0
  | .wthi | .wtha | .wsg => if maAckG this i then 0 else this.sbwe
  | .wfill => if nextStatemcl this i == .wtha then sboutWe this i else this.sbwe
  | _ => this.sbwe

def sbbufin : Bool :=
  if sboutEn1 this i && isWritesgl (sboutCmd this i) && !maAckG this i then true
  else if maAckG this i then false
  else this.sbbufin

def sbbufin2 : Bool := if this.sbwe = 0b0101 then false else sbbufin this i

def sbdata : BitVec 32 :=
  if sboutEn1 this i && isWritesgl (sboutCmd this i) then sboutD this i else this.sbdata

/-- The critical word of a line arrives. -/
def b2en : Bool :=
  this.men && i.ma.ackR && (this.statemcl == .rfill || this.statemcl == .wfill) &&
    toCacheWord this.ma0 == this.reqw

/-- One clock. -/
def step : DcacheMclReg where
  statemcl := nextStatemcl this i
  statemwi := nextStatemwi this i
  ma0 := ma0 this i
  reqw := reqw this i
  men := men this i
  mav := mav this i
  mwr := mwr this i
  mlock := mlock this i
  sbwe := sbwe this i
  sbbufin := sbbufin this i
  sbbufin2 := sbbufin2 this i
  sbdata := sbdata this i
  sbblknxst := sbblknxst this i
  b0dUnc := if this.men && i.ma.ack then i.ma.d else this.b0dUnc
  fillvDel1 := i.ctom.b0en
  ryWe1 := ryWe1 this i
  rfillvPre1 := rfillvPre1 this i
  rfillv := rfillv this i
  cd := if b2en this i then i.ma.d else this.cd
  b2en := b2en this i
  b3enrPls := b3enrPls this i
  b3enrDir := b3enrDir this i
  ddrburst := ddrburst this i

/-! ### Outputs -/

def mtoc : MtocDc :=
  { b0enr := b0enr this i, b0enrMcdata := b0enrMcdata this i, b0dUnc := this.b0dUnc,
    b2enr := this.b2en, b2dCfil := this.cd
    b30enr := b3enrPls this i && !b3enrDir this i
    b31enr := b3enrPls this i && b3enrDir this i }

def my : MemO :=
  { a := this.ma0, av := this.mav, lock := this.mlock, ddrburst := this.ddrburst, en := this.men,
    d := sboutD this i, wr := this.mwr, we := this.sbwe }

/-- The words of a line go to the data RAM as they arrive. -/
def ryMcl : DcacheRammclI :=
  { a1 := this.ma0.extractLsb 12 2
    en1 := this.men && !this.mwr && i.ma.ackR
    wr1 := this.men && !this.mwr && i.ma.ackR
    we1 := if i.ma.ackR then this.ryWe1 else 0
    d1 := i.ma.d }

end DcacheMcl

end JCore
