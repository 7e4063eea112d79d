import JCore.Pack.Cpu

/-!
# The records of the caches

The types and constants of `cache_pack` for the data cache: 256 lines of 32 bytes
over an address space of 28 bits. `data_bus_pack` with the record of the cache's
switches is not part of the repository; its two fields are those the source uses.
-/

namespace JCore

/-! ### Addresses -/

/-- The tag of an address, `to_cache_tag`. -/
def toCacheTag {w : ℕ} (a : BitVec w) : BitVec 15 := a.extractLsb 27 13

/-- The index of an address, `to_cache_index`. -/
def toCacheIndex {w : ℕ} (a : BitVec w) : BitVec 8 := a.extractLsb 12 5

/-- The line of an address, bits 27 to 5. -/
def toCacheLine {w : ℕ} (a : BitVec w) : BitVec 23 := a.extractLsb 27 5

/-- The word within the line, bits 4 to 2. -/
def toCacheWord {w : ℕ} (a : BitVec w) : BitVec 3 := a.extractLsb 4 2

/-- The index of a line. -/
def lineIndex (l : BitVec 23) : BitVec 8 := l.extractLsb 7 0

/-- The tag of a line. -/
def lineTag (l : BitVec 23) : BitVec 15 := l.extractLsb 22 8

theorem toCacheIndex_extractLsb (a : BitVec 32) :
    toCacheIndex (a.extractLsb 27 0) = toCacheIndex a := by
  apply BitVec.eq_of_getLsbD_eq
  intro k hk
  simp only [toCacheIndex, BitVec.getLsbD_extractLsb]
  have hlt : 5 + k < 28 := by omega
  simp [hlt]

theorem toCacheLine_extractLsb (a : BitVec 32) :
    toCacheLine (a.extractLsb 27 0) = toCacheLine a := by
  apply BitVec.eq_of_getLsbD_eq
  intro k hk
  simp only [toCacheLine, BitVec.getLsbD_extractLsb]
  have hlt : 5 + k < 28 := by omega
  simp [hlt]

theorem lineIndex_toCacheLine {w : ℕ} (a : BitVec w) : lineIndex (toCacheLine a) = toCacheIndex a := by
  apply BitVec.eq_of_getLsbD_eq
  intro k hk
  simp only [lineIndex, toCacheLine, toCacheIndex, BitVec.getLsbD_extractLsb]
  have hlt : k < 23 := by omega
  simp [hlt]

theorem lineTag_toCacheLine {w : ℕ} (a : BitVec w) : lineTag (toCacheLine a) = toCacheTag a := by
  apply BitVec.eq_of_getLsbD_eq
  intro k hk
  simp only [lineTag, toCacheLine, toCacheTag, BitVec.getLsbD_extractLsb]
  have hlt : 8 + k < 23 := by omega
  have hadd : 5 + (8 + k) = 13 + k := by omega
  simp [hlt, hadd]

/-! ### Commands -/

def cacheDcmdReadmiss : BitVec 3 := 0b000
def cacheDcmdNegateLo : BitVec 3 := 0b001
def cacheDcmdReadsglNm : BitVec 3 := 0b010
def cacheDcmdReadsglLo : BitVec 3 := 0b011
def cacheDcmdWritemiss : BitVec 3 := 0b100
def cacheDcmdWritesglFa : BitVec 3 := 0b110
def cacheDcmdWritesglSl : BitVec 3 := 0b111

/-- The command that is left when no other is meant. -/
theorem writesglFa_of_ne {cmd : BitVec 3} (h0 : ¬cmd = cacheDcmdReadmiss)
    (h1 : ¬cmd = cacheDcmdWritemiss)
    (h2 : ¬(cmd = cacheDcmdReadsglNm ∨ cmd = cacheDcmdReadsglLo)) (h3 : ¬cmd = cacheDcmdWritesglSl)
    (h4 : ¬cmd = cacheDcmdNegateLo) (h5 : cmd ≠ 0b101) : cmd = cacheDcmdWritesglFa := by
  revert h0 h1 h2 h3 h4 h5
  generalize cmd = c
  revert c
  decide

/-! ### Ports -/

/-- The switches of a cache. -/
structure CacheCtrl where
  en : Bool
  inv : Bool
  deriving DecidableEq, Repr

/-- A line that the other cache has written. -/
structure DcacheSnoopIo where
  al : BitVec 23
  en : Bool
  deriving DecidableEq, Repr

/-- From the CPU clock to the memory clock. -/
structure CtomDc where
  b0en : Bool
  b0d : BitVec 65
  b2en : Bool
  b30en : Bool
  b31en : Bool
  deriving DecidableEq, Repr

/-- From the memory clock to the CPU clock. -/
structure MtocDc where
  b0enr : Bool
  b0enrMcdata : Bool
  b0dUnc : BitVec 32
  b2enr : Bool
  b2dCfil : BitVec 32
  b30enr : Bool
  b31enr : Bool
  deriving DecidableEq, Repr

/-- The answer of the memory; `ackR` is the acknowledgement from a register of its own. -/
structure MemI where
  d : BitVec 32
  ack : Bool
  ackR : Bool
  deriving DecidableEq, Repr

/-- A request to the memory. -/
structure MemO where
  a : BitVec 28
  av : Bool
  lock : Bool
  ddrburst : Bool
  en : Bool
  d : BitVec 32
  wr : Bool
  we : BitVec 4
  deriving DecidableEq, Repr

/-- What the memory side of the data cache wants of the data RAM. -/
structure DcacheRammclI where
  a1 : BitVec 11
  en1 : Bool
  wr1 : Bool
  we1 : BitVec 4
  d1 : BitVec 32
  deriving DecidableEq, Repr

/-- What the RAMs of the data cache put out. -/
structure DcacheRamO where
  d0 : BitVec 32
  tag0 : BitVec 15
  tag1 : BitVec 15
  deriving DecidableEq, Repr

/-- What the CPU side of the data cache wants of the RAMs; `ten0` is always set. -/
structure DcacheRamcclI where
  a0 : BitVec 11
  en0 : Bool
  wr0 : Bool
  we0 : BitVec 4
  d0 : BitVec 32
  ta0 : BitVec 8
  twr0 : Bool
  tag0 : BitVec 15
  ta1 : BitVec 8
  deriving DecidableEq, Repr

/-! ### States -/

inductive DcacheState where
  | idle | rmiss1 | rmiss2 | rmiss3 | wmiss1 | wmiss2 | sb1 | sb2 | off1 | off2 | rlock1 | rlock2
  | neglck | wunca1 | wunca2
  deriving DecidableEq, Repr

/-- The registers of the CPU side; `ffv` holds the valid bits. -/
@[ext] structure DcacheCclReg where
  state : DcacheState
  stateDel1 : DcacheState
  ma0 : BitVec 28
  aPrev : CpuDataO
  aPrevV : Bool
  saAl : BitVec 23
  saEnState : Bool
  saoutAl1 : BitVec 23
  saoutAl2a : BitVec 23
  saoutAl2b : BitVec 23
  sabankSend : Bool
  sabankRcv : Bool
  ta0 : BitVec 8
  cHitstate : Bool
  memlockState : Bool
  prefInc : Bool
  aenDel1 : Bool
  aenrdDel1 : Bool
  dw : BitVec 32
  ryTwr : Bool
  ryEn0 : Bool
  ffv : BitVec 8 → Bool
  rfillv : Bool
  dcOnm : Bool
  dcInv : Bool
  b2enR : Bool
  /-- bank 1 and bank 0 -/
  b3enR : Bool × Bool

def dcacheCclRegReset : DcacheCclReg :=
  { state := .idle, stateDel1 := .idle, ma0 := 0, aPrev := nullDataO, aPrevV := false, saAl := 0,
    saEnState := false, saoutAl1 := 0, saoutAl2a := 0, saoutAl2b := 0, sabankSend := false,
    sabankRcv := false, ta0 := 0, cHitstate := false, memlockState := false, prefInc := false,
    aenDel1 := false, aenrdDel1 := false, dw := 0, ryTwr := false, ryEn0 := false,
    ffv := fun _ => false, rfillv := false, dcOnm := false, dcInv := false, b2enR := false,
    b3enR := (false, false) }

inductive DcachemclState where
  | idle | rfill | wfill | wtha | wthi | rsg | wsg
  deriving DecidableEq, Repr

inductive DcachemwiState where
  | idle | gap1 | gap2s | gap2r | gap3s | gap3r
  deriving DecidableEq, Repr

/-- The registers of the memory side that its outputs and its next state depend on. -/
@[ext] structure DcacheMclReg where
  statemcl : DcachemclState
  statemwi : DcachemwiState
  ma0 : BitVec 28
  reqw : BitVec 3
  men : Bool
  mav : Bool
  mwr : Bool
  mlock : Bool
  sbwe : BitVec 4
  sbbufin : Bool
  sbbufin2 : Bool
  sbdata : BitVec 32
  sbblknxst : Bool
  b0dUnc : BitVec 32
  fillvDel1 : Bool
  ryWe1 : BitVec 4
  rfillvPre1 : Bool
  rfillv : Bool
  cd : BitVec 32
  b2en : Bool
  b3enrPls : Bool
  b3enrDir : Bool
  ddrburst : Bool
  deriving DecidableEq, Repr

def dcacheMclRegReset : DcacheMclReg :=
  { statemcl := .idle, statemwi := .idle, ma0 := 0, reqw := 0, men := false, mav := false,
    mwr := false, mlock := false, sbwe := 0, sbbufin := false, sbbufin2 := false, sbdata := 0,
    sbblknxst := false, b0dUnc := 0, fillvDel1 := false, ryWe1 := 0, rfillvPre1 := false,
    rfillv := false, cd := 0, b2en := false, b3enrPls := false, b3enrDir := false,
    ddrburst := false }

end JCore
