import JCore.Cache.Mcl
import JCore.Lib.Trace
import Mathlib.Tactic.SplitIfs

/-!
# What the memory side of the data cache is doing

A command arrives, is taken over and is completed. A store is completed when it is taken
over, so the next command may arrive while it is being written; it is remembered until
the write is done. Between two commands the state machine of the gaps may still run.

## Main definitions

* `MclRun.Port`, `MclRun.Delivers`: the state of the handshake, and how a command is
  delivered through it
* `MclRun.Mode`, `MclRun.Mode.next`: what the memory side is doing
* `MclRun.Holds`: what the registers hold meanwhile

## Main results

* `MclRun.holds_accept`: how a command is taken over
* `MclRun.holds_succ`, `MclRun.holds_mode`: one clock, and all of them
-/

namespace JCore

/-- A run of the memory side. -/
structure MclRun where
  clk : ℕ → DcacheMclI

namespace MclRun

variable (run : MclRun)

def state : ℕ → DcacheMclReg := trace DcacheMcl.step dcacheMclRegReset run.clk

/-- A command arrives in clock `t`. -/
def seen (t : ℕ) : Option (BitVec 65) :=
  if DcacheMcl.seen (run.state t) (run.clk t) then some (run.clk t).ctom.b0d else none

/-- The memory side completes a command in clock `t`. -/
def completes (t : ℕ) : Bool := (DcacheMcl.mtoc (run.state t) (run.clk t)).b0enr

/-! ### The handshake -/

/-- The last command that has arrived. It is open until it is completed; in the clock
after that the lines still show it. -/
structure Port where
  isOpen : Bool
  payload : BitVec 65
  cool : Bool
  deriving DecidableEq, Repr

def port : ℕ → Port
  | 0 => { isOpen := false, payload := 0, cool := false }
  | t + 1 =>
    match run.seen t with
    | some b0d => { isOpen := !run.completes t, payload := b0d, cool := run.completes t }
    | none =>
      { isOpen := (port t).isOpen && !run.completes t
        payload := (port t).payload
        cool := (port t).isOpen && run.completes t }

/-- How a command is delivered. The lines keep it until the clock after its completion, so
none arrives before; the memory acknowledges what is asked of it, through both of its
signals. -/
structure Delivers (t : ℕ) : Prop where
  lines : (run.port t).isOpen = true ∨ (run.port t).cool = true →
    (run.clk t).ctom.b0en = false ∧ (run.clk t).ctom.b0d = (run.port t).payload
  command : ∀ b0d, run.seen t = some b0d → b0dCmd b0d ≠ 0b101
  ackR : (run.clk t).ma.ackR = (run.clk t).ma.ack
  asked : (run.clk t).ma.ack = true → (run.state t).men = true

/-- Every command of the run is delivered so. -/
def Delivered : Prop := ∀ t, run.Delivers t

/-! ### What the memory side is doing -/

/-- What the memory side is doing: nothing, or answering a command; reading a line or a
word; writing a store, of a miss, of an uncached access or from the buffer, there with the
next command already waiting. -/
inductive Mode where
  | free | cooling | answering0 | answering1 | remembered | filling | missFilling | merging
  | reading | storing | early | buffering | queued
  deriving DecidableEq, Repr

/-- The mode in which a command is taken over. A fast store is not acknowledged before
the gap after the previous write is over. -/
def Mode.accept (cmd : BitVec 3) (gap : DcachemwiState) : Mode :=
  if cmd = cacheDcmdReadmiss then .filling
  else if cmd = cacheDcmdWritemiss then .missFilling
  else if cmd = cacheDcmdReadsglNm ∨ cmd = cacheDcmdReadsglLo then .reading
  else if cmd = cacheDcmdWritesglSl then .storing
  else if cmd = cacheDcmdNegateLo then .answering0
  else if gap = .gap1 ∨ gap = .gap2s then .early
  else .buffering

/-- One clock: whether a command arrives, the command on the lines, the gap, the
acknowledgement and whether the word is the last one. -/
def Mode.next (arrives : Bool) (cmd : BitVec 3) (gap : DcachemwiState) (ack last : Bool) :
    Mode → Mode
  | free => if arrives then accept cmd gap else free
  | cooling => free
  | answering1 => answering0
  | answering0 => if gap = .gap2r then cooling else free
  | remembered => accept cmd gap
  | filling => if ack && last then answering0 else filling
  | missFilling => if ack && last then merging else missFilling
  | merging => if ack then answering0 else merging
  | reading => if ack then answering1 else reading
  | storing => if ack then answering0 else storing
  | early => if gap = .gap3r then buffering else early
  | buffering =>
    if ack then (if arrives then remembered else free)
    else if arrives then queued else buffering
  | queued => if ack then remembered else queued

section Holds

variable (t : ℕ)

/-- The state machines are idle, with nothing in the store buffer. -/
structure Rests : Prop where
  statemcl : (run.state t).statemcl = .idle
  men : (run.state t).men = false
  mwr : (run.state t).mwr = false
  sbwe : (run.state t).sbwe = 0
  sbbufin : (run.state t).sbbufin = false
  sbbufin2 : (run.state t).sbbufin2 = false

/-- A command with this property is open. -/
structure Open (p : BitVec 65 → Prop) : Prop where
  isOpen : (run.port t).isOpen = true
  fillvDel1 : (run.state t).fillvDel1 = false
  command : p (run.port t).payload

/-- A line is being read. -/
structure Fills : Prop where
  statemwi : (run.state t).statemwi = .idle
  men : (run.state t).men = true
  mwr : (run.state t).mwr = false
  sbwe : (run.state t).sbwe = 0
  sbbufin : (run.state t).sbbufin = false
  sbbufin2 : (run.state t).sbbufin2 = false
  ma0 : (run.state t).ma0 =
    DcacheMcl.withWord (b0dAddr (run.port t).payload) (toCacheWord (run.state t).ma0)
  reqw : (run.state t).reqw = toCacheWord (b0dAddr (run.port t).payload)

/-- A store waits in the buffer or is being written from it. -/
structure Buffers : Prop where
  sbbufin : (run.state t).sbbufin = true
  sbbufin2 : (run.state t).sbbufin2 = true
  men : (run.state t).men = ((run.state t).statemwi == .idle)
  mwr : (run.state t).mwr = ((run.state t).statemwi == .idle)
  sbwe : (run.state t).sbwe ≠ 0b0101

/-- The buffer holds the store of the open command. -/
structure BuffersOpen : Prop where
  ma0 : (run.state t).ma0 = b0dAddr (run.port t).payload
  sbwe : (run.state t).sbwe = b0dWe (run.port t).payload
  sbdata : (run.state t).sbdata = b0dData (run.port t).payload

/-- Nothing is remembered and no completion is on its way. -/
structure Silent : Prop where
  sbblknxst : (run.state t).sbblknxst = false
  rfillvPre1 : (run.state t).rfillvPre1 = false
  rfillv : (run.state t).rfillv = false

/-- What the registers hold in each mode. -/
def Holds : Mode → Prop
  | .free =>
    run.Rests t ∧ run.Silent t ∧ (run.port t).isOpen = false ∧
      (run.state t).statemwi ≠ .gap2r ∧ (run.state t).statemwi ≠ .gap3r
  | .cooling =>
    run.Rests t ∧ run.Silent t ∧ (run.port t).isOpen = false ∧ (run.port t).cool = true ∧
      (run.state t).fillvDel1 = false ∧ (run.state t).statemwi = .gap3r ∧
      b0dCmd (run.port t).payload = cacheDcmdNegateLo
  | .answering1 =>
    run.Rests t ∧ (run.state t).sbblknxst = false ∧ (run.state t).rfillvPre1 = true ∧
      (run.state t).rfillv = false ∧ (run.state t).statemwi = .idle ∧
      run.Open t fun b0d =>
        b0dCmd b0d = cacheDcmdReadsglNm ∨ b0dCmd b0d = cacheDcmdReadsglLo
  | .answering0 =>
    run.Rests t ∧ (run.state t).sbblknxst = false ∧ (run.state t).rfillvPre1 = false ∧
      (run.state t).rfillv = true ∧ run.Open t fun b0d =>
        b0dCmd b0d ≠ cacheDcmdWritesglFa ∧
          ((run.state t).statemwi = .idle ∨ (run.state t).statemwi = .gap1 ∨
            b0dCmd b0d = cacheDcmdNegateLo ∧
              ((run.state t).statemwi = .gap2r ∨ (run.state t).statemwi = .gap3r))
  | .remembered =>
    run.Rests t ∧ (run.state t).sbblknxst = true ∧ (run.state t).rfillvPre1 = false ∧
      (run.state t).rfillv = false ∧ (run.state t).statemwi = .gap1 ∧
      run.Open t fun b0d => b0dCmd b0d ≠ 0b101
  | .filling =>
    (run.state t).statemcl = .rfill ∧ run.Silent t ∧ run.Fills t ∧ (run.state t).ryWe1 = 0xf ∧
      run.Open t fun b0d => b0dCmd b0d = cacheDcmdReadmiss
  | .missFilling =>
    (run.state t).statemcl = .wfill ∧ run.Silent t ∧ run.Fills t ∧
      run.Open t fun b0d => b0dCmd b0d = cacheDcmdWritemiss
  | .merging =>
    (run.state t).statemcl = .wtha ∧ run.Silent t ∧ (run.state t).statemwi = .idle ∧
      (run.state t).men = true ∧ (run.state t).mwr = true ∧ (run.state t).sbbufin = false ∧
      (run.state t).sbbufin2 = false ∧ (run.state t).ma0 = b0dAddr (run.port t).payload ∧
      (run.state t).sbwe = b0dWe (run.port t).payload ∧
      run.Open t fun b0d => b0dCmd b0d = cacheDcmdWritemiss
  | .reading =>
    (run.state t).statemcl = .rsg ∧ run.Silent t ∧ (run.state t).statemwi = .idle ∧
      (run.state t).men = true ∧ (run.state t).mwr = false ∧ (run.state t).sbwe = 0 ∧
      (run.state t).sbbufin = false ∧ (run.state t).sbbufin2 = false ∧
      (run.state t).ma0 = b0dAddr (run.port t).payload ∧
      run.Open t fun b0d => b0dCmd b0d = cacheDcmdReadsglNm ∨ b0dCmd b0d = cacheDcmdReadsglLo
  | .storing =>
    (run.state t).statemcl = .wsg ∧ run.Silent t ∧ run.Buffers t ∧ run.BuffersOpen t ∧
      ((run.state t).statemwi = .idle ∨ (run.state t).statemwi = .gap2r ∨
        (run.state t).statemwi = .gap3r) ∧
      run.Open t fun b0d => b0dCmd b0d = cacheDcmdWritesglSl
  | .early =>
    (run.state t).statemcl = .wthi ∧ run.Silent t ∧ run.Buffers t ∧ run.BuffersOpen t ∧
      ((run.state t).statemwi = .gap2r ∨ (run.state t).statemwi = .gap3r) ∧
      run.Open t fun b0d => b0dCmd b0d = cacheDcmdWritesglFa
  | .buffering =>
    (run.state t).statemcl = .wthi ∧ run.Silent t ∧ run.Buffers t ∧
      (run.state t).statemwi = .idle ∧ (run.port t).isOpen = false
  | .queued =>
    (run.state t).statemcl = .wthi ∧ (run.state t).sbblknxst = true ∧
      (run.state t).rfillvPre1 = false ∧ (run.state t).rfillv = false ∧ run.Buffers t ∧
      (run.state t).statemwi = .idle ∧ run.Open t fun b0d => b0dCmd b0d ≠ 0b101

end Holds

/-- The next mode in a run. -/
def nextMode (t : ℕ) (m : Mode) : Mode :=
  m.next (DcacheMcl.seen (run.state t) (run.clk t)) (b0dCmd (run.clk t).ctom.b0d)
    (run.state t).statemwi (run.clk t).ma.ack (DcacheMcl.cwLast (run.state t))

variable {run} {t : ℕ}

theorem state_succ (t : ℕ) : run.state (t + 1) = DcacheMcl.step (run.state t) (run.clk t) := rfl

theorem port_succ (t : ℕ) : run.port (t + 1) =
    match run.seen t with
    | some b0d => { isOpen := !run.completes t, payload := b0d, cool := run.completes t }
    | none =>
      { isOpen := (run.port t).isOpen && !run.completes t
        payload := (run.port t).payload
        cool := (run.port t).isOpen && run.completes t } := rfl

@[simp] theorem b0dWe_ne (b0d : BitVec 65) : b0dWe b0d ≠ 0b0101#4 := by
  rw [b0dWe]
  split
  · split <;> decide
  · split_ifs <;> decide
  · decide

attribute [local simp] DcacheMcl.nextStatemcl DcacheMcl.nextStatemwi DcacheMcl.sboutEn1w
  DcacheMcl.sboutEn1 DcacheMcl.seen DcacheMcl.sboutCmd DcacheMcl.sboutD DcacheMcl.sboutWe
  DcacheMcl.isWritesgl DcacheMcl.men DcacheMcl.mwr DcacheMcl.sbwe DcacheMcl.sbbufin
  DcacheMcl.sbbufin2 DcacheMcl.sbdata DcacheMcl.sbblknxst DcacheMcl.rfillvPre1 DcacheMcl.rfillv
  DcacheMcl.mtoc DcacheMcl.b0enr DcacheMcl.maAckG DcacheMcl.ma0 DcacheMcl.reqw DcacheMcl.ryWe1
  MclRun.completes MclRun.seen state_succ port_succ DcacheMcl.step

attribute [local simp] cacheDcmdReadmiss cacheDcmdNegateLo cacheDcmdReadsglNm
  cacheDcmdReadsglLo cacheDcmdWritemiss cacheDcmdWritesglFa cacheDcmdWritesglSl

/-! ### One clock -/

section Accept

/-- A command is taken over in clock `t`. -/
structure Takes (run : MclRun) (t : ℕ) : Prop where
  rests : run.Rests t
  pre : (run.state t).rfillvPre1 = false
  rfillv : (run.state t).rfillv = false
  gap : (run.state t).statemwi ≠ .gap2r ∧ (run.state t).statemwi ≠ .gap3r
  taken : DcacheMcl.sboutEn1 (run.state t) (run.clk t) = true
  lines : (run.clk t).ctom.b0en = false
  ack : (run.clk t).ma.ack = false
  payload : (run.port (t + 1)).payload = (run.clk t).ctom.b0d
  isOpen : (run.port (t + 1)).isOpen = !run.completes t

attribute [-simp] DcacheMcl.sboutEn1 port_succ

theorem takes_readmiss (takes : run.Takes t)
    (cmd : b0dCmd (run.clk t).ctom.b0d = cacheDcmdReadmiss) : run.Holds (t + 1) .filling := by
  obtain ⟨⟨h1, h2, h3, h4, h5, h6⟩, pre, rfillv, gap, taken, lines, ack, payload, isOpen⟩ := takes
  refine ⟨?_, ⟨?_, ?_, ?_⟩, ⟨?_, ?_, ?_, ?_, ?_, ?_, ?_, ?_⟩, ?_, ⟨?_, ?_, ?_⟩⟩
  all_goals cases gap : (run.state t).statemwi <;> simp_all

theorem takes_writemiss (takes : run.Takes t)
    (cmd : b0dCmd (run.clk t).ctom.b0d = cacheDcmdWritemiss) :
    run.Holds (t + 1) .missFilling := by
  obtain ⟨⟨h1, h2, h3, h4, h5, h6⟩, pre, rfillv, gap, taken, lines, ack, payload, isOpen⟩ := takes
  refine ⟨?_, ⟨?_, ?_, ?_⟩, ⟨?_, ?_, ?_, ?_, ?_, ?_, ?_, ?_⟩, ⟨?_, ?_, ?_⟩⟩
  all_goals cases gap : (run.state t).statemwi <;> simp_all

theorem takes_readsgl (takes : run.Takes t)
    (cmd : b0dCmd (run.clk t).ctom.b0d = cacheDcmdReadsglNm ∨
      b0dCmd (run.clk t).ctom.b0d = cacheDcmdReadsglLo) : run.Holds (t + 1) .reading := by
  obtain ⟨⟨h1, h2, h3, h4, h5, h6⟩, pre, rfillv, gap, taken, lines, ack, payload, isOpen⟩ := takes
  refine ⟨?_, ⟨?_, ?_, ?_⟩, ?_, ?_, ?_, ?_, ?_, ?_, ?_, ⟨?_, ?_, ?_⟩⟩
  all_goals cases gap : (run.state t).statemwi <;> rcases cmd with cmd | cmd <;> simp_all

theorem takes_writesglSl (takes : run.Takes t)
    (cmd : b0dCmd (run.clk t).ctom.b0d = cacheDcmdWritesglSl) : run.Holds (t + 1) .storing := by
  obtain ⟨⟨h1, h2, h3, h4, h5, h6⟩, pre, rfillv, gap, taken, lines, ack, payload, isOpen⟩ := takes
  refine ⟨?_, ⟨?_, ?_, ?_⟩, ⟨?_, ?_, ?_, ?_, ?_⟩, ⟨?_, ?_, ?_⟩, ?_, ⟨?_, ?_, ?_⟩⟩
  all_goals cases gap : (run.state t).statemwi <;> simp_all

theorem takes_negateLo (takes : run.Takes t)
    (cmd : b0dCmd (run.clk t).ctom.b0d = cacheDcmdNegateLo) : run.Holds (t + 1) .answering0 := by
  obtain ⟨⟨h1, h2, h3, h4, h5, h6⟩, pre, rfillv, gap, taken, lines, ack, payload, isOpen⟩ := takes
  refine ⟨⟨?_, ?_, ?_, ?_, ?_, ?_⟩, ?_, ?_, ?_, ⟨?_, ?_, ?_, ?_⟩⟩
  all_goals cases gap : (run.state t).statemwi <;> simp_all

/-- A fast store waits until the gap after the previous write is over. -/
theorem takes_writesglFa (takes : run.Takes t)
    (cmd : b0dCmd (run.clk t).ctom.b0d = cacheDcmdWritesglFa) : run.Holds (t + 1)
      (if (run.state t).statemwi = .gap1 ∨ (run.state t).statemwi = .gap2s then .early
        else .buffering) := by
  obtain ⟨⟨h1, h2, h3, h4, h5, h6⟩, pre, rfillv, gap, taken, lines, ack, payload, isOpen⟩ := takes
  split_ifs with early
  · refine ⟨?_, ⟨?_, ?_, ?_⟩, ⟨?_, ?_, ?_, ?_, ?_⟩, ⟨?_, ?_, ?_⟩, ?_, ⟨?_, ?_, ?_⟩⟩
    all_goals cases gap : (run.state t).statemwi <;> simp_all
  · refine ⟨?_, ⟨?_, ?_, ?_⟩, ⟨?_, ?_, ?_, ?_, ?_⟩, ?_, ?_⟩
    all_goals cases gap : (run.state t).statemwi <;> simp_all

theorem holds_accept (takes : run.Takes t) (command : b0dCmd (run.clk t).ctom.b0d ≠ 0b101) :
    run.Holds (t + 1) (.accept (b0dCmd (run.clk t).ctom.b0d) (run.state t).statemwi) := by
  rw [Mode.accept]
  by_cases c1 : b0dCmd (run.clk t).ctom.b0d = cacheDcmdReadmiss
  · rw [if_pos c1]
    exact takes_readmiss takes c1
  rw [if_neg c1]
  by_cases c2 : b0dCmd (run.clk t).ctom.b0d = cacheDcmdWritemiss
  · rw [if_pos c2]
    exact takes_writemiss takes c2
  rw [if_neg c2]
  by_cases c3 : b0dCmd (run.clk t).ctom.b0d = cacheDcmdReadsglNm ∨
      b0dCmd (run.clk t).ctom.b0d = cacheDcmdReadsglLo
  · rw [if_pos c3]
    exact takes_readsgl takes c3
  rw [if_neg c3]
  by_cases c4 : b0dCmd (run.clk t).ctom.b0d = cacheDcmdWritesglSl
  · rw [if_pos c4]
    exact takes_writesglSl takes c4
  rw [if_neg c4]
  by_cases c5 : b0dCmd (run.clk t).ctom.b0d = cacheDcmdNegateLo
  · rw [if_pos c5]
    exact takes_negateLo takes c5
  rw [if_neg c5]
  exact takes_writesglFa takes (writesglFa_of_ne c1 c2 c3 c4 c5 command)

end Accept

theorem holds_cooling (delivers : run.Delivers t) (h : run.Holds t .cooling) :
    run.Holds (t + 1) .free := by
  obtain ⟨⟨h1, h2, h3, h4, h5, h6⟩, ⟨h7, h8, h9⟩, hopen, hcool, hdel, hgap, hcmd⟩ := h
  obtain ⟨en, payload⟩ := delivers.lines (.inr hcool)
  refine ⟨⟨?_, ?_, ?_, ?_, ?_, ?_⟩, ⟨?_, ?_, ?_⟩, ?_, ?_, ?_⟩
  all_goals simp [*]

theorem holds_answering1 (delivers : run.Delivers t) (h : run.Holds t .answering1) :
    run.Holds (t + 1) .answering0 := by
  obtain ⟨⟨h1, h2, h3, h4, h5, h6⟩, h7, h8, h9, hgap, ⟨hopen, hdel, hcmd⟩⟩ := h
  obtain ⟨en, payload⟩ := delivers.lines (.inl hopen)
  refine ⟨⟨?_, ?_, ?_, ?_, ?_, ?_⟩, ?_, ?_, ?_, ⟨?_, ?_, ?_, ?_⟩⟩
  all_goals rcases hcmd with hcmd | hcmd <;> simp [*]

theorem holds_answering0 (delivers : run.Delivers t) (h : run.Holds t .answering0) :
    run.Holds (t + 1) (if (run.state t).statemwi = .gap2r then .cooling else .free) := by
  obtain ⟨⟨h1, h2, h3, h4, h5, h6⟩, h7, h8, h9, ⟨hopen, hdel, hcmd, hgap⟩⟩ := h
  obtain ⟨en, payload⟩ := delivers.lines (.inl hopen)
  rcases hgap with hgap | hgap | ⟨negate, hgap | hgap⟩
  all_goals first
    | rw [if_pos hgap]
      refine ⟨⟨?_, ?_, ?_, ?_, ?_, ?_⟩, ⟨?_, ?_, ?_⟩, ?_, ?_, ?_, ?_, ?_⟩
    | rw [if_neg (by simp [hgap])]
      refine ⟨⟨?_, ?_, ?_, ?_, ?_, ?_⟩, ⟨?_, ?_, ?_⟩, ?_, ?_, ?_⟩
  all_goals simp_all

theorem holds_reading (delivers : run.Delivers t) (h : run.Holds t .reading) :
    run.Holds (t + 1) (if (run.clk t).ma.ack then .answering1 else .reading) := by
  obtain ⟨h1, ⟨h7, h8, h9⟩, hgap, h2, h3, h4, h5, h6, ha, ⟨hopen, hdel, hcmd⟩⟩ := h
  obtain ⟨en, payload⟩ := delivers.lines (.inl hopen)
  split_ifs with ack
  · refine ⟨⟨?_, ?_, ?_, ?_, ?_, ?_⟩, ?_, ?_, ?_, ?_, ⟨?_, ?_, ?_⟩⟩
    all_goals rcases hcmd with hcmd | hcmd <;> simp [*]
  · refine ⟨?_, ⟨?_, ?_, ?_⟩, ?_, ?_, ?_, ?_, ?_, ?_, ?_, ⟨?_, ?_, ?_⟩⟩
    all_goals rcases hcmd with hcmd | hcmd <;> simp [*]

theorem holds_filling (delivers : run.Delivers t) (h : run.Holds t .filling) :
    run.Holds (t + 1) (if (run.clk t).ma.ack && DcacheMcl.cwLast (run.state t) then .answering0
      else .filling) := by
  obtain ⟨h1, ⟨h7, h8, h9⟩, ⟨hgap, h2, h3, h4, h5, h6, ma0, hr⟩, hwe, ⟨hopen, hdel, hcmd⟩⟩ := h
  obtain ⟨w, ha⟩ : ∃ w, (run.state t).ma0 = DcacheMcl.withWord (b0dAddr (run.port t).payload) w :=
    ⟨_, ma0⟩
  clear ma0
  obtain ⟨en, payload⟩ := delivers.lines (.inl hopen)
  split_ifs with last
  · rw [Bool.and_eq_true] at last
    refine ⟨⟨?_, ?_, ?_, ?_, ?_, ?_⟩, ?_, ?_, ?_, ⟨?_, ?_, ?_, ?_⟩⟩
    all_goals simp [*]
  · rw [Bool.and_eq_true, not_and, Bool.not_eq_true] at last
    cases ack : (run.clk t).ma.ack
    all_goals
      refine ⟨?_, ⟨?_, ?_, ?_⟩, ⟨?_, ?_, ?_, ?_, ?_, ?_, ?_, ?_⟩, ?_, ⟨?_, ?_, ?_⟩⟩
      all_goals simp [*]

theorem holds_missFilling (delivers : run.Delivers t) (h : run.Holds t .missFilling) :
    run.Holds (t + 1) (if (run.clk t).ma.ack && DcacheMcl.cwLast (run.state t) then .merging
      else .missFilling) := by
  obtain ⟨h1, ⟨h7, h8, h9⟩, ⟨hgap, h2, h3, h4, h5, h6, ma0, hr⟩, ⟨hopen, hdel, hcmd⟩⟩ := h
  obtain ⟨w, ha⟩ : ∃ w, (run.state t).ma0 = DcacheMcl.withWord (b0dAddr (run.port t).payload) w :=
    ⟨_, ma0⟩
  clear ma0
  obtain ⟨en, payload⟩ := delivers.lines (.inl hopen)
  split_ifs with last
  · rw [Bool.and_eq_true] at last
    refine ⟨?_, ⟨?_, ?_, ?_⟩, ?_, ?_, ?_, ?_, ?_, ?_, ?_, ⟨?_, ?_, ?_⟩⟩
    all_goals simp [*]
  · rw [Bool.and_eq_true, not_and, Bool.not_eq_true] at last
    cases ack : (run.clk t).ma.ack
    all_goals
      refine ⟨?_, ⟨?_, ?_, ?_⟩, ⟨?_, ?_, ?_, ?_, ?_, ?_, ?_, ?_⟩, ⟨?_, ?_, ?_⟩⟩
      all_goals simp [*]

theorem holds_merging (delivers : run.Delivers t) (h : run.Holds t .merging) :
    run.Holds (t + 1) (if (run.clk t).ma.ack then .answering0 else .merging) := by
  obtain ⟨h1, ⟨h7, h8, h9⟩, hgap, h2, h3, h5, h6, ha, h4, ⟨hopen, hdel, hcmd⟩⟩ := h
  obtain ⟨en, payload⟩ := delivers.lines (.inl hopen)
  split_ifs with ack
  · refine ⟨⟨?_, ?_, ?_, ?_, ?_, ?_⟩, ?_, ?_, ?_, ⟨?_, ?_, ?_, ?_⟩⟩
    all_goals simp [*]
  · refine ⟨?_, ⟨?_, ?_, ?_⟩, ?_, ?_, ?_, ?_, ?_, ?_, ?_, ⟨?_, ?_, ?_⟩⟩
    all_goals simp [*]

theorem holds_storing (delivers : run.Delivers t) (h : run.Holds t .storing) :
    run.Holds (t + 1) (if (run.clk t).ma.ack then .answering0 else .storing) := by
  have asked := delivers.asked
  obtain ⟨h1, ⟨h7, h8, h9⟩, ⟨h5, h6, h2, h3, h4⟩, ⟨ha, hw, hd⟩, hgap, ⟨hopen, hdel, hcmd⟩⟩ := h
  obtain ⟨en, payload⟩ := delivers.lines (.inl hopen)
  split_ifs with ack
  · have hgap : (run.state t).statemwi = .idle := by simpa [h2] using asked ack
    refine ⟨⟨?_, ?_, ?_, ?_, ?_, ?_⟩, ?_, ?_, ?_, ⟨?_, ?_, ?_, ?_⟩⟩
    all_goals simp_all
  · clear asked
    refine ⟨?_, ⟨?_, ?_, ?_⟩, ⟨?_, ?_, ?_, ?_, ?_⟩, ⟨?_, ?_, ?_⟩, ?_, ⟨?_, ?_, ?_⟩⟩
    all_goals rcases hgap with hgap | hgap | hgap <;> simp_all

theorem holds_early (delivers : run.Delivers t) (h : run.Holds t .early) :
    run.Holds (t + 1) (if (run.state t).statemwi = .gap3r then .buffering else .early) := by
  have asked := delivers.asked
  obtain ⟨h1, ⟨h7, h8, h9⟩, ⟨h5, h6, h2, h3, h4⟩, ⟨ha, hw, hd⟩, hgap, ⟨hopen, hdel, hcmd⟩⟩ := h
  obtain ⟨en, payload⟩ := delivers.lines (.inl hopen)
  have ack : (run.clk t).ma.ack = false := by
    rw [h2] at asked
    rcases hgap with hgap | hgap <;> simpa [hgap] using asked
  split_ifs with gap
  · refine ⟨?_, ⟨?_, ?_, ?_⟩, ⟨?_, ?_, ?_, ?_, ?_⟩, ?_, ?_⟩
    all_goals simp_all
  · have gap := hgap.resolve_right gap
    refine ⟨?_, ⟨?_, ?_, ?_⟩, ⟨?_, ?_, ?_, ?_, ?_⟩, ⟨?_, ?_, ?_⟩, ?_, ⟨?_, ?_, ?_⟩⟩
    all_goals simp_all

theorem holds_queued (delivers : run.Delivers t) (h : run.Holds t .queued) :
    run.Holds (t + 1) (if (run.clk t).ma.ack then .remembered else .queued) := by
  obtain ⟨h1, h7, h8, h9, ⟨h5, h6, h2, h3, h4⟩, hgap, ⟨hopen, hdel, hcmd⟩⟩ := h
  obtain ⟨en, payload⟩ := delivers.lines (.inl hopen)
  split_ifs with ack
  · refine ⟨⟨?_, ?_, ?_, ?_, ?_, ?_⟩, ?_, ?_, ?_, ?_, ⟨?_, ?_, ?_⟩⟩
    all_goals simp_all
  · refine ⟨?_, ?_, ?_, ?_, ⟨?_, ?_, ?_, ?_, ?_⟩, ?_, ⟨?_, ?_, ?_⟩⟩
    all_goals simp_all

theorem seen_eq_some {b0d : BitVec 65} (h : run.seen t = some b0d) :
    DcacheMcl.seen (run.state t) (run.clk t) = true ∧ (run.clk t).ctom.b0d = b0d := by
  rw [MclRun.seen] at h
  split_ifs at h with arrives
  exact ⟨arrives, Option.some.inj h⟩

theorem seen_eq_none (h : run.seen t = none) :
    DcacheMcl.seen (run.state t) (run.clk t) = false := by
  rw [MclRun.seen] at h
  split_ifs at h with arrives
  exact Bool.eq_false_of_not_eq_true arrives

theorem holds_buffering (delivers : run.Delivers t) (h : run.Holds t .buffering) :
    run.Holds (t + 1) (if (run.clk t).ma.ack then
        if DcacheMcl.seen (run.state t) (run.clk t) then .remembered else .free
      else if DcacheMcl.seen (run.state t) (run.clk t) then .queued else .buffering) := by
  have command := delivers.command
  obtain ⟨h1, ⟨h7, h8, h9⟩, ⟨h5, h6, h2, h3, h4⟩, hgap, hopen⟩ := h
  split_ifs with ack arrives arrives
  · refine ⟨⟨?_, ?_, ?_, ?_, ?_, ?_⟩, ?_, ?_, ?_, ?_, ⟨?_, ?_, ?_⟩⟩
    all_goals simp_all
  · have quiet : run.seen t = none := if_neg arrives
    refine ⟨⟨?_, ?_, ?_, ?_, ?_, ?_⟩, ⟨?_, ?_, ?_⟩, ?_, ?_, ?_⟩
    all_goals simp_all [-DcacheMcl.seen, -MclRun.seen]
  · refine ⟨?_, ?_, ?_, ?_, ⟨?_, ?_, ?_, ?_, ?_⟩, ?_, ⟨?_, ?_, ?_⟩⟩
    all_goals simp_all
  · have quiet : run.seen t = none := if_neg arrives
    refine ⟨?_, ⟨?_, ?_, ?_⟩, ⟨?_, ?_, ?_, ?_, ?_⟩, ?_, ?_⟩
    all_goals simp_all [-DcacheMcl.seen, -MclRun.seen]

theorem ack_of_men (delivers : run.Delivers t) (men : (run.state t).men = false) :
    (run.clk t).ma.ack = false := by
  have asked := delivers.asked
  rw [men] at asked
  exact Bool.eq_false_of_not_eq_true fun h => Bool.false_ne_true (asked h)

/-- A command that is remembered is taken over. -/
theorem takes_of_remembered (delivers : run.Delivers t) (h : run.Holds t .remembered) :
    run.Takes t ∧ b0dCmd (run.clk t).ctom.b0d ≠ 0b101 := by
  obtain ⟨rests, h7, h8, h9, hgap, ⟨hopen, hdel, hcmd⟩⟩ := h
  obtain ⟨en, payload⟩ := delivers.lines (Or.inl hopen)
  have quiet : run.seen t = none := by simp [hdel]
  refine ⟨⟨rests, h8, h9, ?_, ?_, en, ack_of_men delivers rests.men, ?_, ?_⟩, payload ▸ hcmd⟩
  · simp [hgap]
  · simp [rests.statemcl, h7]
  · rw [port_succ, quiet, payload]
  · rw [port_succ, quiet, hopen, Bool.true_and]

/-- So is one that arrives with nothing to do. -/
theorem takes_of_free (delivers : run.Delivers t) (h : run.Holds t .free)
    (arrives : DcacheMcl.seen (run.state t) (run.clk t) = true) :
    run.Takes t ∧ b0dCmd (run.clk t).ctom.b0d ≠ 0b101 := by
  obtain ⟨rests, ⟨h7, h8, h9⟩, hopen, gap, gap'⟩ := h
  have ack := ack_of_men delivers rests.men
  have some : run.seen t = some (run.clk t).ctom.b0d := if_pos arrives
  refine ⟨⟨rests, h8, h9, ⟨gap, gap'⟩, ?_, ?_, ack, ?_, ?_⟩, delivers.command _ some⟩
  · rw [DcacheMcl.sboutEn1, arrives, rests.statemcl]
    rfl
  · rw [DcacheMcl.seen] at arrives
    simpa using (Bool.and_eq_true_iff.mp arrives).1
  · rw [port_succ, some]
  · rw [port_succ, some]

theorem holds_remembered (delivers : run.Delivers t) (h : run.Holds t .remembered) :
    run.Holds (t + 1) (.accept (b0dCmd (run.clk t).ctom.b0d) (run.state t).statemwi) := by
  obtain ⟨takes, command⟩ := takes_of_remembered delivers h
  exact holds_accept takes command

theorem holds_free (delivers : run.Delivers t) (h : run.Holds t .free) :
    run.Holds (t + 1) (if DcacheMcl.seen (run.state t) (run.clk t) then
      .accept (b0dCmd (run.clk t).ctom.b0d) (run.state t).statemwi else .free) := by
  split_ifs with arrives
  · obtain ⟨takes, command⟩ := takes_of_free delivers h arrives
    exact holds_accept takes command
  · obtain ⟨⟨h1, h2, h3, h4, h5, h6⟩, ⟨h7, h8, h9⟩, hopen, gap, gap'⟩ := h
    have ack := ack_of_men delivers h2
    have quiet : run.seen t = none := if_neg arrives
    refine ⟨⟨?_, ?_, ?_, ?_, ?_, ?_⟩, ⟨?_, ?_, ?_⟩, ?_, ?_, ?_⟩
    all_goals cases gap : (run.state t).statemwi <;>
      simp_all [-DcacheMcl.seen, -MclRun.seen]

/-- What one clock does. -/
theorem holds_succ (delivers : run.Delivers t) {m : Mode} (h : run.Holds t m) :
    run.Holds (t + 1) (run.nextMode t m) := by
  cases m with
  | free => exact holds_free delivers h
  | cooling => exact holds_cooling delivers h
  | answering0 => exact holds_answering0 delivers h
  | answering1 => exact holds_answering1 delivers h
  | remembered => exact holds_remembered delivers h
  | filling => exact holds_filling delivers h
  | missFilling => exact holds_missFilling delivers h
  | merging => exact holds_merging delivers h
  | reading => exact holds_reading delivers h
  | storing => exact holds_storing delivers h
  | early => exact holds_early delivers h
  | buffering => exact holds_buffering delivers h
  | queued => exact holds_queued delivers h

theorem holds_zero : run.Holds 0 .free := by
  refine ⟨⟨?_, ?_, ?_, ?_, ?_, ?_⟩, ⟨?_, ?_, ?_⟩, ?_, ?_, ?_⟩
  all_goals simp [state, port, dcacheMclRegReset]

variable (run) in
/-- What the memory side is doing in clock `t`. -/
def mode : ℕ → Mode
  | 0 => .free
  | t + 1 => run.nextMode t (mode t)

/-- In every clock the registers are those of the mode. -/
theorem holds_mode (delivered : run.Delivered) (t : ℕ) : run.Holds t (run.mode t) := by
  induction t with
  | zero => exact holds_zero
  | succ t ih => exact holds_succ (delivered t) ih

end MclRun

end JCore
