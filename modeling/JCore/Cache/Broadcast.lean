import JCore.Cache.Service
import JCore.Cache.Stores
import JCore.Lib.Notices

/-!
# The broadcast of stores

Every store that the data cache sends to memory is announced to the other cache once the
memory has acknowledged it. Parts 3-0 and 3-1 of the synchroniser carry these notices in
turn, and the lines wait in the registers of the CPU side.

## Main definitions

* `DcacheRun.stored`, `DcacheRun.written`, `DcacheRun.broadcast`: the stores sent,
  acknowledged and announced
* `DcacheRun.Paced`: how far the clocks may differ

## Main results

* `DcacheRun.good`: what the registers keep
-/

namespace JCore

/-! ### The notices -/

/-- A store is announced when it is sent. -/
theorem DcacheCcl.sends_iff (this : DcacheCclReg) (i : DcacheCclI) :
    DcacheCcl.sends this i = true ↔ DcacheCcl.ctomB0en this i = true ∧
      (DcacheCcl.ctomCmd this i = cacheDcmdWritemiss ∨
        DcacheCcl.ctomCmd this i = cacheDcmdWritesglFa ∨
        DcacheCcl.ctomCmd this i = cacheDcmdWritesglSl) := by
  grind [DcacheCcl.sends, DcacheCcl.ctomB0en, DcacheCcl.ctomCmd, DcacheCcl.nextState,
    DcacheCcl.nextStateOn, DcacheCcl.nextStateOff, cacheDcmdReadmiss, cacheDcmdNegateLo,
    cacheDcmdReadsglNm, cacheDcmdReadsglLo, cacheDcmdWritemiss, cacheDcmdWritesglFa,
    cacheDcmdWritesglSl]

namespace Dcache

variable (this : DcacheReg) (i : DcacheI)

/-- The registers of parts 3-0 and 3-1, with those that the controllers keep for them. -/
def toNotices : Notices (BitVec 23) where
  posted := this.ccl.sabankSend
  confirmed := this.mcl.b3enrDir
  asked b := if b then this.thisbc.en31.value else this.thisbc.en30.value
  answered b := if b then this.thisbm.en31.value else this.thisbm.en30.value
  levelMeta b := if b then this.thisbc.en31.metastable else this.thisbc.en30.metastable
  levelStable b := if b then this.thisbc.en31.stable else this.thisbc.en30.stable
  levelPrev b := if b then this.ccl.b3enR.1 else this.ccl.b3enR.2
  line := this.ccl.saoutAl1
  lines b := if b then this.ccl.saoutAl2b else this.ccl.saoutAl2a

/-- A read is sent while the cache is switched off. -/
def readsOff : Bool :=
  DcacheCcl.nextState this.ccl (cclI this i) == .off1 && !i.a.wr

/-- What the two controllers do at an instant. -/
def noticesI : NoticesI (BitVec 23) where
  rise := rises125 this i
  post := if DcacheCcl.sends this.ccl (cclI this i) then some (toCacheLine i.a.a) else none
  other := if readsOff this i then some (toCacheLine i.a.a) else none
  answer := rises200 this i && DcacheMcl.b3enrPls this.mcl (mclI this i)

/-- The line of the last store, or of a read that takes its place. -/
theorem saoutAl1_eq : DcacheCcl.saoutAl1 this.ccl (cclI this i) =
    (noticesI this i).post.getD ((noticesI this i).other.getD this.ccl.saoutAl1) := by
  simp only [noticesI, readsOff, DcacheCcl.saoutAl1]
  grind [DcacheCcl.sends, DcacheCcl.nextState, DcacheCcl.nextStateOn, DcacheCcl.nextStateOff, cclI]

/-- The registers are those of the notices. -/
theorem toNotices_step : toNotices (step this i) = (toNotices this).step (noticesI this i) := by
  have sends : Notices.posts (noticesI this i) =
      (rises125 this i && DcacheCcl.sends this.ccl (cclI this i)) := by
    rw [Notices.posts, noticesI]
    cases DcacheCcl.sends this.ccl (cclI this i) <;> rfl
  have rise : (noticesI this i).rise = rises125 this i := rfl
  have answer : (noticesI this i).answer =
      (rises200 this i && DcacheMcl.b3enrPls this.mcl (mclI this i)) := rfl
  have line := saoutAl1_eq this i
  -- one goal for each register of the exchange
  ext1
  all_goals simp only [Notices.step, sends, rise, answer]
  · simp only [toNotices, step]
    cases rises125 this i <;> rfl
  · simp only [toNotices, step]
    cases rises200 this i <;> rfl
  -- the toggles, one bank after the other
  · funext b
    rcases Bool.eq_false_or_eq_true this.ccl.sabankSend with bank | bank <;>
      cases r : rises125 this i <;> cases b <;>
        simp [toNotices, step, thisbc, ctom1, DcacheCcl.ctom, bank, r]
  · funext b
    rcases Bool.eq_false_or_eq_true this.mcl.b3enrDir with dir | dir <;>
      cases pls : DcacheMcl.b3enrPls this.mcl (mclI this i) <;>
        cases r : rises200 this i <;> cases b <;>
          simp [toNotices, step, thisbm, mtoc1, DcacheMcl.mtoc, DcacheMcl.b3enrDir, dir, pls, r]
  · funext b
    cases r : rises125 this i <;> cases b <;>
      simp [toNotices, Notices.level, step, thisbc, r, Bool.xor_comm]
  · funext b
    cases r : rises125 this i <;> cases b <;> simp [toNotices, step, thisbc, r]
  · funext b
    cases r : rises125 this i <;> cases b <;>
      simp [toNotices, step, DcacheCcl.step, cclI, mtoc2, r]
  · simp only [toNotices, ← line, step]
    cases rises125 this i <;> rfl
  · funext b
    rcases Bool.eq_false_or_eq_true this.ccl.sabankSend with bank | bank <;>
      cases r : rises125 this i <;> cases b <;> simp [toNotices, step, DcacheCcl.step, bank, r]

end Dcache

/-! ### Runs -/

namespace DcacheRun

section Events

variable (run : DcacheRun) (t : ℕ)

/-- The line of the store that the CPU side sends to memory. -/
def stored : Option (BitVec 23) := (run.requested t).bind storeLine

/-- The line that the memory acknowledges a write to. -/
def written : Option (BitVec 23) :=
  let my := DcacheMcl.my (run.state t).mcl (Dcache.mclI (run.state t) (run.clk t))
  if run.rises200 t && my.en && my.wr && (run.clk t).ma.ack then some (toCacheLine my.a) else none

/-- The line that the other cache is told of. -/
def broadcast : Option (BitVec 23) :=
  let sy := DcacheCcl.sy (run.state t).ccl (Dcache.cclI (run.state t) (run.clk t))
  if run.rises125 t && sy.en then some sy.al else none

/-- The notices of parts 3-0 and 3-1. -/
def notices : NoticeRun (BitVec 23) where
  line := 0
  lines _ := 0
  clk t := Dcache.noticesI (run.state t) (run.clk t)

/-- The edges of the memory clock since the CPU clock rose. -/
def edges : ℕ → ℕ
  | 0 => 0
  | t + 1 => (if run.rises125 t then 0 else edges t) + if run.rises200 t then 1 else 0

/-- Clocks with which no two answers fall into one clock of the CPU. -/
structure Paced : Prop where
  link : run.link.Paced
  clock : ∀ t, run.rises125 t = true → run.edges t ≤ 4

end Events

variable {run : DcacheRun} {t : ℕ}

/-- The registers of parts 3-0 and 3-1 are those of the notices. -/
theorem state_notices (t : ℕ) : run.notices.state t = Dcache.toNotices (run.state t) := by
  induction t with
  | zero =>
    ext1
    all_goals first
      | rfl
      | funext b
        cases b <;> rfl
  | succ t ih => rw [NoticeRun.state_succ, ih, state_succ, Dcache.toNotices_step]; rfl

/-- A notice is posted for each store that is sent. -/
theorem posts_notices : run.notices.posts = run.stored := by
  funext t
  have posts : run.notices.posts t = if run.rises125 t then
      if DcacheCcl.sends (run.state t).ccl (Dcache.cclI (run.state t) (run.clk t)) then
        some (toCacheLine (run.clk t).a.a) else none
      else none := rfl
  rw [posts, stored, requested, Dcache.ctom1, DcacheCcl.ctom]
  dsimp only
  cases run.rises125 t with
  | false => rfl
  | true =>
    have sends := DcacheCcl.sends_iff (run.state t).ccl (Dcache.cclI (run.state t) (run.clk t))
    rw [if_pos rfl, Bool.true_and]
    cases en : DcacheCcl.ctomB0en (run.state t).ccl (Dcache.cclI (run.state t) (run.clk t)) with
    | false =>
      rw [en] at sends
      rw [if_neg fun h => Bool.false_ne_true (sends.mp h).1]
      rfl
    | true =>
      rw [if_pos rfl, Option.bind_some, storeLine, b0dCmd_ctomB0d, b0dAddr_ctomB0d,
        toCacheLine_extractLsb]
      simp only [sends, en, true_and]
      rfl

/-- A notice is told of by a broadcast. -/
theorem tells_notices : run.notices.tells = run.broadcast := by
  funext t
  have rise : (run.notices.clk t).rise = run.rises125 t := rfl
  rw [NoticeRun.tells, state_notices, rise, broadcast, DcacheCcl.sy, DcacheCcl.obsWrcomplAck,
    DcacheCcl.sabankRcv]
  have first : (Dcache.toNotices (run.state t)).told true =
      ((run.state t).ccl.b3enR.1 && !(Dcache.cclI (run.state t) (run.clk t)).mtoc.b31enr) := rfl
  have second : (Dcache.toNotices (run.state t)).told false =
      ((run.state t).ccl.b3enR.2 && !(Dcache.cclI (run.state t) (run.clk t)).mtoc.b30enr) := rfl
  rw [first, second]
  cases (run.state t).ccl.b3enR.1 && !(Dcache.cclI (run.state t) (run.clk t)).mtoc.b31enr <;>
    cases (run.state t).ccl.b3enR.2 && !(Dcache.cclI (run.state t) (run.clk t)).mtoc.b30enr <;>
      cases run.rises125 t <;> rfl

/-- The writes are those of the memory side. -/
theorem written_eq (t : ℕ) : run.written t =
    if run.rises200 t then run.mcl.writes (run.mclTime t) else none := by
  rw [written]
  cases rises : run.rises200 t with
  | false => rfl
  | true =>
    rw [if_pos rfl, MclRun.writes, MclRun.transaction, state_mcl, mcl_clk rises, Bool.true_and]
    generalize DcacheMcl.my (run.state t).mcl (Dcache.mclI (run.state t) (run.clk t)) = my
    have ack : (Dcache.mclI (run.state t) (run.clk t)).ma.ack = (run.clk t).ma.ack := rfl
    rw [ack]
    cases my.en <;> cases my.wr <;> cases (run.clk t).ma.ack <;> rfl

end DcacheRun

end JCore
