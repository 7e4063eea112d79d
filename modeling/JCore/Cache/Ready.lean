import JCore.Cache.Lines

/-!
# The word that is ready

While the cache is on and no line is being filled the CPU is answered with a word that has
been read before its fetch is known: that of the last fetch, or the next one if the last
fetch took the lower half. The tag that decides whether the fetch hits is that of the last
fetch, which is in the same line.

## Main definitions

* `IcacheAdapterRun.word`: the word that is ready
* `IcacheAdapterRun.Ready`: what it is, and what is known of its tag

## Main results

* `IcacheAdapterRun.ready`: it holds whenever the cache is idle
* `IcacheAdapterRun.hit`: the answer to a fetch that hits
-/

namespace JCore

open IcacheCcl (halfWord)

namespace IcacheAdapterRun

variable {tagRam : TagRam1rw} {dataRam : DataRam2rw} (run : IcacheAdapterRun tagRam dataRam)
  (mem : ℕ → BitVec 26 → BitVec 32) (t : ℕ)

/-- The word that the CPU side has. -/
def word : BitVec 32 :=
  if (run.icache.ccl t).aenDel1 && (run.icache.ccl t).ryEn0 then (run.out t).d0
  else (run.icache.ccl t).dw

/-- What the CPU side has of the line of the last fetch. -/
structure Ready : Prop where
  tag : (run.icache.ccl t).aenDel1 = true →
    (run.out t).tag = run.tagCell t (toCacheIndex (run.icache.ccl t).aPrev.a)
  /-- the result of the comparison is kept for the fetch that was acknowledged with it -/
  hit : run.icache.pending t = none → (run.icache.ccl t).cHitstate = true →
    run.tagCell t (toCacheIndex (run.icache.ccl t).aPrev.a) =
      toCacheTag (run.icache.ccl t).aPrev.a
  word : run.word t = run.dataCell t (toCacheIndex (run.icache.ccl t).aPrev.a ++
    (toCacheWord (run.icache.ccl t).aPrev.a + if (run.icache.ccl t).prefInc then 1 else 0))
  /-- the next word is read after the lower half of one -/
  ahead : (run.icache.ccl t).prefInc = true → (run.icache.ccl t).aPrev.a.getLsbD 1 = true
  behind : (run.icache.ccl t).prefInc = false → (run.icache.ccl t).aPrev.a.getLsbD 1 = true →
    run.icache.pending t ≠ none

variable {run mem t}

/-- What it takes for a fetch to follow the last one. -/
theorem follows_of_seqequ {this : IcacheCclReg} {i : IcacheCclI}
    (seq : IcacheCcl.adrsSeqequ this i = true) :
    toCacheLine i.a.a = toCacheLine this.aPrev.a ∧ this.aPrevV = true ∧
      (this.prefInc = true → i.a.a.getLsbD 1 = false) ∧
      (halfWord i.a.a = halfWord this.aPrev.a + 1 ∨ halfWord i.a.a = halfWord this.aPrev.a) := by
  rw [IcacheCcl.adrsSeqequ] at seq
  split_ifs at seq with both
  rw [IcacheCcl.adrsEqucacheli, Bool.and_eq_true, Bool.and_eq_true, Bool.or_eq_true,
    Bool.and_eq_true, beq_iff_eq, beq_iff_eq, beq_iff_eq] at seq
  obtain ⟨⟨line, valid⟩, near⟩ := seq
  refine ⟨line.symm, valid, fun pref => ?_, ?_⟩
  · rw [pref, Bool.true_and] at both
    exact Bool.eq_false_of_not_eq_true both
  · rcases near with ⟨succ, -⟩ | same
    · exact .inl succ.symm
    · exact .inr same.symm

/-- A fetch that follows the last one finds its word ready. -/
theorem Ready.word_eq (ready : run.Ready t) (held : run.icache.Held)
    (rises : run.icache.rises125 t = true)
    (seq : IcacheCcl.adrsSeqequ (run.icache.ccl t) (run.icache.cclI t) = true) :
    run.word t = run.dataCell t
        (toCacheIndex (run.clk t).a.a ++ toCacheWord (run.clk t).a.a) := by
  obtain ⟨line, -, lower, near⟩ := follows_of_seqequ seq
  have address : (run.icache.cclI t).a.a = (run.clk t).a.a := rfl
  rw [address] at line lower near
  have same : toCacheWord (run.icache.ccl t).aPrev.a +
      (if (run.icache.ccl t).prefInc then 1 else 0) = toCacheWord (run.clk t).a.a := by
    cases pref : (run.icache.ccl t).prefInc with
    | true =>
      have upper := ready.ahead pref
      have lower := lower pref
      rcases near with succ | same
      · rw [(word_of_halfWord_succ succ).1, upper]
        rfl
      · rw [(word_of_halfWord_eq same).2, upper] at lower
        cases lower
    | false =>
      rw [if_neg Bool.false_ne_true]
      change _ + 0#3 = _
      rw [BitVec.add_zero]
      rcases near with succ | same
      · cases upper : (run.icache.ccl t).aPrev.a.getLsbD 1 with
        | false =>
          rw [(word_of_halfWord_succ succ).1, upper]
          rfl
        | true =>
          -- without a word read ahead the last fetch is still there
          obtain ⟨a, pending⟩ := Option.ne_none_iff_exists'.mp (ready.behind pref upper)
          have last := ((IcacheRun.waits held t).pending a pending).2.2
          have fetch : (run.clk t).a = a := held t rises a pending
          rw [fetch, ← last] at succ
          exact absurd succ.symm (halfWord_succ_ne _)
      · exact (word_of_halfWord_eq same).1.symm
  rw [ready.word, same, index_of_line line]

/-- The comparison of a hit is with the tag of the last fetch. -/
theorem Ready.tag_of_cachehit (ready : run.Ready t) (held : run.icache.Held)
    (hit : IcacheCcl.cachehit (run.icache.ccl t) (run.icache.cclI t) = true) :
    run.tagCell t (toCacheIndex (run.icache.ccl t).aPrev.a) =
        toCacheTag (run.icache.ccl t).aPrev.a ∧
      (run.icache.ccl t).ffv (toCacheIndex (run.clk t).a.a) = true := by
  have out : (run.icache.cclI t).ra = run.out t := rfl
  rw [IcacheCcl.cachehit, Bool.and_eq_true, Bool.or_eq_true, Bool.and_eq_true, Bool.and_eq_true,
    Bool.not_eq_true', beq_iff_eq, out] at hit
  refine ⟨?_, hit.2⟩
  rcases hit.1 with ⟨aenDel1, same⟩ | ⟨aenDel1, kept⟩
  · rw [← ready.tag aenDel1, same]
  · refine ready.hit ?_ kept
    by_contra some
    obtain ⟨a, pending⟩ := Option.ne_none_iff_exists'.mp some
    have on := ((IcacheRun.waits held t).pending a pending).2.1
    exact Bool.false_ne_true (aenDel1.symm.trans on)

/-! ### One clock of the CPU side -/

theorem tagCell_of_ne_miss1 (lawful : tagRam.Lawful) (h : (run.icache.ccl t).state ≠ .miss1) :
    run.tagCell (t + 1) = run.tagCell t := by
  rw [tagCell_succ lawful, beq_eq_false_iff_ne.mpr h, Bool.and_false]
  rfl

/-- The address of the last fetch is valid for a cache that is on, outside of the last state
of a miss. -/
theorem valid_of_step {this : IcacheCclReg} {i : IcacheCclI}
    (h : (IcacheCcl.step this i).aPrevV = true) :
    this.icOnm = true ∧ this.state ≠ .miss3 ∧ (i.a.en = false → this.aPrevV = true) := by
  have valid : IcacheCcl.aPrevV this i = true := h
  grind [IcacheCcl.aPrevV]

/-- The cache stays idle, or the line has been read before the CPU had its half word. -/
theorem idle_or_read {this : IcacheCclReg} {i : IcacheCclI} (switched : IcacheCcl.Switched this)
    (onm : this.icOnm = true) (last : this.state ≠ .miss3)
    (next : IcacheCcl.nextState this i = .idle) :
    this.state = .idle ∨ this.state = .miss2 ∧ IcacheCcl.filllineHit this i = false ∧
      IcacheCcl.yAckOff this i = true := by
  grind [IcacheCcl.Switched, IcacheCcl.nextState, IcacheCcl.nextStateOn]

section Clock

variable (tagLawful : tagRam.Lawful) (dataLawful : dataRam.Lawful)

include tagLawful dataLawful

/-- The word of a fetch that is not answered is read, with its tag. -/
theorem ready_of_read (rises : run.icache.rises125 t = true)
    (settled : run.icache.phase t = .settled) (miss : (run.icache.ccl t).state ≠ .miss1)
    (en : (run.clk t).a.en = true)
    (early : (IcacheCcl.yAckBeforetI (run.icache.ccl t) (run.icache.cclI t) ||
      IcacheCcl.yAckBeforetD (run.icache.ccl t) (run.icache.cclI t)) = false)
    (unacked : (run.icache.y t).ack = false)
    (read : IcacheCcl.ryEn0 (run.icache.ccl t) (run.icache.cclI t) = true) :
    run.Ready (t + 1) := by
  -- the fetch is kept, and its word is read from the lower bank
  have aPrev : (run.icache.ccl (t + 1)).aPrev = (run.clk t).a := by
    rw [IcacheRun.ccl_of_rises rises]
    exact if_pos en
  have aenDel1 : (run.icache.ccl (t + 1)).aenDel1 = true := by
    rw [IcacheRun.ccl_of_rises rises]
    exact en
  have ryEn0 : (run.icache.ccl (t + 1)).ryEn0 = true := by
    rw [IcacheRun.ccl_of_rises rises]
    exact read
  have prefInc : (run.icache.ccl (t + 1)).prefInc = false := by
    rw [IcacheRun.ccl_of_rises rises]
    change IcacheCcl.prefInc _ _ = false
    have fetch : (run.icache.cclI t).a.en = true := en
    rw [IcacheCcl.prefInc, early, fetch]
    simp
  -- it is not acknowledged yet, so there is no hit to account for
  have pending : run.icache.pending (t + 1) ≠ none := by
    have fetch : (run.icache.clk t).a.en = true := en
    rw [IcacheRun.pending_of_rises rises, fetch, unacked]
    exact Option.some_ne_none _
  constructor
  · intro _
    rw [aPrev, tag_succ tagLawful rises miss, tagCell_of_ne_miss1 tagLawful miss]
  · exact fun none => absurd none pending
  · rw [word, aenDel1, ryEn0, prefInc, aPrev, Bool.true_and, if_pos rfl,
      d0_succ dataLawful rises read (men_of_settled settled),
      dataCell_of_settled dataLawful settled, IcacheCcl.a0, early, Bool.false_and,
      if_neg Bool.false_ne_true, if_neg Bool.false_ne_true]
    exact congrArg (fun x : BitVec 3 => run.dataCell t (toCacheIndex (run.clk t).a.a ++ x))
      (BitVec.add_zero _).symm
  · exact fun ahead => absurd (prefInc.symm.trans ahead) Bool.false_ne_true
  · exact fun _ _ => pending

/-- Without a clock edge of the CPU nothing changes. -/
theorem Ready.keep (ready : run.Ready t) (rises : run.icache.rises125 t = false)
    (settled : run.icache.phase t = .settled) (miss : (run.icache.ccl t).state ≠ .miss1) :
    run.Ready (t + 1) := by
  obtain ⟨tag, hit, data, ahead, behind⟩ := ready
  rw [IcacheAdapterRun.word] at data
  constructor
  · rw [IcacheRun.ccl_of_not_rises rises, tag_keep rises, tagCell_of_ne_miss1 tagLawful miss]
    exact tag
  · rw [IcacheRun.ccl_of_not_rises rises, IcacheRun.pending_of_not_rises rises,
      tagCell_of_ne_miss1 tagLawful miss]
    exact hit
  · rw [IcacheAdapterRun.word, IcacheRun.ccl_of_not_rises rises, d0_keep dataLawful rises,
      dataCell_of_settled dataLawful settled]
    exact data
  · rw [IcacheRun.ccl_of_not_rises rises]
    exact ahead
  · rw [IcacheRun.ccl_of_not_rises rises, IcacheRun.pending_of_not_rises rises]
    exact behind

/-- Without a fetch the word that is ready is kept. -/
theorem Ready.wait (ready : run.Ready t) (held : run.icache.Held)
    (rises : run.icache.rises125 t = true) (onm : (run.icache.ccl t).icOnm = true)
    (settled : run.icache.phase t = .settled) (idle : (run.icache.ccl t).state = .idle)
    (en : (run.clk t).a.en = false) : run.Ready (t + 1) := by
  have miss : (run.icache.ccl t).state ≠ .miss1 := by rw [idle]; simp
  have fetch : (run.icache.cclI t).a.en = false := en
  -- nothing is pending, since a pending fetch would be held
  have free : run.icache.pending t = none := by
    by_contra some
    obtain ⟨a, pending⟩ := Option.ne_none_iff_exists'.mp some
    have same : (run.clk t).a = a := held t rises a pending
    rw [same, ((IcacheRun.waits held t).pending a pending).1] at en
    cases en
  have aPrev : (run.icache.ccl (t + 1)).aPrev = (run.icache.ccl t).aPrev := by
    rw [IcacheRun.ccl_of_rises rises]
    exact if_neg (Bool.eq_false_iff.mp en)
  have aenDel1 : (run.icache.ccl (t + 1)).aenDel1 = false := by
    rw [IcacheRun.ccl_of_rises rises]
    exact en
  have prefInc : (run.icache.ccl (t + 1)).prefInc = (run.icache.ccl t).prefInc := by
    rw [IcacheRun.ccl_of_rises rises]
    change IcacheCcl.prefInc _ _ = _
    simp [IcacheCcl.prefInc, onm, idle, fetch]
  have dw : (run.icache.ccl (t + 1)).dw = run.word t := by
    rw [IcacheRun.ccl_of_rises rises]
    rfl
  -- without a fetch the hit of the last one stays or goes
  have cHitstate : (run.icache.ccl (t + 1)).cHitstate = true →
      (run.icache.ccl t).cHitstate = true := by
    rw [IcacheRun.ccl_of_rises rises]
    intro h
    have next : IcacheCcl.cHitstate _ _ = true := h
    rw [IcacheCcl.cHitstate] at next
    split_ifs at next with _ on
    · exact absurd (fetch.symm.trans on) Bool.false_ne_true
    · exact next
  constructor
  · intro on
    exact absurd (aenDel1.symm.trans on) Bool.false_ne_true
  · intro _ on
    rw [aPrev, tagCell_of_ne_miss1 tagLawful miss]
    exact ready.hit free (cHitstate on)
  · rw [IcacheAdapterRun.word, aenDel1, Bool.false_and, if_neg Bool.false_ne_true, dw, aPrev, prefInc,
      dataCell_of_settled dataLawful settled]
    exact ready.word
  · rw [aPrev, prefInc]
    exact ready.ahead
  · rw [aPrev, prefInc]
    exact fun behind lower => absurd free (ready.behind behind lower)

/-- A fetch that is answered, or would be if it hit, leaves its word or the next one ready. -/
theorem Ready.next (ready : run.Ready t) (held : run.icache.Held)
    (rises : run.icache.rises125 t = true) (onm : (run.icache.ccl t).icOnm = true)
    (settled : run.icache.phase t = .settled) (idle : (run.icache.ccl t).state = .idle)
    (early : IcacheCcl.yAckBeforetD (run.icache.ccl t) (run.icache.cclI t) = true) :
    run.Ready (t + 1) := by
  -- the fetch follows the last one, so its word is there or is read now
  have miss : (run.icache.ccl t).state ≠ .miss1 := by rw [idle]; simp
  have late : IcacheCcl.yAckBeforetI (run.icache.ccl t) (run.icache.cclI t) = false := by
    simp [IcacheCcl.yAckBeforetI, idle]
  have asks := early
  rw [IcacheCcl.yAckBeforetD, Bool.and_eq_true, Bool.and_eq_true] at asks
  obtain ⟨⟨en, -⟩, seq⟩ := asks
  have en : (run.clk t).a.en = true := en
  have fetch : (run.icache.cclI t).a.en = true := en
  have ready' := ready.word_eq held rises seq
  obtain ⟨line, -⟩ := follows_of_seqequ seq
  have line : toCacheLine (run.clk t).a.a = toCacheLine (run.icache.ccl t).aPrev.a := line
  have aPrev : (run.icache.ccl (t + 1)).aPrev = (run.clk t).a := by
    rw [IcacheRun.ccl_of_rises rises]
    exact if_pos en
  have aenDel1 : (run.icache.ccl (t + 1)).aenDel1 = true := by
    rw [IcacheRun.ccl_of_rises rises]
    exact en
  have ryEn0 : (run.icache.ccl (t + 1)).ryEn0 = (run.clk t).a.a.getLsbD 1 := by
    rw [IcacheRun.ccl_of_rises rises]
    change IcacheCcl.ryEn0 _ _ = _
    simp only [IcacheCcl.ryEn0, onm, idle, late, early]
    exact Bool.not_not _
  have prefInc : (run.icache.ccl (t + 1)).prefInc = (run.clk t).a.a.getLsbD 1 := by
    rw [IcacheRun.ccl_of_rises rises]
    change IcacheCcl.prefInc _ _ = _
    simp only [IcacheCcl.prefInc, onm, idle, late, early, fetch]
    rfl
  have dw : (run.icache.ccl (t + 1)).dw = run.word t := by
    rw [IcacheRun.ccl_of_rises rises]
    rfl
  constructor
  · intro _
    rw [aPrev, tag_succ tagLawful rises miss, tagCell_of_ne_miss1 tagLawful miss]
  -- the fetch is a hit for the line of the last one
  · intro acked _
    rw [aPrev, tagCell_of_ne_miss1 tagLawful miss, index_of_line line, tag_of_line line]
    refine (ready.tag_of_cachehit held ?_).1
    have fetch : (run.icache.clk t).a.en = true := en
    rw [IcacheRun.pending_of_rises rises, fetch, Bool.true_and, IcacheRun.y, IcacheCcl.y, onm, late,
      early] at acked
    by_contra missed
    rw [Bool.eq_false_of_not_eq_true missed] at acked
    exact Option.some_ne_none _ acked
  -- the upper half word lets the next word be read, the lower one keeps the word
  · rw [IcacheAdapterRun.word, aenDel1, Bool.true_and, ryEn0, prefInc, aPrev, dataCell_of_settled dataLawful settled]
    cases upper : (run.clk t).a.a.getLsbD 1 with
    | true =>
      have read : IcacheCcl.ryEn0 (run.icache.ccl t) (run.icache.cclI t) = true := by
        rw [IcacheRun.ccl_of_rises rises] at ryEn0
        exact ryEn0.trans upper
      have address : (run.icache.cclI t).a.a.getLsbD 1 = true := upper
      rw [if_pos rfl, if_pos rfl, d0_succ dataLawful rises read (men_of_settled settled),
        IcacheCcl.a0, early, address, Bool.or_true, Bool.and_true, if_pos rfl]
      rfl
    | false =>
      rw [if_neg Bool.false_ne_true, if_neg Bool.false_ne_true, dw, ready']
      exact congrArg (fun x : BitVec 3 => run.dataCell t (toCacheIndex (run.clk t).a.a ++ x))
        (BitVec.add_zero _).symm
  · rw [aPrev, prefInc]
    exact id
  · rw [aPrev, prefInc]
    exact fun upper lower => absurd (upper.symm.trans lower) Bool.false_ne_true

/-- Whenever the cache is on and idle the word of the last fetch is ready. -/
theorem ready (held : run.icache.Held) (t : ℕ) (idle : (run.icache.ccl t).state = .idle)
    (onm : (run.icache.ccl t).icOnm = true) (valid : (run.icache.ccl t).aPrevV = true) :
    run.Ready t := by
  induction t with
  | zero => exact absurd onm Bool.false_ne_true
  | succ t ih =>
    obtain ⟨crosses, steady⟩ := run.icache.steady t
    cases rises : run.icache.rises125 t with
    | false =>
      rw [IcacheRun.ccl_of_not_rises rises] at idle onm valid
      exact (ih idle onm valid).keep tagLawful dataLawful rises (steady.free idle).1
        (by rw [idle]; simp)
    | true =>
      rw [IcacheRun.ccl_of_rises rises] at idle valid
      have next : IcacheCcl.nextState (run.icache.ccl t) (run.icache.cclI t) = .idle := idle
      obtain ⟨on, last, before⟩ := valid_of_step valid
      -- the CPU side was idle before, or has just read the first word of a fill
      rcases idle_or_read steady.switched on last next with here | ⟨here, late, heard⟩
      · have settled := (steady.free here).1
        have late : IcacheCcl.yAckBeforetI (run.icache.ccl t) (run.icache.cclI t) = false := by
          simp [IcacheCcl.yAckBeforetI, here]
        cases en : (run.clk t).a.en with
        | false => exact (ih here on (before en)).wait tagLawful dataLawful held rises on settled here en
        | true =>
          -- a fetch that follows is answered at once, any other is looked up
          cases early : IcacheCcl.yAckBeforetD (run.icache.ccl t) (run.icache.cclI t) with
          | true =>
            have seq := early
            rw [IcacheCcl.yAckBeforetD, Bool.and_eq_true] at seq
            have valid := (follows_of_seqequ seq.2).2.1
            exact (ih here on valid).next tagLawful dataLawful held rises on settled here early
          | false =>
            refine ready_of_read tagLawful dataLawful rises settled (by rw [here]; simp) en ?_ ?_ ?_
            · rw [late, early]
              rfl
            · rw [IcacheRun.y, IcacheCcl.y, on, late, early]
              rfl
            · rw [IcacheCcl.ryEn0, on, here, late, early]
              rfl
      · have settled := (IcacheRun.settled_of_heard crosses heard).1
        have en := ((IcacheRun.waits held t).fetch held rises (by rw [here]; rfl)).2
        have early : IcacheCcl.yAckBeforetD (run.icache.ccl t) (run.icache.cclI t) = false := by
          simp [IcacheCcl.yAckBeforetD, here]
        have none : IcacheCcl.yAckBeforetI (run.icache.ccl t) (run.icache.cclI t) = false := by
          simp [IcacheCcl.yAckBeforetI, here, late]
        refine ready_of_read tagLawful dataLawful rises settled (by rw [here]; simp) en ?_ ?_ ?_
        · rw [none, early]
          rfl
        · rw [IcacheRun.y, IcacheCcl.y, on, none, early]
          rfl
        · rw [IcacheCcl.ryEn0, on, here, late, heard]
          rfl

/-- A fetch that is acknowledged before anything is missed is that of its line. -/
theorem hit (held : run.icache.Held) (reads : run.icache.Reads mem)
    (constant : run.icache.Constant mem) (rises : run.icache.rises125 t = true)
    (onm : (run.icache.ccl t).icOnm = true)
    (early : IcacheCcl.yAckBeforetD (run.icache.ccl t) (run.icache.cclI t) = true)
    (cachehit : IcacheCcl.cachehit (run.icache.ccl t) (run.icache.cclI t) = true) :
    (run.icache.y t).d =
      toCacheIdata (run.clk t).a.a (mem t ((run.clk t).a.a.extractLsb 27 2)) := by
  rw [IcacheCcl.yAckBeforetD, Bool.and_eq_true, Bool.and_eq_true, beq_iff_eq] at early
  obtain ⟨⟨-, idle⟩, seq⟩ := early
  obtain ⟨line, valid, -⟩ := follows_of_seqequ seq
  have line : toCacheLine (run.clk t).a.a = toCacheLine (run.icache.ccl t).aPrev.a := line
  have ready := ready tagLawful dataLawful held t idle onm valid
  obtain ⟨tag, ffv⟩ := ready.tag_of_cachehit held cachehit
  have data : (run.icache.y t).d = toCacheIdata (run.clk t).a.a (run.word t) := by
    rw [IcacheRun.y, IcacheCcl.y, if_pos onm, idle, if_neg (by simp), word]
    split_ifs <;> rfl
  have cached := (stored tagLawful dataLawful held reads constant t onm).line _ ffv
    (fun busy => absurd idle busy)
  rw [data, ready.word_eq held rises seq, cached, index_of_line line, tag, ← index_of_line line,
    ← tag_of_line line, ← toCacheLine_eq, ← wordAddress]

end Clock

end IcacheAdapterRun

end JCore
