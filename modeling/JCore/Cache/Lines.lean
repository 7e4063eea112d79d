import JCore.Cache.IcacheAdapter
import JCore.Lib.Bits

/-!
# The lines of the instruction cache

What the RAMs hold. A valid line is that of the memory with the tag of the line, apart from
the line that is being filled, which has the words that have been read.

## Main definitions

* `IcacheAdapterRun.Cached`: a line that the RAMs hold
* `IcacheAdapterRun.Stored`: what the RAMs hold while the cache is on

## Main results

* `IcacheAdapterRun.stored`: it holds throughout
-/

namespace JCore

/-! ### Addresses -/

/-- The address of a word in the data RAM. -/
theorem ramAddress (a : BitVec 28) :
    (a.extractLsb 12 2 : BitVec 11) = toCacheIndex a ++ toCacheWord a := by
  apply BitVec.eq_of_getLsbD_eq
  intro k hk
  rw [BitVec.getLsbD_append]
  simp only [toCacheWord, toCacheIndex, BitVec.getLsbD_extractLsb]
  grind

theorem toCacheLine_eq (a : BitVec 28) :
    toCacheLine a = (toCacheTag a ++ toCacheIndex a : BitVec 23) := by
  apply BitVec.eq_of_getLsbD_eq
  intro k hk
  rw [BitVec.getLsbD_append]
  simp only [toCacheLine, toCacheTag, toCacheIndex, BitVec.getLsbD_extractLsb]
  grind

theorem index_of_line {a b : BitVec 28} (h : toCacheLine a = toCacheLine b) :
    toCacheIndex a = toCacheIndex b := by
  rw [← lineIndex_toCacheLine, h, lineIndex_toCacheLine]

theorem tag_of_line {a b : BitVec 28} (h : toCacheLine a = toCacheLine b) :
    toCacheTag a = toCacheTag b := by
  rw [← lineTag_toCacheLine, h, lineTag_toCacheLine]

/-- A request goes out before the line is filled. -/
theorem IcacheRun.not_filling_of_asks {run : IcacheRun} {t : ℕ} (asks : run.asks t = true) :
    ¬((run.ccl (t + 1)).state = .miss2 ∨ (run.ccl (t + 1)).state = .miss3) := by
  rw [IcacheRun.asks, Bool.and_eq_true] at asks
  rw [ccl_of_rises asks.1]
  have next : IcacheCcl.nextState (run.ccl t) (run.cclI t) = _ := (fetch_of_fillv asks.2).2
  change ¬(IcacheCcl.nextState _ _ = _ ∨ IcacheCcl.nextState _ _ = _)
  rw [next]
  split_ifs <;> simp

namespace IcacheAdapterRun

variable {tagRam : TagRam1rw} {dataRam : DataRam2rw} (run : IcacheAdapterRun tagRam dataRam)
  (mem : ℕ → BitVec 26 → BitVec 32) (t : ℕ)

/-- The RAMs hold a line of the memory. -/
def Cached (index : BitVec 8) : Prop :=
  ∀ x : BitVec 3, run.dataCell t (index ++ x) = mem t (run.tagCell t index ++ index ++ x)

/-- What the RAMs hold while the cache is on. -/
structure Stored : Prop where
  line : ∀ index, (run.icache.ccl t).ffv index = true →
    ((run.icache.ccl t).state ≠ .idle → index ≠ toCacheIndex (run.icache.ccl t).ma0) →
      run.Cached mem t index
  tag : (run.icache.ccl t).state = .miss2 ∨ (run.icache.ccl t).state = .miss3 →
    run.tagCell t (toCacheIndex (run.icache.ccl t).ma0) = toCacheTag (run.icache.ccl t).ma0
  word : (run.icache.ccl t).state ≠ .idle → ∀ x, run.icache.Filled t x →
    run.dataCell t (toCacheIndex (run.icache.ccl t).ma0 ++ x) =
      lineWords (mem t) (run.icache.ccl t).ma0 x

variable {run mem t}

theorem men_of_settled (settled : run.icache.phase t = .settled) :
    (run.icache.mcl t).men = false :=
  ((run.icache.steady t).2.rests (by rw [settled]; simp)).1.men

/-! ### The cells in one instant -/

/-- While the cache is on the memory side writes into the line that is being filled. -/
theorem line_of_writes (held : run.icache.Held) (onm : (run.icache.ccl t).icOnm = true)
    (writes : run.writes t = true) : run.icache.phase t = .serving ∧
      (run.icache.ccl t).state ≠ .idle ∧
        toCacheLine (run.icache.mcl t).ma0 = toCacheLine (run.icache.ccl t).ma0 := by
  rw [IcacheAdapterRun.writes, Bool.and_eq_true, Bool.and_eq_true] at writes
  have serving : run.icache.phase t = .serving := by
    by_contra rests
    rw [((run.icache.steady t).2.rests rests).1.men] at writes
    exact Bool.false_ne_true writes.2.1
  exact ⟨serving, IcacheRun.busy_of_phase (by rw [serving]; simp),
    (IcacheRun.reading_on held serving onm).2.2.2⟩

section Cells

variable (dataLawful : dataRam.Lawful) (tagLawful : tagRam.Lawful)

section

include dataLawful

theorem dataCell_of_settled (settled : run.icache.phase t = .settled) :
    run.dataCell (t + 1) = run.dataCell t := by
  rw [dataCell_succ dataLawful, writes, men_of_settled settled, Bool.false_and, Bool.and_false]
  rfl

/-- The other lines stay. -/
theorem dataCell_other (held : run.icache.Held) (onm : (run.icache.ccl t).icOnm = true)
    {index : BitVec 8} (other : (run.icache.ccl t).state ≠ .idle →
      index ≠ toCacheIndex (run.icache.ccl t).ma0) (x : BitVec 3) :
    run.dataCell (t + 1) (index ++ x) = run.dataCell t (index ++ x) := by
  rw [dataCell_succ dataLawful]
  split_ifs with writes
  · obtain ⟨-, busy, line⟩ := line_of_writes held onm writes
    refine Function.update_of_ne (fun same => ?_) _ _
    rw [ramAddress, index_of_line line] at same
    exact other busy (BitVec.parts_of_append_eq same).1
  · rfl

end

include tagLawful in
/-- The tags stay but for that of the line that is missed. -/
theorem tagCell_other (held : run.icache.Held) {index : BitVec 8}
    (other : (run.icache.ccl t).state = .miss1 → index ≠ toCacheIndex (run.icache.ccl t).ma0) :
    run.tagCell (t + 1) index = run.tagCell t index := by
  rw [tagCell_succ tagLawful]
  split_ifs with miss
  · rw [Bool.and_eq_true, beq_iff_eq] at miss
    have waits := IcacheRun.waits held t
    have fetch := (waits.fetch held miss.1 (by rw [miss.2]; rfl)).1
    refine Function.update_of_ne (fun same => other miss.2 ?_) _ _
    rw [same, waits.missed (.inl miss.2), ← fetch]
    rfl
  · rfl

end Cells

/-! ### What the cache keeps -/

/-- A valid bit was there or is set for the line that is missed, and the cache was on. -/
theorem ffv_of_succ {index : BitVec 8} (onm : (run.icache.ccl (t + 1)).icOnm = true)
    (h : (run.icache.ccl (t + 1)).ffv index = true) : (run.icache.ccl t).icOnm = true ∧
      ((run.icache.ccl t).ffv index = true ∨
        (run.icache.ccl t).state = .miss1 ∧ index = toCacheIndex (run.icache.ccl t).ma0) := by
  cases rises : run.icache.rises125 t with
  | false =>
    rw [IcacheRun.ccl_of_not_rises rises] at onm h
    exact ⟨onm, .inl h⟩
  | true =>
    rw [IcacheRun.ccl_of_rises rises] at h
    have next : IcacheCcl.ffv (run.icache.ccl t) index = true := h
    rw [IcacheCcl.ffv] at next
    cases off : !(run.icache.ccl t).icOnm || (run.icache.ccl t).icInv with
    | true =>
      rw [off] at next
      cases next
    | false =>
      rw [off, if_neg Bool.false_ne_true] at next
      rw [Bool.or_eq_false_iff, Bool.not_eq_false'] at off
      refine ⟨off.1, ?_⟩
      by_cases miss : (run.icache.ccl t).state = .miss1
      · rw [if_pos miss] at next
        rcases eq_or_ne index (toCacheIndex (run.icache.ccl t).ma0) with same | other
        · exact .inr ⟨miss, same⟩
        · rw [Function.update_of_ne other] at next
          exact .inl next
      · rw [if_neg miss] at next
        exact .inl next

/-- A line is filled after the first state of a miss. -/
theorem filling_of_nextState {this : IcacheCclReg} {i : IcacheCclI} (miss : this.state ≠ .miss1)
    (h : IcacheCcl.nextState this i = .miss2 ∨ IcacheCcl.nextState this i = .miss3) :
    this.state = .miss2 ∨ this.state = .miss3 := by
  grind [IcacheCcl.nextState, IcacheCcl.nextStateOn, IcacheCcl.nextStateOff]

/-- When a line is filled its words have been read. -/
theorem settled_of_filled (busy : (run.icache.ccl t).state ≠ .idle)
    (onm : (run.icache.ccl t).icOnm = true) (free : (run.icache.ccl (t + 1)).state = .idle) :
    run.icache.phase t = .settled ∧
      ((run.icache.ccl t).state = .miss2 ∨ (run.icache.ccl t).state = .miss3) := by
  obtain ⟨crosses, steady⟩ := run.icache.steady t
  cases rises : run.icache.rises125 t with
  | false =>
    rw [IcacheRun.ccl_of_not_rises rises] at free
    exact absurd free busy
  | true =>
    rw [IcacheRun.ccl_of_rises rises] at free
    have next : IcacheCcl.nextState (run.icache.ccl t) (run.icache.cclI t) = .idle := free
    have heard := (IcacheCcl.nextState_eq_idle steady.switched next).resolve_left busy
    refine ⟨(IcacheRun.settled_of_heard crosses heard).1, ?_⟩
    have switched := steady.switched
    rw [IcacheCcl.Switched, if_pos onm] at switched
    rw [IcacheCcl.nextState, if_pos onm] at next
    cases state : (run.icache.ccl t).state <;> simp_all [IcacheCcl.nextStateOn]

section Keeps

variable (tagLawful : tagRam.Lawful) (dataLawful : dataRam.Lawful)

include tagLawful dataLawful

/-- A line that stays valid, or becomes valid with its last word. -/
theorem line_succ (held : run.icache.Held) (constant : run.icache.Constant mem)
    (onm : (run.icache.ccl t).icOnm = true) (stored : run.Stored mem t) {index : BitVec 8}
    (valid : (run.icache.ccl t).ffv index = true ∨
      (run.icache.ccl t).state = .miss1 ∧ index = toCacheIndex (run.icache.ccl t).ma0)
    (other : (run.icache.ccl (t + 1)).state ≠ .idle →
      index ≠ toCacheIndex (run.icache.ccl (t + 1)).ma0) : run.Cached mem (t + 1) index := by
  intro x
  rw [constant t onm]
  by_cases here : (run.icache.ccl t).state ≠ .idle ∧
      index = toCacheIndex (run.icache.ccl t).ma0
  · -- the line that has been filled
    obtain ⟨busy, same⟩ := here
    have quiet : run.icache.asks t = false := by
      by_contra asks
      exact busy (IcacheRun.settled_of_asks (Bool.eq_true_of_not_eq_false asks)).1
    have free : (run.icache.ccl (t + 1)).state = .idle := by
      by_contra stays
      exact other stays (by rw [IcacheRun.ma0_keep quiet, same])
    obtain ⟨settled, state⟩ := settled_of_filled busy onm free
    have tag : run.tagCell (t + 1) index = run.tagCell t index :=
      tagCell_other tagLawful held fun miss => by
        rcases state with h | h <;> rw [h] at miss <;> cases miss
    rw [dataCell_of_settled dataLawful settled, tag, same, stored.word busy x (.inl settled),
      stored.tag state, lineWords, toCacheLine_eq]
  · have elsewhere : (run.icache.ccl t).state ≠ .idle →
        index ≠ toCacheIndex (run.icache.ccl t).ma0 := fun busy same => here ⟨busy, same⟩
    have old : (run.icache.ccl t).ffv index = true := by
      rcases valid with old | ⟨miss, same⟩
      · exact old
      · exact absurd same (elsewhere (by rw [miss]; simp))
    have tag : run.tagCell (t + 1) index = run.tagCell t index :=
      tagCell_other tagLawful held fun miss => elsewhere (by rw [miss]; simp)
    rw [dataCell_other dataLawful held onm elsewhere, tag]
    exact stored.line index old elsewhere x

omit dataLawful in
/-- The tag is written with the first state of a miss. -/
theorem tag_step (held : run.icache.Held) (stored : run.Stored mem t)
    (quiet : run.icache.asks t = false)
    (state : (run.icache.ccl (t + 1)).state = .miss2 ∨ (run.icache.ccl (t + 1)).state = .miss3) :
    run.tagCell (t + 1) (toCacheIndex (run.icache.ccl (t + 1)).ma0) =
      toCacheTag (run.icache.ccl (t + 1)).ma0 := by
  rw [IcacheRun.ma0_keep quiet, tagCell_succ tagLawful]
  cases rises : run.icache.rises125 t with
  | false =>
    rw [IcacheRun.ccl_of_not_rises rises] at state
    exact stored.tag state
  | true =>
    rw [Bool.true_and]
    split_ifs with miss
    · rw [beq_iff_eq] at miss
      have waits := IcacheRun.waits held t
      have fetch := (waits.fetch held rises (by rw [miss]; rfl)).1
      have address : (run.clk t).a.a = (run.icache.ccl t).ma0 := by
        rw [waits.missed (.inl miss), ← fetch]
        rfl
      rw [address, Function.update_self]
    · rw [beq_iff_eq] at miss
      refine stored.tag ?_
      rw [IcacheRun.ccl_of_rises rises] at state
      exact filling_of_nextState miss state

omit tagLawful in
/-- A word that arrives is written. -/
theorem word_succ (held : run.icache.Held) (reads : run.icache.Reads mem)
    (onm : (run.icache.ccl t).icOnm = true) (stored : run.Stored mem t)
    (busy : (run.icache.ccl t).state ≠ .idle) {x : BitVec 3}
    (filled : run.icache.Filled (t + 1) x) :
    run.dataCell (t + 1) (toCacheIndex (run.icache.ccl t).ma0 ++ x) =
      lineWords (mem t) (run.icache.ccl t).ma0 x := by
  have before := IcacheRun.filled_of_succ held onm filled
  rw [dataCell_succ dataLawful]
  cases on : run.writes t with
  | false =>
    rcases before with old | ⟨-, rises, men, ack, -⟩
    · exact stored.word busy x old
    · have ack : (run.clk t).ma.ackR = true := ack
      rw [writes, rises, men, ack] at on
      cases on
  | true =>
    obtain ⟨serving, -, line⟩ := line_of_writes held onm on
    rw [if_pos rfl, ramAddress, index_of_line line]
    rcases eq_or_ne x (toCacheWord (run.icache.mcl t).ma0) with same | other
    · rw [same, Function.update_self]
      rw [writes, Bool.and_eq_true, Bool.and_eq_true] at on
      have data : (run.clk t).ma.d = _ := reads t on.1 on.2.1 on.2.2
      rw [data, lineWords, ← line, ← wordAddress]
      rfl
    · rw [Function.update_of_ne fun same => other (BitVec.parts_of_append_eq same).2]
      rcases before with old | ⟨-, -, -, -, same⟩
      · exact stored.word busy x old
      · exact absurd same other

/-- While the cache is on its RAMs hold its lines. -/
theorem stored (held : run.icache.Held) (reads : run.icache.Reads mem)
    (constant : run.icache.Constant mem) (t : ℕ) (onm : (run.icache.ccl t).icOnm = true) :
    run.Stored mem t := by
  induction t with
  | zero => exact absurd onm Bool.false_ne_true
  | succ t ih =>
    -- what goes on was there before, with the cache on
    have before : run.icache.asks t = false → (run.icache.ccl (t + 1)).state ≠ .idle →
        (run.icache.ccl t).state ≠ .idle ∧ (run.icache.ccl t).icOnm = true := by
      intro quiet busy
      obtain ⟨busy, same⟩ := IcacheRun.busy_of_succ quiet busy
      exact ⟨busy, same.symm.trans onm⟩
    constructor
    · intro index valid other
      obtain ⟨on, valid⟩ := ffv_of_succ onm valid
      exact line_succ tagLawful dataLawful held constant on (ih on) valid other
    · intro state
      have quiet : run.icache.asks t = false := by
        by_contra asks
        have asks := Bool.eq_true_of_not_eq_false asks
        exact IcacheRun.not_filling_of_asks asks state
      obtain ⟨-, on⟩ := before quiet (by rcases state with h | h <;> rw [h] <;> simp)
      exact tag_step tagLawful held (ih on) quiet state
    · intro busy x filled
      cases quiet : run.icache.asks t with
      | true =>
        rw [IcacheRun.Filled, (IcacheRun.settled_of_asks quiet).2.2] at filled
        rcases filled with h | ⟨h, -⟩ <;> cases h
      | false =>
        obtain ⟨busy, on⟩ := before quiet busy
        rw [IcacheRun.ma0_keep quiet, constant t on]
        exact word_succ dataLawful held reads on (ih on) busy filled

end Keeps

end IcacheAdapterRun

end JCore
