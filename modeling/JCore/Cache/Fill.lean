import JCore.Cache.Fetch

/-!
# The fill of a line

While a line is filled the CPU is answered from the half words that it waits for as soon as
their valid bit is there. The data cross between the clocks without a handshake, and the
valid bits come one clock behind them.

## Main definitions

* `IcacheMcl.Fetched`: the words of a line that have been read
* `Critical`: the half words that the CPU waits for, as far as a word has them

## Main results

* `IcacheMcl.critical_step`: what one word more gives
-/

namespace JCore

open IcacheCcl (halfWord)

/-! ### Addresses -/

theorem toCacheWord_halfWord (a : BitVec 28) : toCacheWord a = (halfWord a).extractLsb 3 1 := by
  apply BitVec.eq_of_getLsbD_eq
  intro k hk
  simp only [toCacheWord, halfWord, BitVec.getLsbD_extractLsb]
  have hlt : 1 + k < 4 := by omega
  have hadd : 1 + (1 + k) = 2 + k := by omega
  simp [hlt, hadd]

theorem getLsbD_halfWord (a : BitVec 28) : a.getLsbD 1 = (halfWord a).getLsbD 0 := by
  simp [halfWord]

/-- The word of an address is that of its line. -/
theorem wordAddress (a : BitVec 28) :
    (a.extractLsb 27 2 : BitVec 26) = toCacheLine a ++ toCacheWord a := by
  apply BitVec.eq_of_getLsbD_eq
  intro k hk
  rw [BitVec.getLsbD_append]
  simp only [toCacheWord, toCacheLine, BitVec.getLsbD_extractLsb]
  grind

theorem word_of_halfWord_eq {a b : BitVec 28} (h : halfWord b = halfWord a) :
    toCacheWord b = toCacheWord a ∧ b.getLsbD 1 = a.getLsbD 1 := by
  simp only [toCacheWord_halfWord, getLsbD_halfWord, h, and_self]

/-- The next half word is the lower one of the same word or the upper one of the next. -/
theorem word_of_halfWord_succ {a b : BitVec 28} (h : halfWord b = halfWord a + 1) :
    toCacheWord b = (if a.getLsbD 1 then toCacheWord a + 1 else toCacheWord a) ∧
      b.getLsbD 1 = !a.getLsbD 1 := by
  simp only [toCacheWord_halfWord, getLsbD_halfWord, h]
  generalize halfWord a = x
  revert x
  decide

theorem succ_ne (x : BitVec 3) : x + 1 ≠ x := by
  revert x
  decide

theorem halfWord_succ_ne (x : BitVec 4) : x + 1 ≠ x := by
  revert x
  decide

/-! ### The half words that the CPU waits for -/

theorem extractLsb_append_high (high low : BitVec 16) :
    (high ++ low : BitVec 32).extractLsb 31 16 = high := by
  apply BitVec.eq_of_getLsbD_eq
  intro k hk
  simp only [BitVec.getLsbD_extractLsb, BitVec.getLsbD_append]
  grind

theorem extractLsb_append_low (high low : BitVec 16) :
    (high ++ low : BitVec 32).extractLsb 15 0 = low := by
  apply BitVec.eq_of_getLsbD_eq
  intro k hk
  simp only [BitVec.getLsbD_extractLsb, BitVec.getLsbD_append]
  grind

/-- The words of the line of an address. -/
def lineWords (mem : BitVec 26 → BitVec 32) (a : BitVec 28) (x : BitVec 3) : BitVec 32 :=
  mem (toCacheLine a ++ x)

/-- What there is of the half word at `a` and of the next one in a word. -/
def Critical (words : BitVec 3 → BitVec 32) (a : BitVec 28) (x : BitVec 3) (cd : BitVec 32) :
    Prop :=
  ∀ b : BitVec 28, toCacheWord b = x → halfWord b = halfWord a ∨ halfWord b = halfWord a + 1 →
    (if halfWord b = halfWord a then cd.extractLsb 31 16 else cd.extractLsb 15 0 : BitVec 16) =
      toCacheIdata b (words x)

namespace IcacheMcl

/-- A word of the line has been read. The words are read in turn from the one that the CPU
waits for. -/
def Fetched (this : IcacheMclReg) (x : BitVec 3) : Prop :=
  this.men = true → x - this.reqw < toCacheWord this.ma0 - this.reqw

variable {this : IcacheMclReg} {i : IcacheMclI}

theorem toCacheWord_append (l : BitVec 23) (x : BitVec 3) :
    toCacheWord (l ++ x ++ 0b00#2 : BitVec 28) = x := by
  apply BitVec.eq_of_getLsbD_eq
  intro k hk
  simp only [toCacheWord, BitVec.getLsbD_extractLsb, BitVec.getLsbD_append]
  grind

theorem toCacheLine_append (l : BitVec 23) (x : BitVec 3) :
    toCacheLine (l ++ x ++ 0b00#2 : BitVec 28) = l := by
  apply BitVec.eq_of_getLsbD_eq
  intro k hk
  simp only [toCacheLine, BitVec.getLsbD_extractLsb, BitVec.getLsbD_append]
  grind

theorem sub_lt_succ_sub {x w r : BitVec 3} (h : w + 1 ≠ r) :
    x - r < w + 1 - r ↔ x - r < w - r ∨ x = w := by
  revert x w r
  decide

theorem sub_lt_sub_or_eq {x w r : BitVec 3} (h : w + 1 = r) : x - r < w - r ∨ x = w := by
  revert x w r
  decide

/-- With a word that arrives one more has been read. -/
theorem fetched_step (quiet : seen this i = false) (onm : this.icOnm = true)
    (men : this.men = true) (x : BitVec 3) :
    Fetched (step this i) x ↔ Fetched this x ∨ i.ma.ackR = true ∧ x = toCacheWord this.ma0 := by
  have reqw : (step this i).reqw = this.reqw := if_neg (by simp [quiet])
  cases ack : i.ma.ackR with
  | false =>
    have ma0 : (step this i).ma0 = this.ma0 := by simp [step, IcacheMcl.ma0, quiet, ack]
    have on : (step this i).men = this.men := by simp [step, IcacheMcl.men, quiet, last, ack]
    simp [Fetched, reqw, ma0, on]
  | true =>
    have ma0 : toCacheWord (step this i).ma0 = toCacheWord this.ma0 + 1 := by
      simp only [step, IcacheMcl.ma0, quiet, ack, men, onm]
      exact toCacheWord_append _ _
    have next : (step this i).men = !cwLast this := by
      simp [step, IcacheMcl.men, quiet, last, ack, onm, men]
    simp only [Fetched, reqw, ma0, next, men, true_and, forall_const]
    cases done : cwLast this with
    | false =>
      simp only [Bool.not_false, forall_const]
      exact sub_lt_succ_sub (beq_eq_false_iff_ne.mp done)
    | true =>
      exact iff_of_true (fun on => absurd on Bool.false_ne_true)
        (sub_lt_sub_or_eq (beq_iff_eq.mp done))

theorem critical_step {words : BitVec 3 → BitVec 32} {a : BitVec 28}
    (men : this.men = true) (onm : this.icOnm = true) (ack : i.ma.ackR = true)
    (reqw : this.reqw = toCacheWord a) (ma0In1 : this.ma0In1 = a.getLsbD 1)
    (data : i.ma.d = words (toCacheWord this.ma0))
    (critical : ∀ x, Fetched this x → Critical words a x this.cd) (x : BitVec 3)
    (h : Fetched this x ∨ x = toCacheWord this.ma0) : Critical words a x (cd this i) := by
  have enabled : (this.men && i.ma.ackR && this.icOnm) = true := by simp [men, ack, onm]
  intro b hb near
  rw [cd, if_pos enabled, reqw, ma0In1]
  by_cases first : toCacheWord this.ma0 = toCacheWord a
  · -- the word with the half word that was missed
    have hx : x = toCacheWord this.ma0 := by
      rcases h with h | h
      · have lt := h men
        simp [reqw, first] at lt
      · exact h
    rw [if_pos first, hx, ← data]
    rcases near with same | succ
    · obtain ⟨-, half⟩ := word_of_halfWord_eq same
      rw [if_pos same, toCacheIdata, half]
      split_ifs
      · exact extractLsb_append_high _ _
      · rfl
    · obtain ⟨word, half⟩ := word_of_halfWord_succ succ
      rw [if_neg (succ ▸ halfWord_succ_ne _), toCacheIdata, half]
      rw [hb, hx, first] at word
      cases low : a.getLsbD 1 with
      | false => rfl
      | true =>
        rw [low, if_pos rfl] at word
        exact absurd word.symm (succ_ne _)
  · rw [if_neg first]
    have before : x ≠ toCacheWord this.ma0 → Fetched this x := fun hx => h.resolve_right hx
    by_cases second : toCacheWord a + 1 = toCacheWord this.ma0 ∧ a.getLsbD 1 = true
    · -- the word with the other half word, when they are in two words
      rw [if_pos second]
      rcases near with same | succ
      · obtain ⟨word, -⟩ := word_of_halfWord_eq same
        have old := critical x (before (by rw [← hb, word]; exact Ne.symm first)) b hb (.inl same)
        rw [if_pos same] at old ⊢
        rw [extractLsb_append_high, old]
      · obtain ⟨word, half⟩ := word_of_halfWord_succ succ
        rw [second.2, if_pos rfl, second.1, hb] at word
        rw [if_neg (succ ▸ halfWord_succ_ne _), extractLsb_append_low, toCacheIdata, half, second.2,
          word, ← data]
        rfl
    · rw [if_neg second]
      refine critical x (before fun hx => ?_) b hb near
      rcases near with same | succ
      · exact first (by rw [← hx, ← hb, (word_of_halfWord_eq same).1])
      · obtain ⟨word, -⟩ := word_of_halfWord_succ succ
        rw [hb, hx] at word
        split_ifs at word with half
        · exact second ⟨word.symm, half⟩
        · exact first word

/-! ### Valid bits -/

/-- The valid bit of a word in one of the banks. -/
def validBit (v : BitVec 16) (bank : Bool) (x : BitVec 3) : Bool :=
  v.getLsbD (x.toNat + if bank then 8 else 0)

theorem validBit_bankBit (bank bank' : Bool) (x x' : BitVec 3) :
    validBit (bankBit bank' x') bank x = (bank == bank' && x == x') := by
  revert bank bank' x x'
  decide

theorem validBit_zero (bank : Bool) (x : BitVec 3) : validBit 0 bank x = false :=
  BitVec.getLsbD_zero

/-- The words of a request are read from its line, or from its own address. -/
theorem line_step (quiet : seen this i = false) :
    toCacheLine (step this i).ma0 = toCacheLine this.ma0 := by
  change toCacheLine (ma0 this i) = _
  rw [ma0, if_neg (Bool.eq_false_iff.mp quiet)]
  split_ifs
  · exact toCacheLine_append _ _
  · rfl

theorem ma0_of_off (quiet : seen this i = false) (off : this.icOnm = false) :
    (step this i).ma0 = this.ma0 := by
  simp [step, ma0, quiet, off]

theorem line_of_seen (h : seen this i = true) :
    toCacheLine (step this i).ma0 = toCacheLine i.ctom.filla := by
  change toCacheLine (ma0 this i) = _
  rw [ma0, if_pos h]
  apply BitVec.eq_of_getLsbD_eq
  intro k hk
  simp only [toCacheLine, BitVec.getLsbD_extractLsb, BitVec.getLsbD_append]
  grind

theorem word_of_seen (h : seen this i = true) :
    toCacheWord (step this i).ma0 = toCacheWord i.ctom.filla := by
  change toCacheWord (ma0 this i) = _
  rw [ma0, if_pos h]
  apply BitVec.eq_of_getLsbD_eq
  intro k hk
  simp only [toCacheWord, BitVec.getLsbD_extractLsb, BitVec.getLsbD_append]
  grind

theorem reqw_of_seen (h : seen this i = true) :
    (step this i).reqw = toCacheWord i.ctom.filla := by
  change reqw this i = _
  rw [reqw, if_pos h]
  apply BitVec.eq_of_getLsbD_eq
  intro k hk
  simp only [toCacheWord, BitVec.getLsbD_extractLsb]
  grind

theorem not_fetched_of_seen (h : seen this i = true) (x : BitVec 3) :
    ¬ Fetched (step this i) x := by
  intro fetched
  have lt := fetched (if_pos h)
  rw [word_of_seen h, reqw_of_seen h, BitVec.sub_self] at lt
  exact BitVec.not_lt_zero lt

/-- A valid bit was there or is set. -/
theorem validBit_wv {bank : Bool} {x : BitVec 3} (h : validBit (wv this i) bank x = true) :
    validBit this.wv bank x = true ∨
      this.ryEn1 = true ∧ bank = this.mvbank ∧ x = this.ryA1fillc := by
  rw [wv] at h
  split_ifs at h with clear delayed set
  · rw [validBit_zero] at h
    cases h
  · rw [validBit, BitVec.getLsbD_and, Bool.and_eq_true] at h
    exact .inl h.1
  · rw [validBit, BitVec.getLsbD_or, Bool.or_eq_true] at h
    rw [Bool.and_eq_true] at set
    refine h.imp_right fun h => ⟨set.1, ?_⟩
    have bit := validBit_bankBit bank this.mvbank x this.ryA1fillc
    rw [validBit, h, eq_comm, Bool.and_eq_true, beq_iff_eq, beq_iff_eq] at bit
    exact bit
  · exact .inl h

theorem wv_of_seen (h : seen this i = true) : wv this i = 0 := if_pos (by simp [h])

end IcacheMcl

/-! ### The request that is served -/

namespace IcacheRun

section Definitions

variable (run : IcacheRun) (t : ℕ)

/-- What the memory side keeps of the request. -/
structure Reading : Prop where
  mvbank : (run.mcl t).mvbank = (run.payload t).getLsbD 0
  ma0In1 : (run.mcl t).ma0In1 = (run.payload t).getLsbD 1
  reqw : (run.mcl t).reqw = toCacheWord (run.payload t)
  line : toCacheLine (run.mcl t).ma0 = toCacheLine (run.payload t)
  word : (run.mcl t).icOnm = false → toCacheWord (run.mcl t).ma0 = toCacheWord (run.payload t)

end Definitions

variable {run : IcacheRun} {t : ℕ}

/-- Before a service the CPU side is not idle, and the request stays. -/
theorem reading (t : ℕ) (serving : run.phase t = .serving) : run.Reading t := by
  induction t with
  | zero => cases serving
  | succ t ih =>
    obtain ⟨crosses, steady⟩ := run.steady t
    rw [phase_step] at serving
    -- the request was served before, or is seen now
    rcases Phase.next_eq_serving serving with ⟨on, -⟩ | ⟨asked, found⟩
    · have keep := payload_keep steady (by rw [on]; simp)
      obtain ⟨mvbank, ma0In1, reqw, line, word⟩ := ih on
      cases rises : run.rises200 t with
      | false =>
        constructor <;> rw [mcl_of_not_rises rises, keep] <;> assumption
      | true =>
        have quiet : IcacheMcl.seen (run.mcl t) (run.mclI t) = false := by
          simp [IcacheMcl.seen, (steady.serves on).fillvDel1]
        have off : IcacheMcl.seen (run.mcl t) (run.mclI t) ≠ true := Bool.eq_false_iff.mp quiet
        rw [← keep] at mvbank ma0In1 reqw line word
        constructor
        · rw [mcl_of_rises rises, ← mvbank]
          exact if_neg off
        · rw [mcl_of_rises rises, ← ma0In1]
          exact if_neg off
        · rw [mcl_of_rises rises, ← reqw]
          exact if_neg off
        · rw [mcl_of_rises rises, ← line]
          exact IcacheMcl.line_step quiet
        · rw [mcl_of_rises rises]
          intro onm
          -- without the cache the one word stays
          have same : (run.mcl t).icOnm = false := by
            rw [(steady.serves on).icOnm, ← (lines_of_serving crosses on).2]
            exact onm
          rw [← word same]
          exact congrArg toCacheWord (IcacheMcl.ma0_of_off quiet same)
    · obtain ⟨rises, seen⟩ := Bool.and_eq_true_iff.mp found
      have filla := (asked_of_seen crosses seen).2
      have keep := payload_keep steady (by rw [asked]; simp)
      constructor <;> rw [mcl_of_rises rises, keep, ← filla]
      · exact if_pos seen
      · exact if_pos seen
      · exact IcacheMcl.reqw_of_seen seen
      · exact IcacheMcl.line_of_seen seen
      · intro _
        exact IcacheMcl.word_of_seen seen

end IcacheRun

end JCore
