import JCore.Cache.Fill

/-!
# The words that have arrived

The valid bits of a line have two banks, and the next line is filled through the bank that
is empty by then. A valid bit that the CPU side sees is for a word of its own line, and the
half words that came with it are there.

## Main definitions

* `IcacheRun.Reads`, `IcacheRun.Constant`: the memory
* `IcacheRun.Filled`: the words that are in the data RAM
* `IcacheRun.Banks`, `IcacheRun.Fills`: the valid bits of the two banks

## Main results

* `IcacheRun.banks`, `IcacheRun.fills`: they hold throughout
* `IcacheRun.critical`: a half word that is found during a fill is that of the memory
-/

namespace JCore

open IcacheCcl (halfWord)
open IcacheMcl (validBit)

namespace IcacheRun

section Definitions

variable (run : IcacheRun) (mem : ℕ → BitVec 26 → BitVec 32) (t : ℕ)

/-- The memory answers a read with the word at its address. -/
def Reads : Prop :=
  ∀ t, run.rises200 t = true → (IcacheMcl.my (run.mcl t)).en = true →
    (run.clk t).ma.ackR = true →
      (run.clk t).ma.d = mem t ((IcacheMcl.my (run.mcl t)).a.extractLsb 27 2)

/-- The memory is constant while the cache is on. -/
def Constant : Prop := ∀ t, (run.ccl t).icOnm = true → mem (t + 1) = mem t

/-- A word of the line that was asked for last has been read. -/
def Filled (x : BitVec 3) : Prop :=
  run.phase t = .settled ∨ run.phase t = .serving ∧ IcacheMcl.Fetched (run.mcl t) x

/-- A bank without valid bits. -/
def Empty (v : BitVec 16) (bank : Bool) : Prop := ∀ x, validBit v bank x = false

/-- The bank that the next line is filled through is empty, and so it is on the way to the
CPU side as soon as this side has found the last completion. -/
structure Banks : Prop where
  wv : run.phase t = .settled ∨ run.phase t = .serving → Empty (run.mcl t).wv (run.ccl t).mvbank
  vMetastable : run.phase t = .settled → (run.link.state t).answerMeta = false →
    (run.link.state t).answerStable = true ∨ (run.link.state t).answerPrev = true →
      Empty (run.state t).vMetastable (run.ccl t).mvbank
  vStable : run.phase t = .settled → (run.link.state t).answerStable = false →
    (run.link.state t).answerPrev = true → Empty (run.state t).vStable (run.ccl t).mvbank
  free : (run.ccl t).state = .idle → Empty (run.state t).vMetastable (run.ccl t).mvbank ∧
    Empty (run.state t).vStable (run.ccl t).mvbank

/-- The other bank has the words of the line that is being filled. -/
structure Fills : Prop where
  critical : ∀ x, run.Filled t x →
    Critical (lineWords (mem t) (run.ccl t).ma0) (run.ccl t).ma0 x (run.mcl t).cd
  ryEn1 : (run.mcl t).ryEn1 = true → run.Filled t (run.mcl t).ryA1fillc
  wv : ∀ x, validBit (run.mcl t).wv (!(run.ccl t).mvbank) x = true → run.Filled t x
  vMetastable : ∀ x, validBit (run.state t).vMetastable (!(run.ccl t).mvbank) x = true →
    Critical (lineWords (mem t) (run.ccl t).ma0) (run.ccl t).ma0 x (run.ccl t).cd0
  vStable : ∀ x, validBit (run.state t).vStable (!(run.ccl t).mvbank) x = true →
    Critical (lineWords (mem t) (run.ccl t).ma0) (run.ccl t).ma0 x (run.ccl t).cd1

end Definitions

variable {run : IcacheRun} {mem : ℕ → BitVec 26 → BitVec 32} {t : ℕ}

/-! ### The request -/

theorem vMetastable_step (t : ℕ) : (run.state (t + 1)).vMetastable =
    if run.rises125 t then (run.mcl t).wv else (run.state t).vMetastable := rfl

theorem vStable_step (t : ℕ) : (run.state (t + 1)).vStable =
    if run.rises125 t then (run.state t).vMetastable else (run.state t).vStable := rfl

/-- A request goes out. -/
def asks (run : IcacheRun) (t : ℕ) : Bool :=
  run.rises125 t && IcacheCcl.fillv (run.ccl t) (run.cclI t)

/-- The banks are turned with a request. -/
theorem mvbank_step (t : ℕ) : (run.ccl (t + 1)).mvbank = ((run.ccl t).mvbank ^^ run.asks t) := by
  rw [ccl_step, asks]
  cases run.rises125 t with
  | false => simp
  | true =>
    change (if _ then _ else _ : Bool) = _
    cases IcacheCcl.fillv (run.ccl t) (run.cclI t) <;> simp

theorem settled_of_asks (h : run.asks t = true) :
    (run.ccl t).state = .idle ∧ run.phase t = .settled ∧ run.phase (t + 1) = .asking := by
  rw [asks, Bool.and_eq_true] at h
  have idle := IcacheCcl.idle_of_fillv h.2
  have settled := ((run.steady t).2.free idle).1
  refine ⟨idle, settled, ?_⟩
  rw [phase_step, settled, h.1, h.2]
  rfl

/-- The phase before an instant in which no request goes out. -/
theorem settled_of_succ (h : run.phase (t + 1) = .settled) :
    run.phase t = .settled ∨ run.phase t = .serving := by
  rw [phase_step] at h
  by_contra other
  have rests := (run.steady t).2.rests fun serving => other (.inr serving)
  rw [(IcacheMcl.mtoc_of_rests rests.1).1] at h
  cases phase : run.phase t <;> rw [phase] at h <;> simp only [Phase.next] at h <;>
    split_ifs at h <;> simp_all

/-- The switch, the bank and the address of a request. -/
theorem request_fields (onm bank : Bool) (a : BitVec 28) (p : BitVec 29)
    (h : p = BitVec.ofBool onm ++ a.extractLsb 27 1 ++ BitVec.ofBool bank) :
    p.getLsbD 28 = onm ∧ p.getLsbD 0 = bank ∧ p.getLsbD 1 = a.getLsbD 1 ∧
      toCacheWord p = toCacheWord a ∧ toCacheLine p = toCacheLine a := by
  have bits : ∀ k, p.getLsbD k = if k < 1 then bank else if k < 28 then a.getLsbD k else
      if k < 29 then onm else false := by
    intro k
    rw [h]
    simp only [BitVec.getLsbD_append, BitVec.getLsbD_extractLsb, BitVec.getLsbD_ofBool]
    cases k with
    | zero => simp
    | succ n =>
      have top : (n - 27 = 0) = (n < 28) := by
        apply propext
        omega
      simp only [Nat.add_sub_cancel, top, Nat.add_comm 1 n]
      grind
  refine ⟨by rw [bits]; rfl, by rw [bits]; rfl, by rw [bits]; rfl, ?_, ?_⟩
  · apply BitVec.eq_of_getLsbD_eq
    intro k hk
    simp only [toCacheWord, BitVec.getLsbD_extractLsb, bits]
    grind
  · apply BitVec.eq_of_getLsbD_eq
    intro k hk
    simp only [toCacheLine, BitVec.getLsbD_extractLsb, bits]
    grind

/-! ### The empty bank -/

theorem banks_zero : run.Banks 0 where
  wv _ x := IcacheMcl.validBit_zero _ x
  vMetastable _ _ h := by rcases h with h | h <;> cases h
  vStable _ _ h := by cases h
  free _ := ⟨IcacheMcl.validBit_zero _, IcacheMcl.validBit_zero _⟩

theorem busy_of_phase (h : run.phase t ≠ .settled) : (run.ccl t).state ≠ .idle :=
  fun idle => h ((run.steady t).2.free idle).1

theorem mvbank_of_serving (held : run.Held) (serving : run.phase t = .serving) :
    (run.mcl t).mvbank = !(run.ccl t).mvbank := by
  have busy : (run.ccl t).state ≠ .idle := busy_of_phase (by rw [serving]; simp)
  rw [(reading t serving).mvbank]
  exact (request_fields _ _ _ _ ((waits held t).payload busy)).2.1

theorem wv_step {bank : Bool} {x : BitVec 3} (h : validBit (run.mcl (t + 1)).wv bank x = true) :
    validBit (run.mcl t).wv bank x = true ∨
      (run.mcl t).ryEn1 = true ∧ bank = (run.mcl t).mvbank ∧ x = (run.mcl t).ryA1fillc := by
  rw [mcl_step] at h
  split_ifs at h
  · exact IcacheMcl.validBit_wv h
  · exact .inl h

/-- No valid bit is set in the empty bank. -/
theorem empty_step (held : run.Held)
    (empty : Empty (run.mcl t).wv (run.ccl t).mvbank) :
    Empty (run.mcl (t + 1)).wv (run.ccl t).mvbank := by
  intro x
  by_contra on
  rw [Bool.not_eq_false] at on
  rcases wv_step on with old | ⟨ryEn1, bank, -⟩
  · exact Bool.false_ne_true ((empty x).symm.trans old)
  · by_cases serving : run.phase t = .serving
    · rw [mvbank_of_serving held serving] at bank
      cases h : (run.ccl t).mvbank <;> rw [h] at bank <;> cases bank
    · rw [((run.steady t).2.rests serving).2] at ryEn1
      cases ryEn1

/-- The levels that the CPU side finds its completion in. -/
theorem levels_of_not_rises (h : run.rises125 t = false) :
    (run.link.state (t + 1)).answerMeta = (run.link.state t).answerMeta ∧
      (run.link.state (t + 1)).answerStable = (run.link.state t).answerStable ∧
        (run.link.state (t + 1)).answerPrev = (run.link.state t).answerPrev := by
  have rises := (rises_link t).trans h
  rw [LinkRun.rises] at rises
  simp [LinkRun.state_succ, Link.step, rises]

theorem levels_of_rises (h : run.rises125 t = true) :
    (run.link.state (t + 1)).answerStable = (run.link.state t).answerMeta ∧
      (run.link.state (t + 1)).answerPrev = (run.link.state t).answerStable := by
  have rises := (rises_link t).trans h
  rw [LinkRun.rises] at rises
  simp [LinkRun.state_succ, Link.step, rises]

theorem levels_of_serving (h : run.phase t = .serving) :
    ((run.link.state t).answerPrev = true → (run.link.state t).answerStable = true) ∧
      ((run.link.state t).answerStable = true → (run.link.state t).answerMeta = true) := by
  have crosses := (run.steady t).1
  rw [h] at crosses
  exact ⟨crosses.2.2.1, crosses.2.2.2.1⟩

theorem wv_succ (held : run.Held) (banks : run.Banks t)
    (h : run.phase (t + 1) = .settled ∨ run.phase (t + 1) = .serving) :
    Empty (run.mcl (t + 1)).wv (run.ccl t).mvbank := by
  rcases h with settled | serving
  · exact empty_step held (banks.wv (settled_of_succ settled))
  · rw [phase_step] at serving
    rcases Phase.next_eq_serving serving with ⟨on, -⟩ | ⟨-, found⟩
    · exact empty_step held (banks.wv (.inr on))
    · obtain ⟨rises, seen⟩ := Bool.and_eq_true_iff.mp found
      have zero : (run.mcl (t + 1)).wv = 0 := by
        rw [mcl_of_rises rises]
        exact IcacheMcl.wv_of_seen seen
      rw [zero]
      exact IcacheMcl.validBit_zero _

theorem vMetastable_succ (banks : run.Banks t)
    (settled : run.phase (t + 1) = .settled)
    (low : (run.link.state (t + 1)).answerMeta = false)
    (high : (run.link.state (t + 1)).answerStable = true ∨
      (run.link.state (t + 1)).answerPrev = true) :
    Empty (run.state (t + 1)).vMetastable (run.ccl t).mvbank := by
  have before := settled_of_succ settled
  rw [vMetastable_step]
  cases rises : run.rises125 t with
  | true => exact banks.wv before
  | false =>
    obtain ⟨hmeta, hstable, hprev⟩ := levels_of_not_rises rises
    rw [hmeta] at low
    rw [hstable, hprev] at high
    rcases before with settled | serving
    · exact banks.vMetastable settled low high
    · obtain ⟨prev, stable⟩ := levels_of_serving serving
      grind

theorem vStable_succ (banks : run.Banks t)
    (settled : run.phase (t + 1) = .settled)
    (low : (run.link.state (t + 1)).answerStable = false)
    (high : (run.link.state (t + 1)).answerPrev = true) :
    Empty (run.state (t + 1)).vStable (run.ccl t).mvbank := by
  have before := settled_of_succ settled
  rw [vStable_step]
  cases rises : run.rises125 t with
  | true =>
    obtain ⟨hstable, hprev⟩ := levels_of_rises rises
    rw [hstable] at low
    rw [hprev] at high
    rcases before with settled | serving
    · exact banks.vMetastable settled low (.inl high)
    · rw [(levels_of_serving serving).2 high] at low
      cases low
  | false =>
    obtain ⟨-, hstable, hprev⟩ := levels_of_not_rises rises
    rw [hstable] at low
    rw [hprev] at high
    rcases before with settled | serving
    · exact banks.vStable settled low high
    · rw [(levels_of_serving serving).1 high] at low
      cases low

theorem free_succ_banks (banks : run.Banks t) (idle : (run.ccl (t + 1)).state = .idle) :
    Empty (run.state (t + 1)).vMetastable (run.ccl t).mvbank ∧
      Empty (run.state (t + 1)).vStable (run.ccl t).mvbank := by
  obtain ⟨crosses, steady⟩ := run.steady t
  rw [vMetastable_step, vStable_step]
  cases rises : run.rises125 t with
  | false =>
    rw [ccl_of_not_rises rises] at idle
    exact banks.free idle
  | true =>
    rw [ccl_of_rises rises] at idle
    rcases IcacheCcl.nextState_eq_idle steady.switched idle with idle | heard
    · exact ⟨banks.wv (.inl (steady.free idle).1), (banks.free idle).1⟩
    · have settled := (settled_of_heard crosses heard).1
      refine ⟨banks.wv (.inl settled), ?_⟩
      have found := (heard_link t).trans heard
      rw [Link.heard, Bool.and_eq_true, Bool.not_eq_true'] at found
      refine banks.vMetastable settled ?_ (.inr found.2)
      rw [settled] at crosses
      by_contra high
      have stable := crosses.2.2.1 (Bool.not_eq_false _ ▸ high) found.2
      exact Bool.false_ne_true (found.1.symm.trans stable)

theorem banks_succ (held : run.Held) (banks : run.Banks t) : run.Banks (t + 1) := by
  have next : (run.ccl (t + 1)).mvbank = _ := mvbank_step t
  cases quiet : run.asks t with
  | true =>
    have asking := (settled_of_asks quiet).2.2
    constructor
    · intro h
      rw [asking] at h
      rcases h with h | h <;> cases h
    · intro h
      rw [asking] at h
      cases h
    · intro h
      rw [asking] at h
      cases h
    · intro idle
      rw [((run.steady (t + 1)).2.free idle).1] at asking
      cases asking
  | false =>
    rw [quiet, Bool.xor_false] at next
    constructor <;> rw [next]
    · exact wv_succ held banks
    · exact vMetastable_succ banks
    · exact vStable_succ banks
    · exact free_succ_banks banks

/-- The bank for the next line is empty throughout. -/
theorem banks (held : run.Held) (t : ℕ) : run.Banks t := by
  induction t with
  | zero => exact banks_zero
  | succ t ih => exact banks_succ held ih

/-! ### The bank that is filled -/

/-- What the memory side reads when the cache is on. -/
theorem reading_on (held : run.Held) (serving : run.phase t = .serving)
    (onm : (run.ccl t).icOnm = true) : (run.mcl t).icOnm = true ∧
      (run.mcl t).ma0In1 = (run.ccl t).ma0.getLsbD 1 ∧
        (run.mcl t).reqw = toCacheWord (run.ccl t).ma0 ∧
          toCacheLine (run.mcl t).ma0 = toCacheLine (run.ccl t).ma0 := by
  have busy : (run.ccl t).state ≠ .idle := busy_of_phase (by rw [serving]; simp)
  obtain ⟨-, ma0In1, reqw, line, -⟩ := reading t serving
  have payload := (waits held t).payload busy
  rw [onm, if_pos rfl] at payload
  obtain ⟨switch, -, half, word, line'⟩ := request_fields _ _ _ _ payload
  refine ⟨?_, ma0In1.trans half, reqw.trans word, line.trans line'⟩
  rw [((run.steady t).2.serves serving).icOnm, switch]

/-- With the cache on a request is completed as soon as its words have been read. -/
theorem complete_of_read (serving : run.phase t = .serving) (onm : (run.mcl t).icOnm = true)
    (read : (run.mcl t).men = false) : (IcacheMcl.mtoc (run.mcl t)).rfillv = true := by
  obtain ⟨-, hon, ⟨men, -⟩ | ⟨-, rfillv, -⟩ | ⟨-, -, -, off⟩⟩ := (run.steady t).2.serves serving
  · rw [men] at read
    cases read
  · simp [IcacheMcl.mtoc, onm, rfillv]
  · rw [← hon, onm] at off
    cases off

theorem settled_keep (quiet : run.asks t = false) (settled : run.phase t = .settled) :
    run.phase (t + 1) = .settled := by
  rw [phase_step, settled]
  exact if_neg (Bool.eq_false_iff.mp quiet)

theorem serving_step (serving : run.phase t = .serving) : run.phase (t + 1) =
    if run.rises200 t && (IcacheMcl.mtoc (run.mcl t)).rfillv then .settled else .serving := by
  rw [phase_step, serving]
  rfl

theorem quiet_of_serving (serving : run.phase t = .serving) :
    IcacheMcl.seen (run.mcl t) (run.mclI t) = false := by
  simp [IcacheMcl.seen, ((run.steady t).2.serves serving).fillvDel1]

theorem filled_step (held : run.Held) (quiet : run.asks t = false)
    (onm : (run.ccl t).icOnm = true) {x : BitVec 3} (h : run.Filled t x) :
    run.Filled (t + 1) x := by
  rcases h with settled | ⟨serving, fetched⟩
  · exact .inl (settled_keep quiet settled)
  · rw [Filled, serving_step serving]
    cases rises : run.rises200 t with
    | false => exact .inr ⟨rfl, by rwa [mcl_of_not_rises rises]⟩
    | true =>
      cases done : (IcacheMcl.mtoc (run.mcl t)).rfillv with
      | true => exact .inl rfl
      | false =>
        have on := (reading_on held serving onm).1
        have men : (run.mcl t).men = true := by
          by_contra read
          rw [complete_of_read serving on (Bool.not_eq_true _ ▸ read)] at done
          cases done
        refine .inr ⟨rfl, ?_⟩
        rw [mcl_of_rises rises]
        exact (IcacheMcl.fetched_step (quiet_of_serving serving) on men x).mpr (.inl fetched)

/-- A word is there that was there or that arrives. -/
theorem filled_of_succ (held : run.Held) (onm : (run.ccl t).icOnm = true) {x : BitVec 3}
    (h : run.Filled (t + 1) x) :
    run.Filled t x ∨ run.phase t = .serving ∧ run.rises200 t = true ∧ (run.mcl t).men = true ∧
      (run.clk t).ma.ackR = true ∧ x = toCacheWord (run.mcl t).ma0 := by
  rcases h with settled | ⟨serving, fetched⟩
  · refine .inl ((settled_of_succ settled).imp_right fun serving => ⟨serving, ?_⟩)
    rw [serving_step serving] at settled
    split_ifs at settled with done
    intro men
    rw [Bool.and_eq_true] at done
    rw [IcacheMcl.men_of_complete ((run.steady t).2.serves serving) done.2] at men
    cases men
  · rw [phase_step] at serving
    rcases Phase.next_eq_serving serving with ⟨on, continues⟩ | ⟨-, found⟩
    · cases rises : run.rises200 t with
      | false =>
        rw [mcl_of_not_rises rises] at fetched
        exact .inl (.inr ⟨on, fetched⟩)
      | true =>
        rw [rises, Bool.true_and] at continues
        have switch := (reading_on held on onm).1
        have men : (run.mcl t).men = true := by
          by_contra read
          rw [complete_of_read on switch (Bool.not_eq_true _ ▸ read)] at continues
          cases continues
        rw [mcl_of_rises rises,
          IcacheMcl.fetched_step (quiet_of_serving on) switch men x] at fetched
        rcases fetched with fetched | ⟨ack, word⟩
        · exact .inl (.inr ⟨on, fetched⟩)
        · exact .inr ⟨on, rfl, men, ack, word⟩
    · obtain ⟨rises, seen⟩ := Bool.and_eq_true_iff.mp found
      rw [mcl_of_rises rises] at fetched
      exact absurd fetched (IcacheMcl.not_fetched_of_seen seen x)

/-- With a word its half words arrive. -/
theorem critical_succ (held : run.Held) (reads : run.Reads mem)
    (onm : (run.ccl t).icOnm = true) (fills : run.Fills mem t) (x : BitVec 3)
    (h : run.Filled (t + 1) x) :
    Critical (lineWords (mem t) (run.ccl t).ma0) (run.ccl t).ma0 x (run.mcl (t + 1)).cd := by
  have filled := filled_of_succ held onm h
  cases rises : run.rises200 t with
  | false =>
    rw [mcl_of_not_rises rises]
    rcases filled with filled | ⟨-, on, -⟩
    · exact fills.critical x filled
    · rw [rises] at on
      cases on
  | true =>
    rw [mcl_of_rises rises]
    -- a word that comes may be the critical one
    by_cases arrives : (run.mcl t).men = true ∧ (run.clk t).ma.ackR = true
    · obtain ⟨men, ack⟩ := arrives
      have serving : run.phase t = .serving := by
        by_contra rests
        rw [((run.steady t).2.rests rests).1.men] at men
        cases men
      -- what the memory answers is the word at the address on the port
      obtain ⟨switch, ma0In1, reqw, line⟩ := reading_on held serving onm
      have data : (run.clk t).ma.d =
          lineWords (mem t) (run.ccl t).ma0 (toCacheWord (run.mcl t).ma0) := by
        rw [reads t rises men ack, lineWords, ← line, ← wordAddress]
        rfl
      refine IcacheMcl.critical_step (i := run.mclI t) men switch ack reqw ma0In1 data
        (fun x fetched => fills.critical x (.inr ⟨serving, fetched⟩)) x ?_
      rcases filled with (settled | ⟨-, fetched⟩) | ⟨-, -, -, -, word⟩
      · rw [serving] at settled
        cases settled
      · exact .inl fetched
      · exact .inr word
    · have keep : (IcacheMcl.step (run.mcl t) (run.mclI t)).cd = (run.mcl t).cd :=
        if_neg (by simp only [Bool.and_eq_true]; exact fun on => arrives on.1)
      rw [keep]
      rcases filled with filled | ⟨-, -, men, ack, -⟩
      · exact fills.critical x filled
      · exact absurd ⟨men, ack⟩ arrives

/-- The word that is written has its valid bit set one clock later. -/
theorem ryEn1_succ (held : run.Held) (quiet : run.asks t = false)
    (onm : (run.ccl t).icOnm = true) (fills : run.Fills mem t)
    (h : (run.mcl (t + 1)).ryEn1 = true) : run.Filled (t + 1) (run.mcl (t + 1)).ryA1fillc := by
  cases rises : run.rises200 t with
  | false =>
    rw [mcl_of_not_rises rises] at h ⊢
    exact filled_step held quiet onm (fills.ryEn1 h)
  | true =>
    rw [mcl_of_rises rises] at h
    obtain ⟨men, ack⟩ := Bool.and_eq_true_iff.mp h
    have serving : run.phase t = .serving := by
      by_contra rests
      rw [((run.steady t).2.rests rests).1.men] at men
      cases men
    have switch := (reading_on held serving onm).1
    refine .inr ⟨?_, ?_⟩
    · rw [serving_step serving, if_neg]
      intro done
      rw [Bool.and_eq_true] at done
      rw [IcacheMcl.men_of_complete ((run.steady t).2.serves serving) done.2] at men
      cases men
    · rw [mcl_of_rises rises]
      exact (IcacheMcl.fetched_step (quiet_of_serving serving) switch men _).mpr (.inr ⟨ack, rfl⟩)

/-- Without a request the address that was missed stays. -/
theorem ma0_keep (quiet : run.asks t = false) : (run.ccl (t + 1)).ma0 = (run.ccl t).ma0 := by
  rw [ccl_step]
  split_ifs with rises
  · refine if_neg fun miss1 => ?_
    rw [asks, rises, IcacheCcl.fillv, miss1] at quiet
    cases quiet
  · rfl

/-- A request that goes on was there, and for a cache with the same switch. -/
theorem busy_of_succ (quiet : run.asks t = false) (busy : (run.ccl (t + 1)).state ≠ .idle) :
    (run.ccl t).state ≠ .idle ∧ (run.ccl (t + 1)).icOnm = (run.ccl t).icOnm := by
  rw [ccl_step] at busy ⊢
  rw [asks] at quiet
  split_ifs at busy ⊢ with rises
  · rw [rises, Bool.true_and] at quiet
    exact ⟨busy_of_nextState quiet busy, icOnm_of_busy busy⟩
  · exact ⟨busy, rfl⟩

theorem fills_succ (held : run.Held) (reads : run.Reads mem) (constant : run.Constant mem)
    (quiet : run.asks t = false)
    (onm : (run.ccl t).icOnm = true) (fills : run.Fills mem t) : run.Fills mem (t + 1) := by
  have mvbank : (run.ccl (t + 1)).mvbank = (run.ccl t).mvbank := by
    rw [mvbank_step, quiet, Bool.xor_false]
  have ma0 := ma0_keep quiet
  constructor
  · rw [ma0, constant t onm]
    exact critical_succ held reads onm fills
  · exact ryEn1_succ held quiet onm fills
  · rw [mvbank]
    intro x valid
    rcases wv_step valid with old | ⟨ryEn1, -, rfl⟩
    · exact filled_step held quiet onm (fills.wv x old)
    · exact filled_step held quiet onm (fills.ryEn1 ryEn1)
  · rw [mvbank, ma0, constant t onm, vMetastable_step, ccl_step]
    cases run.rises125 t with
    | false => exact fills.vMetastable
    | true => exact fun x valid => fills.critical x (fills.wv x valid)
  · rw [mvbank, ma0, constant t onm, vStable_step, ccl_step]
    cases run.rises125 t with
    | false => exact fills.vStable
    | true => exact fills.vMetastable

/-- A new line starts without valid bits. -/
theorem fills_of_asks (held : run.Held) (asks : run.asks t = true) : run.Fills mem (t + 1) := by
  obtain ⟨idle, settled, asking⟩ := settled_of_asks asks
  have banks := banks held t
  have mvbank : (!(run.ccl (t + 1)).mvbank) = (run.ccl t).mvbank := by
    rw [mvbank_step, asks, Bool.xor_true, Bool.not_not]
  have rises := (Bool.and_eq_true_iff.mp asks).1
  have unfilled : ∀ x, ¬ run.Filled (t + 1) x := by
    intro x
    rw [Filled, asking]
    simp
  constructor
  · exact fun x filled => absurd filled (unfilled x)
  · intro ryEn1
    rw [((run.steady (t + 1)).2.rests (by rw [asking]; simp)).2] at ryEn1
    cases ryEn1
  · intro x valid
    rw [mvbank, empty_step held (banks.wv (.inl settled)) x] at valid
    cases valid
  · intro x valid
    rw [mvbank, vMetastable_step, if_pos rises, banks.wv (.inl settled) x] at valid
    cases valid
  · intro x valid
    rw [mvbank, vStable_step, if_pos rises, (banks.free idle).1 x] at valid
    cases valid

/-- While a line is filled the valid bits of its bank are for its words. -/
theorem fills (held : run.Held) (reads : run.Reads mem) (constant : run.Constant mem) (t : ℕ)
    (busy : (run.ccl t).state ≠ .idle) (onm : (run.ccl t).icOnm = true) : run.Fills mem t := by
  induction t with
  | zero => exact absurd rfl busy
  | succ t ih =>
    cases quiet : run.asks t with
    | true => exact fills_of_asks held quiet
    | false =>
      obtain ⟨before, same⟩ := busy_of_succ quiet busy
      rw [same] at onm
      exact fills_succ held reads constant quiet onm (ih before onm)

/-- The bank of the request is the one that the CPU side looks at. -/
theorem wvsel_eq (t : ℕ) : IcacheCcl.wvsel (run.ccl t) (run.cclI t) =
    validBit (run.state t).vStable (!(run.ccl t).mvbank) (toCacheWord (run.clk t).a.a) := by
  rw [IcacheCcl.wvsel]
  cases (run.ccl t).mvbank <;> rfl

/-- A half word that is found during a fill is that of the memory. -/
theorem critical (held : run.Held) (reads : run.Reads mem) (constant : run.Constant mem)
    (state : (run.ccl t).state = .miss2 ∨ (run.ccl t).state = .miss3)
    (onm : (run.ccl t).icOnm = true)
    (hit : IcacheCcl.filllineHit (run.ccl t) (run.cclI t) = true) :
    (run.y t).d = toCacheIdata (run.clk t).a.a (mem t ((run.clk t).a.a.extractLsb 27 2)) := by
  have busy : (run.ccl t).state ≠ .idle := by
    rcases state with h | h <;> rw [h] <;> simp
  rw [IcacheCcl.filllineHit, wvsel_eq] at hit
  simp only [Bool.and_eq_true, Bool.or_eq_true, beq_iff_eq] at hit
  obtain ⟨⟨line, near⟩, valid⟩ := hit
  have half := (fills held reads constant t busy onm).vStable _ valid _ rfl near
  have address : toCacheLine (run.clk t).a.a = toCacheLine (run.ccl t).ma0 := line
  rw [wordAddress, address, y, IcacheCcl.y, if_pos onm, if_pos state]
  exact half

end IcacheRun

end JCore
