import JCore.Cache.Ready

/-!
# Transparency of the instruction cache

Every fetch that is acknowledged gets the half word of the memory at its address. With the
cache on that is what the memory holds. With the cache off it is what the memory held when
it answered the request for this fetch.

## Main definitions

* `IcacheAdapterRun.Current`: a half word that the memory held during a fetch
* `IcacheAdapterRun.Fetches`: where it is on its way to a CPU that goes without the cache

## Main results

* `IcacheAdapterRun.fetches`: a fetch without the cache is on its way throughout
* `IcacheAdapterRun.fetch_transparent`: the answer to a fetch
-/

namespace JCore

namespace IcacheAdapterRun

variable {tagRam : TagRam1rw} {dataRam : DataRam2rw} (run : IcacheAdapterRun tagRam dataRam)
  (mem : ℕ → BitVec 26 → BitVec 32) (t : ℕ)

/-- The memory held the half word after the fetch, which the CPU has kept up since. -/
def Current (a : IcacheI) (d : BitVec 16) : Prop :=
  ∃ u < t, (∀ s, u ≤ s → s ≤ t → run.icache.pending s = some a) ∧
    d = toCacheIdata a.a (mem u (a.a.extractLsb 27 2))

/-- The answer of the memory side on its way. -/
def answer : BitVec 16 := (run.icache.state t).thisbm.dValue.extractLsb 19 4

/-- The half word that was asked for, from its register to the CPU side. -/
structure Fetches : Prop where
  read : run.icache.phase t = .serving → (run.icache.mcl t).rfillv = true →
    run.Current mem t (run.icache.ccl t).aPrev (run.icache.mcl t).d
  sent : run.icache.phase t = .serving → (run.icache.mcl t).rfillvDel1 = true →
    run.Current mem t (run.icache.ccl t).aPrev (run.answer t)
  done : run.icache.phase t = .settled →
    run.Current mem t (run.icache.ccl t).aPrev (run.answer t)

variable {run mem t}

/-! ### A fetch without the cache -/

/-- Without the cache the CPU waits for the last fetch. -/
theorem pending_of_off (held : run.icache.Held) (off : (run.icache.ccl t).icOnm = false)
    (busy : (run.icache.ccl t).state ≠ .idle) :
    run.icache.pending t = some (run.icache.ccl t).aPrev :=
  (IcacheRun.waits held t).waits
    (IcacheRun.waiting_of_off (run.icache.steady t).2.switched off busy)

theorem Current.succ {a : IcacheI} {d : BitVec 16} (current : run.Current mem t a d)
    (pending : run.icache.pending (t + 1) = some a) : run.Current mem (t + 1) a d := by
  obtain ⟨u, before, kept, data⟩ := current
  refine ⟨u, Nat.lt_succ_of_lt before, fun s from_u upto => ?_, data⟩
  rcases Nat.le_succ_iff.mp upto with earlier | rfl
  · exact kept s from_u earlier
  · exact pending

/-- The half word in the answer that carries it. -/
theorem answer_dMcl (this : IcacheReg) :
    (Icache.dMcl this).extractLsb 19 4 = (this.mcl.d : BitVec 16) := by
  apply BitVec.eq_of_getLsbD_eq
  intro k hk
  simp only [Icache.dMcl, Icache.mtoc1, IcacheMcl.mtoc, BitVec.getLsbD_extractLsb,
    BitVec.getLsbD_append]
  grind

/-- The answer changes only when a half word has been read. -/
theorem answer_succ (t : ℕ) : run.answer (t + 1) =
    if run.icache.rises200 t && (run.icache.mcl t).rfillv then (run.icache.mcl t).d
    else run.answer t := by
  rw [answer, IcacheRun.thisbm_succ]
  cases rises : run.icache.rises200 t with
  | false => rfl
  | true =>
    rw [if_pos rfl, Bool.true_and]
    change (if (run.icache.mcl t).rfillv then Icache.dMcl (run.icache.state t)
      else (run.icache.state t).thisbm.dValue).extractLsb 19 4 = _
    cases (run.icache.mcl t).rfillv with
    | false => rfl
    | true => exact answer_dMcl (run.icache.state t)

theorem serving_of_keep (rises : run.icache.rises200 t = false)
    (serving : run.icache.phase (t + 1) = .serving) : run.icache.phase t = .serving := by
  rw [IcacheRun.phase_step, rises] at serving
  rcases Phase.next_eq_serving serving with ⟨on, -⟩ | ⟨-, found⟩
  · exact on
  · cases found

/-- What the memory side reads for a cache that is switched off. -/
theorem reading_off (held : run.icache.Held) (serving : run.icache.phase t = .serving)
    (off : (run.icache.ccl t).icOnm = false) : (run.icache.mcl t).icOnm = false ∧
      (run.icache.mcl t).ma0In1 = (run.icache.ccl t).aPrev.a.getLsbD 1 ∧
        ((run.icache.mcl t).ma0.extractLsb 27 2 : BitVec 26) =
          (run.icache.ccl t).aPrev.a.extractLsb 27 2 := by
  have busy : (run.icache.ccl t).state ≠ .idle :=
    IcacheRun.busy_of_phase (by rw [serving]; simp)
  obtain ⟨-, ma0In1, -, line, word⟩ := IcacheRun.reading t serving
  have payload := (IcacheRun.waits held t).payload busy
  rw [off, if_neg Bool.false_ne_true] at payload
  obtain ⟨switch, -, half, word', line'⟩ := IcacheRun.request_fields _ _ _ _ payload
  have onm : (run.icache.mcl t).icOnm = false :=
    ((run.icache.steady t).2.serves serving).icOnm.trans switch
  refine ⟨onm, ma0In1.trans half, ?_⟩
  rw [wordAddress, wordAddress, line.trans line', (word onm).trans word']

/-- The half word is in its register when the memory has answered. -/
theorem read_step (held : run.icache.Held) (reads : run.icache.Reads mem)
    (off : (run.icache.ccl t).icOnm = false) (busy : (run.icache.ccl t).state ≠ .idle)
    (pending : run.icache.pending (t + 1) = some (run.icache.ccl t).aPrev)
    (rises : run.icache.rises200 t = true) (read : (run.icache.mcl (t + 1)).rfillv = true) :
    run.Current mem (t + 1) (run.icache.ccl t).aPrev (run.icache.mcl (t + 1)).d := by
  rw [IcacheRun.mcl_of_rises rises] at read ⊢
  have last : ((run.icache.mcl t).men &&
    IcacheMcl.last (run.icache.mcl t) (run.icache.mclI t)) = true := read
  rw [IcacheMcl.last, Bool.and_eq_true, Bool.and_eq_true] at last
  obtain ⟨men, ack, -⟩ := last
  have serving : run.icache.phase t = .serving := by
    by_contra rests
    rw [((run.icache.steady t).2.rests rests).1.men] at men
    cases men
  obtain ⟨-, ma0In1, address⟩ := reading_off held serving off
  refine ⟨t, Nat.lt_succ_self t, ?_, ?_⟩
  · intro s from_t upto
    rcases Nat.le_succ_iff.mp upto with earlier | rfl
    · rw [Nat.le_antisymm earlier from_t]
      exact pending_of_off held off busy
    · exact pending
  · have data : (run.clk t).ma.d = _ := reads t rises men ack
    change toCacheIdata (BitVec.ofBool (run.icache.mcl t).ma0In1 ++ 0#1) (run.clk t).ma.d = _
    rw [data, IcacheMcl.my, address, ma0In1, toCacheIdata, toCacheIdata]
    cases (run.icache.ccl t).aPrev.a.getLsbD 1 <;> rfl

/-- A fetch without the cache is on its way as long as the CPU side is busy with it. -/
theorem fetches_succ (held : run.icache.Held) (reads : run.icache.Reads mem)
    (off : (run.icache.ccl t).icOnm = false) (busy : (run.icache.ccl t).state ≠ .idle)
    (pending : run.icache.pending (t + 1) = some (run.icache.ccl (t + 1)).aPrev)
    (fetches : run.Fetches mem t) : run.Fetches mem (t + 1) := by
  -- the address stays, since the fetch is held
  have aPrev : (run.icache.ccl (t + 1)).aPrev = (run.icache.ccl t).aPrev := by
    rw [IcacheRun.ccl_step]
    split_ifs with rises
    · have fetch : (run.clk t).a = _ := held t rises _ (pending_of_off held off busy)
      change (if (run.clk t).a.en then (run.clk t).a else _) = _
      rw [fetch, ite_self]
    · rfl
  rw [aPrev] at pending
  have steady := (run.icache.steady t).2
  constructor
  -- the word has been read
  · intro serving read
    rw [aPrev]
    cases rises : run.icache.rises200 t with
    | true => exact read_step held reads off busy pending rises read
    | false =>
      rw [IcacheRun.mcl_of_not_rises rises] at read ⊢
      exact (fetches.read (serving_of_keep rises serving) read).succ pending
  -- and is sent a clock later
  · intro serving delayed
    rw [aPrev, answer_succ]
    cases rises : run.icache.rises200 t with
    | true =>
      rw [IcacheRun.mcl_of_rises rises] at delayed
      have read : (run.icache.mcl t).rfillv = true := delayed
      rw [read, Bool.and_true, if_pos rfl]
      refine (fetches.read ?_ read).succ pending
      by_contra rests
      rw [(steady.rests rests).1.rfillv] at read
      cases read
    | false =>
      rw [IcacheRun.mcl_of_not_rises rises] at delayed
      rw [Bool.false_and, if_neg Bool.false_ne_true]
      exact (fetches.sent (serving_of_keep rises serving) delayed).succ pending
  -- what was sent before the completion is there when it is heard
  · intro settled
    rw [aPrev, answer_succ]
    rcases IcacheRun.settled_of_succ settled with before | serving
    · have quiet := (steady.rests (by rw [before]; simp)).1.rfillv
      rw [quiet, Bool.and_false, if_neg Bool.false_ne_true]
      exact (fetches.done before).succ pending
    · have off' := (reading_off held serving off).1
      rw [IcacheRun.serving_step serving] at settled
      split_ifs at settled with complete
      rw [Bool.and_eq_true, IcacheMcl.mtoc, off', if_neg Bool.false_ne_true] at complete
      have quiet : (run.icache.mcl t).rfillv = false := by
        rcases (steady.serves serving).phase with ⟨-, quiet, -⟩ | ⟨-, -, del1⟩ | ⟨-, quiet, -⟩
        · exact quiet
        · rw [del1] at complete
          exact absurd complete.2 Bool.false_ne_true
        · exact quiet
      rw [quiet, Bool.and_false, if_neg Bool.false_ne_true]
      exact (fetches.sent serving complete.2).succ pending

/-- It is on its way throughout. -/
theorem fetches (held : run.icache.Held) (reads : run.icache.Reads mem) (t : ℕ)
    (busy : (run.icache.ccl t).state ≠ .idle) (off : (run.icache.ccl t).icOnm = false) :
    run.Fetches mem t := by
  induction t with
  | zero => exact absurd rfl busy
  | succ t ih =>
    cases asks : run.icache.asks t with
    | true =>
      have asking := (IcacheRun.settled_of_asks asks).2.2
      constructor <;> rw [asking] <;> exact fun h => by cases h
    | false =>
      obtain ⟨before, same⟩ := IcacheRun.busy_of_succ asks busy
      have before_off := same.symm.trans off
      exact fetches_succ held reads before_off before (pending_of_off held off busy)
        (ih before before_off)

/-! ### The answer -/

/-- An answer without the cache. -/
theorem heard_off (held : run.icache.Held) (reads : run.icache.Reads mem)
    (off : (run.icache.ccl t).icOnm = false) (ack : (run.icache.y t).ack = true) :
    run.Current mem t (run.icache.ccl t).aPrev (run.icache.y t).d ∧
      (run.icache.ccl t).state ≠ .idle := by
  obtain ⟨crosses, steady⟩ := run.icache.steady t
  have heard : IcacheCcl.yAckOff (run.icache.ccl t) (run.icache.cclI t) = true := by
    rw [IcacheRun.y, IcacheCcl.y, off] at ack
    exact ack
  obtain ⟨settled, stable⟩ := IcacheRun.settled_of_heard crosses heard
  have busy : (run.icache.ccl t).state ≠ .idle := by
    intro idle
    have quiet := (steady.free idle).2.2.2
    rw [IcacheRun.state_link] at quiet
    have prev : (run.icache.ccl t).rfillv = false := quiet
    rw [IcacheCcl.yAckOff, prev, Bool.and_false] at heard
    cases heard
  refine ⟨?_, busy⟩
  have data : (run.icache.y t).d = run.answer t := by
    rw [IcacheRun.y, IcacheCcl.y, off, answer, ← stable]
    apply BitVec.eq_of_getLsbD_eq
    intro k hk
    change (BitVec.extractLsb 15 0 (0#1 ++ (BitVec.extractLsb 19 4 _ : BitVec 16) : BitVec 17)).getLsbD
      k = _
    simp only [BitVec.getLsbD_extractLsb, BitVec.getLsbD_append]
    grind
  rw [data]
  exact (fetches held reads t busy off).done settled

/-- Every fetch that is acknowledged gets the half word that the memory holds at its address,
from a cache that is switched off one that it held since the fetch. -/
theorem fetch_transparent (tagLawful : tagRam.Lawful) (dataLawful : dataRam.Lawful)
    (held : run.icache.Held) (reads : run.icache.Reads mem) (constant : run.icache.Constant mem)
    (acked : run.icache.acked t = true) :
    ∃ u ≤ t, (if (run.icache.ccl t).icOnm then u = t
        else ∀ s, u ≤ s → s ≤ t → run.icache.pending s = some (run.clk t).a) ∧
      (run.icache.y t).d =
        toCacheIdata (run.clk t).a.a (mem u ((run.clk t).a.a.extractLsb 27 2)) := by
  rw [IcacheRun.acked, Bool.and_eq_true, Bool.and_eq_true] at acked
  obtain ⟨⟨rises, -⟩, ack⟩ := acked
  cases onm : (run.icache.ccl t).icOnm with
  | false =>
    obtain ⟨⟨u, before, kept, data⟩, busy⟩ := heard_off held reads onm ack
    have fetch : (run.clk t).a = _ := held t rises _ (pending_of_off held onm busy)
    rw [fetch]
    exact ⟨u, before.le, kept, data⟩
  | true =>
    refine ⟨t, le_refl t, rfl, ?_⟩
    have sources : IcacheCcl.yAckBeforetI (run.icache.ccl t) (run.icache.cclI t) = true ∨
        IcacheCcl.yAckBeforetD (run.icache.ccl t) (run.icache.cclI t) = true ∧
          IcacheCcl.cachehit (run.icache.ccl t) (run.icache.cclI t) = true := by
      rw [IcacheRun.y, IcacheCcl.y, onm] at ack
      rwa [← Bool.and_eq_true, ← Bool.or_eq_true]
    rcases sources with early | ⟨early, cachehit⟩
    · -- the half word is found during a fill
      have found : ((run.icache.ccl t).state = .miss2 ∨ (run.icache.ccl t).state = .miss3) ∧
          IcacheCcl.filllineHit (run.icache.ccl t) (run.icache.cclI t) = true := by
        grind [IcacheCcl.yAckBeforetI]
      exact IcacheRun.critical held reads constant found.1 onm found.2
    · exact hit tagLawful dataLawful held reads constant rises onm early cachehit

/-- A memory whose half words all differ. -/
def halves (x : BitVec 26) : BitVec 32 := x.setWidth 16 ++ ~~~x.setWidth 16

/-- Fetches from two lines and then from the first again, at both clocks and with a memory that
answers at once. The first fetch is answered by the memory, and then the cache is switched on. -/
def repeated : IcacheAdapterRun syncRam dualPortRam where
  clk125 := false
  clk200 := false
  ram := { tag := (fun _ => 0, 0), ram0 := (fun _ => 0, 0), ram1 := (fun _ => 0, 0) }
  clk t :=
    -- the word that is read at the instant
    let x : BitVec 26 :=
      if t < 30 then 0x40 else if t < 62 then 0x40 + (t - 30) / 2 else 0x88 + (t - 70) / 2 % 8
    { clk125 := true, clk200 := true
      a := { a := if t < 62 then 0x102 else if t < 102 then 0x224 else 0x10e, en := true }
      icccra := { icOnm := true, icInv := false }
      ma := { d := halves x, ack := t < 90, ackR := t < 90 } }

theorem held_repeated : repeated.icache.Held := by
  have early : ∀ t < 102, repeated.icache.rises125 t = true →
      repeated.icache.pending t = none ∨
        repeated.icache.pending t = some (repeated.icache.clk t).a := by decide +kernel
  -- from then on the fetch is the same
  have same : ∀ t, 102 ≤ t → (repeated.icache.clk t).a = { a := 0x10e, en := true } := by
    intro t le
    change IcacheI.mk (if t < 62 then 0x102 else if t < 102 then 0x224 else 0x10e) true = _
    rw [if_neg (by omega), if_neg (by omega)]
  have late : ∀ t, 102 ≤ t → ∀ a, repeated.icache.pending t = some a →
      a = { a := 0x10e, en := true } := by
    intro t le
    induction t, le using Nat.le_induction with
    | base =>
      have none : repeated.icache.pending 102 = none := by decide +kernel
      simp [none]
    | succ t le ih =>
      intro a pending
      cases rises : repeated.icache.rises125 t with
      | false => exact ih a ((IcacheRun.pending_of_not_rises rises).symm.trans pending)
      | true =>
        rw [IcacheRun.pending_of_rises rises] at pending
        split_ifs at pending
        exact (Option.some.inj pending).symm.trans (same t le)
  intro t rises a pending
  rcases Nat.lt_or_ge t 102 with before | after
  · rcases early t before rises with none | some
    · rw [none] at pending
      cases pending
    · exact Option.some.inj (some.symm.trans pending)
  · exact (same t after).trans (late t after a pending).symm

theorem reads_repeated : repeated.icache.Reads fun _ => halves := by
  have early : ∀ t < 90, repeated.icache.rises200 t = true →
      (IcacheMcl.my (repeated.icache.mcl t)).en = true → (repeated.icache.clk t).ma.ackR = true →
        (repeated.icache.clk t).ma.d =
          halves ((IcacheMcl.my (repeated.icache.mcl t)).a.extractLsb 27 2) := by decide +kernel
  intro t rises en ackR
  rcases Nat.lt_or_ge t 90 with before | after
  · exact early t before rises en ackR
  · have ackR : decide (t < 90) = true := ackR
    have before := of_decide_eq_true ackR
    omega

/-- The answers without the cache, during the fill of the line, and after it; during the fill
of another line, and of another word of the first line after it. -/
theorem fetch_transparent_repeated :
    (repeated.icache.y 18).d = 0xffbf#16 ∧ (repeated.icache.y 38).d = 0xffbf#16 ∧
      (repeated.icache.y 60).d = 0xffbf#16 ∧ (repeated.icache.y 80).d = 0x0089#16 ∧
      (repeated.icache.y 104).d = 0xffbc#16 := by
  have constant : repeated.icache.Constant fun _ => halves := fun _ _ => rfl
  have fetches (t : ℕ) (acked : repeated.icache.acked t = true) : (repeated.icache.y t).d =
      toCacheIdata (repeated.icache.clk t).a.a
        (halves ((repeated.icache.clk t).a.a.extractLsb 27 2)) := by
    obtain ⟨u, -, -, data⟩ := fetch_transparent syncRam_lawful dualPortRam_lawful held_repeated
      reads_repeated constant acked
    exact data
  refine ⟨(fetches 18 (by decide +kernel)).trans ?_, (fetches 38 (by decide +kernel)).trans ?_,
    (fetches 60 (by decide +kernel)).trans ?_, (fetches 80 (by decide +kernel)).trans ?_,
    (fetches 104 (by decide +kernel)).trans ?_⟩
  all_goals decide

end IcacheAdapterRun

end JCore
