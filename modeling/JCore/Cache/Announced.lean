import JCore.Cache.Broadcast

/-!
# Every store is announced

With clocks that keep pace every write that the memory acknowledges is announced to the
other cache once, and nothing else is. The line that is announced is that of the store, and
the stores come in order, unless a read is sent while the cache is switched off before an
earlier store has been announced: the register of the line takes the address of the read.

## Main definitions

* `DcacheRun.found`: the stores that the memory side has found
* `DcacheRun.Notified`: how far their notices have come

## Main results

* `DcacheRun.notified`: it holds throughout
* `DcacheRun.stores_announced`: the announcements of a run
* `DcacheRun.announcement_disturbed`: a run in which the line of a read is announced
-/

namespace JCore

theorem DcacheCcl.en_of_off1 {this : DcacheCclReg} {i : DcacheCclI}
    (h : DcacheCcl.nextState this i = .off1) : i.a.en = true := by
  grind [DcacheCcl.nextState, DcacheCcl.nextStateOn, DcacheCcl.nextStateOff]

namespace DcacheRun

section Definitions

variable (run : DcacheRun) (t : ℕ)

/-- The stores that the memory side has found. -/
def found : List (BitVec 23) := (history run.received t).filterMap storeLine

/-- What is known of the answers when a request has been completed, with the samples of the
CPU side since. -/
def Confirmed : Stage → Prop
  | .answering0 => run.notices.posted t ≤ run.notices.answered t + 1
  | .answering1 => run.notices.posted t ≤ run.notices.answered1 t + 1
  | .answering2 | .idle => run.notices.posted t ≤ run.notices.answered2 t + 1
  | _ => True

/-- The CPU clock has risen since the last request went out, or it is still low after the
request has passed the latch. -/
def Sampled : Prop :=
  run.notices.posted1 t = run.notices.posted t ∨ run.link.stage t = .asked ∨
    (run.link.stage t = .crossing0 ∨ run.link.stage t = .crossing1 ∨
      run.link.stage t = .crossing2) ∧
      (run.link.state t).high = false ∧ (run.link.state t).answerMeta = false

/-- How far the notices have come. -/
structure Notified : Prop where
  holds : run.notices.Holds t
  found : (run.found t).length ≤ run.notices.posted1 t
  sampled : run.Sampled t
  /-- one write at most has been acknowledged since the CPU clock rose -/
  once : run.notices.answered t = run.notices.answered1 t ∨
    run.notices.answered t = run.notices.answered1 t + 1 ∧
      run.mcl.sinceWrite (run.mclTime t) ≤ run.edges t
  confirmed : run.Confirmed t (run.link.stage t)

end Definitions

variable {run : DcacheRun} {t : ℕ}

/-! ### Clocks that go on -/

/-- The next rising edge of the CPU clock. -/
theorem exists_next_rise (ticks : run.link.Ticks) (t : ℕ) :
    ∃ u ≥ t, run.rises125 u = true ∧ ∀ v, t ≤ v → v < u → run.rises125 v = false := by
  have comes := LinkRun.exists_rises ticks.client t
  obtain ⟨le, rises⟩ := Nat.find_spec comes
  refine ⟨Nat.find comes, le, (rises_link _).symm.trans rises, fun v from_t before => ?_⟩
  rw [← rises_link]
  exact Bool.eq_false_of_not_eq_true fun on => Nat.find_min comes before ⟨from_t, on⟩

theorem edges_succ (t : ℕ) : run.edges (t + 1) =
    (if run.rises125 t then 0 else run.edges t) + if run.rises200 t then 1 else 0 := rfl

/-- The bound on the edges of the memory clock holds within a clock of the CPU too. -/
theorem edges_le (paced : run.Paced) (ticks : run.link.Ticks) (t : ℕ) : run.edges t ≤ 4 := by
  obtain ⟨u, le, rises, quiet⟩ := exists_next_rise ticks t
  have grows : ∀ v, t ≤ v → v ≤ u → run.edges t ≤ run.edges v := by
    intro v from_t
    induction v, from_t using Nat.le_induction with
    | base => exact fun _ => le_rfl
    | succ v from_t ih =>
      intro before
      rw [edges_succ, quiet v from_t before]
      exact (ih (Nat.le_of_succ_le before)).trans (Nat.le_add_right _ _)
  exact (grows u le le_rfl).trans (paced.clock u rises)

theorem serverInLow_le (paced : run.Paced) (ticks : run.link.Ticks)
    (low : (run.link.state t).high = false) : run.link.serverInLow t ≤ 2 := by
  obtain ⟨u, le, rises, quiet⟩ := exists_next_rise ticks t
  have grows : ∀ v, t ≤ v → v ≤ u →
      (run.link.state v).high = false ∧ run.link.serverInLow t ≤ run.link.serverInLow v := by
    intro v from_t
    induction v, from_t using Nat.le_induction with
    | base => exact fun _ => ⟨low, le_rfl⟩
    | succ v from_t ih =>
      intro before
      obtain ⟨high, more⟩ := ih (Nat.le_of_succ_le before)
      have still : (run.link.clk v).client = false := by
        have none := (rises_link v).trans (quiet v from_t before)
        rwa [LinkRun.rises, Link.rises, high, Bool.not_false, Bool.and_true] at none
      rw [LinkRun.high_succ, high, still, LinkRun.serverInLow_succ, LinkRun.falls, Link.falls,
        still]
      refine ⟨rfl, ?_⟩
      rw [Bool.false_and, if_neg Bool.false_ne_true]
      split_ifs
      · exact more.trans (Nat.le_succ _)
      · exact more
  exact (grows u le le_rfl).2.trans (paced.link.low u ((rises_link u).trans rises))

/-! ### Stores in order -/

theorem received_eq (t : ℕ) : run.received t =
    if run.rises200 t then run.mcl.seen (run.mclTime t) else none := by
  cases rises : run.rises200 t with
  | false =>
    rw [received, rises]
    rfl
  | true =>
    rw [if_pos rfl, seen_mcl rises, received, seen_link, rises]
    rfl

theorem found_succ (t : ℕ) :
    run.found (t + 1) = run.found t ++ ((run.received t).bind storeLine).toList := by
  rw [found, history_succ, List.filterMap_append, filterMap_toList]
  rfl

theorem stored_eq (t : ℕ) :
    history run.stored t = (history run.requested t).filterMap storeLine :=
  history_bind _ _ t

theorem posted_notices (t : ℕ) : run.notices.posted t = (history run.stored t).length := by
  rw [NoticeRun.posted, posts_notices]

section Kept

variable (acknowledges : run.Acknowledges)

include acknowledges

/-- The stores found so far have been written or are owed. -/
theorem found_eq (t : ℕ) : run.found t =
    history run.written t ++ run.mcl.owed (run.mclTime t) (run.mcl.mode (run.mclTime t)) := by
  induction t with
  | zero => rfl
  | succ t ih =>
    obtain ⟨crosses, steady⟩ := steady acknowledges t
    rw [found_succ, history_succ, ih, received_eq, written_eq, mclTime_succ]
    cases rises : run.rises200 t with
    | false => simp
    | true =>
      have step := MclRun.owed_succ (delivers acknowledges steady crosses rises) steady.holds
      rw [if_pos rfl, if_pos rfl, if_pos rfl, List.append_assoc, List.append_assoc, step]
      rfl

/-- The memory side answers the writes that the memory acknowledges. -/
theorem answer_notices (t : ℕ) : (run.notices.clk t).answer = (run.written t).isSome := by
  obtain ⟨-, steady⟩ := steady acknowledges t
  have answer : (run.notices.clk t).answer = (run.rises200 t &&
    DcacheMcl.b3enrPls (run.state t).mcl (Dcache.mclI (run.state t) (run.clk t))) := rfl
  rw [answer, written_eq]
  cases rises : run.rises200 t with
  | false => rfl
  | true =>
    rw [if_pos rfl, Bool.true_and, ← state_mcl, ← mcl_clk rises]
    exact MclRun.b3enrPls_of_holds steady.holds

theorem answered_notices (t : ℕ) : run.notices.answered t = (history run.written t).length := by
  induction t with
  | zero => rfl
  | succ t ih =>
    rw [NoticeRun.answered_succ, answer_notices acknowledges, history_succ,
      List.length_append, ih]
    cases run.written t <;> rfl

theorem spaced (t : ℕ) : run.mcl.Spaced (run.mclTime t) (run.mcl.mode (run.mclTime t)) := by
  induction t with
  | zero => exact MclRun.spaced_zero
  | succ t ih =>
    obtain ⟨crosses, steady⟩ := steady acknowledges t
    rw [mclTime_succ]
    cases rises : run.rises200 t with
    | false => exact ih
    | true => exact MclRun.spaced_succ (delivers acknowledges steady crosses rises) steady.holds ih

/-- A write that is acknowledged has been found. -/
theorem answered_lt_found (answer : (run.notices.clk t).answer = true) :
    run.notices.answered t < (run.found t).length := by
  obtain ⟨-, steady⟩ := steady acknowledges t
  rw [answer_notices acknowledges, written_eq] at answer
  rw [answered_notices acknowledges, found_eq acknowledges, List.length_append]
  refine Nat.lt_add_of_pos_right (List.length_pos_iff.mpr ?_)
  cases rises : run.rises200 t with
  | false =>
    rw [rises] at answer
    cases answer
  | true =>
    rw [rises, if_pos rfl] at answer
    exact MclRun.owed_ne_nil steady.holds answer

variable (link : run.link.Paced)

include link

theorem holds_stage (t : ℕ) : run.link.Holds t (run.link.stage t) :=
  (LinkRun.at_stage link (behaves link acknowledges) t).1

theorem found_initial (t : ℕ) : run.found t <+: history run.stored t := by
  rw [stored_eq]
  exact ((exchanges link acknowledges t).requests).filterMap storeLine

/-- Outside of the way of a request all stores have been found. -/
theorem stored_eq_found (h : run.link.stage t = .idle ∨ run.link.stage t = .serving ∨
    run.link.stage t = .answering0 ∨ run.link.stage t = .answering1 ∨
      run.link.stage t = .answering2) : history run.stored t = run.found t := by
  have tally := (LinkRun.at_stage link (behaves link acknowledges) t).2
  have same : history run.link.requested t = history run.link.received t := by
    rcases h with h | h | h | h | h <;> rw [h] at tally <;> exact tally.1
  rw [requested_link, received_link] at same
  rw [stored_eq, same, found]

/-- A store goes out when the last request is over. -/
theorem stage_of_posts (posts : (run.notices.posts t).isSome = true) :
    (run.link.stage t = .idle ∨ run.link.stage t = .answering2) ∧
      run.link.stage (t + 1) = .asked := by
  have asks : (run.link.requested t).isSome = true := by
    rw [requested_link]
    rw [posts_notices, stored] at posts
    cases asked : run.requested t with
    | none =>
      rw [asked] at posts
      cases posts
    | some b0d => rfl
  have rises : run.link.rises t = true := by
    by_contra low
    rw [LinkRun.requested, if_neg low] at asks
    cases asks
  rw [LinkRun.requested, if_pos rises] at asks
  have stage : run.link.stage t = .idle ∨ run.link.stage t = .answering2 := by
    by_contra within
    rw [not_or] at within
    rw [(behaves link acknowledges t).ask within.1 within.2 rises] at asks
    cases asks
  refine ⟨stage, ?_⟩
  rw [LinkRun.stage_succ, rises, asks]
  rcases stage with here | here <;> rw [here] <;> rfl

end Kept

/-! ### What the notices keep -/

section Notices

variable (paced : run.Paced) (ticks : run.link.Ticks) (acknowledges : run.Acknowledges)

include paced acknowledges

omit paced acknowledges in
theorem notified_zero : run.Notified 0 where
  holds := NoticeRun.holds_zero
  found := Nat.zero_le _
  sampled := .inl rfl
  once := .inl rfl
  confirmed := Nat.zero_le _

include ticks in
/-- A write is acknowledged some time after the last one, and after the CPU clock has risen
since the store was sent. -/
theorem behaves_notices (notified : run.Notified t) : run.notices.Behaves t where
  post posts := by
    have confirmed := notified.confirmed
    obtain ⟨idle | answering, -⟩ := stage_of_posts acknowledges paced.link posts
    · rwa [idle] at confirmed
    · rwa [answering] at confirmed
  answer answer := by
    have lt := answered_lt_found acknowledges answer
    have all := (found_initial acknowledges paced.link t).length_le
    rw [← posted_notices] at all
    refine ⟨lt.trans_le all, fun low => ⟨lt.trans_le notified.found, ?_⟩⟩
    refine notified.once.resolve_right fun ⟨_, since⟩ => ?_
    obtain ⟨-, steady⟩ := steady acknowledges t
    rw [answer_notices acknowledges, written_eq] at answer
    have rises : run.rises200 t = true := by
      by_contra low
      rw [if_neg low] at answer
      cases answer
    rw [if_pos rises] at answer
    have far := MclRun.four_le_sinceWrite steady.holds (spaced acknowledges t) answer
    have rise : run.rises125 t = false := low
    have edges := edges_le paced ticks (t + 1)
    rw [edges_succ, rise, rises, if_neg Bool.false_ne_true, if_pos rfl] at edges
    omega

theorem posted_keep (quiet : run.link.stage t ≠ .idle) (within : run.link.stage t ≠ .answering2) :
    run.notices.posted (t + 1) = run.notices.posted t := by
  have none : ¬(run.notices.posts t).isSome = true := fun posts =>
    (stage_of_posts acknowledges paced.link posts).1.elim quiet within
  rw [NoticeRun.posted_succ, ← NoticeRun.posts_eq, if_neg none]

include ticks in
/-- At the end of its way a request has been there when the CPU clock rose. -/
theorem posted1_of_crossing2 (notified : run.Notified t)
    (crossing : run.link.stage t = .crossing2) (server : run.rises200 t = true) :
    run.notices.posted1 (t + 1) = run.notices.posted t := by
  have succ : run.notices.posted1 (t + 1) =
      if run.rises125 t then run.notices.posted t else run.notices.posted1 t := rfl
  rw [succ]
  cases rises : run.rises125 t with
  | true => rfl
  | false =>
    rcases notified.sampled with same | asked | ⟨-, low, unsampled⟩
    · exact same
    · rw [crossing] at asked
      cases asked
    · -- a third edge of the memory clock while the CPU clock is low
      have holds := holds_stage acknowledges paced.link t
      rw [crossing] at holds
      obtain ⟨-, -, waits⟩ := holds.2.2.2.2.2.2.2
      rcases waits with high | ⟨-, two⟩
      · rw [unsampled] at high
        cases high
      · have still : (run.link.clk t).client = false := by
          have none := (rises_link t).trans rises
          rwa [LinkRun.rises, Link.rises, low, Bool.not_false, Bool.and_true] at none
        have edge : (run.link.clk t).server = true := server
        have low' : (run.link.state (t + 1)).high = false := by
          rw [LinkRun.high_succ, low, still]
          rfl
        have bound := serverInLow_le paced ticks low'
        rw [LinkRun.serverInLow_succ, LinkRun.falls, Link.falls, still, edge, Bool.false_and,
          if_neg Bool.false_ne_true, if_pos rfl, two] at bound
        omega

include ticks in
theorem found_notified (notified : run.Notified t) :
    (run.found (t + 1)).length ≤ run.notices.posted1 (t + 1) := by
  have order := notified.holds.order.posted
  have found := notified.found
  cases received : run.received t with
  | none =>
    have succ : run.notices.posted1 (t + 1) =
        if run.rises125 t then run.notices.posted t else run.notices.posted1 t := rfl
    rw [found_succ, received, succ]
    simp only [Option.bind_none, Option.toList_none, List.append_nil]
    split_ifs <;> omega
  | some b0d =>
    have holds := holds_stage acknowledges paced.link t
    have here : run.link.received t = some b0d := (congrFun received_link t).trans received
    rw [LinkRun.received_of_holds holds] at here
    have arrives : ((run.link.clk t).server && run.link.stage t == .crossing2) = true := by
      by_contra not
      rw [if_neg not] at here
      cases here
    rw [Bool.and_eq_true, beq_iff_eq] at arrives
    obtain ⟨server, crossing⟩ := arrives
    rw [posted1_of_crossing2 paced ticks acknowledges notified crossing server,
      ← posted_keep paced acknowledges (by simp [crossing]) (by simp [crossing]), posted_notices]
    exact (found_initial acknowledges paced.link (t + 1)).length_le

include ticks in
theorem sampled_notified (notified : run.Notified t) : run.Sampled (t + 1) := by
  have holds := holds_stage acknowledges paced.link t
  have succ : run.notices.posted1 (t + 1) =
      if run.rises125 t then run.notices.posted t else run.notices.posted1 t := rfl
  -- a new notice is on its way, so the toggle need not be sampled yet
  by_cases posts : (run.notices.posts t).isSome = true
  · exact .inr (.inl (stage_of_posts acknowledges paced.link posts).2)
  have same : run.notices.posted (t + 1) = run.notices.posted t := by
    rw [NoticeRun.posted_succ, ← NoticeRun.posts_eq, if_neg posts]
  cases rises : run.rises125 t with
  -- at an edge of the CPU side it is sampled
  | true =>
    rw [Sampled, same, succ, rises]
    exact .inl rfl
  | false =>
    have low := (rises_link t).trans rises
    have answerMeta : (run.link.state (t + 1)).answerMeta = (run.link.state t).answerMeta :=
      if_neg (Bool.eq_false_iff.mp low)
    have stage := run.link.stage_succ t
    -- else nothing has been sampled, so the stage has not gone beyond the crossing
    rcases notified.sampled with sampled | asked | ⟨crossing, high, unsampled⟩
    · rw [Sampled, same, succ, rises]
      exact .inl sampled
    · rw [asked] at holds stage
      obtain ⟨high, -, -, ⟨first, -⟩, -⟩ := holds
      refine .inr ?_
      rw [stage, Stage.next]
      split_ifs with falls
      · refine .inr ⟨.inl rfl, ?_, answerMeta.trans first⟩
        rw [LinkRun.high_succ, ← LinkRun.falls_eq_client high, falls, high]
        rfl
      · exact .inl rfl
    · have still : (run.link.clk t).client = false := by
        rwa [LinkRun.rises, Link.rises, high, Bool.not_false, Bool.and_true] at low
      have high' : (run.link.state (t + 1)).high = false := by
        rw [LinkRun.high_succ, high, still]
        rfl
      have unsampled' := answerMeta.trans unsampled
      rcases crossing with here | here | here
      · refine .inr (.inr ⟨?_, high', unsampled'⟩)
        rw [stage, here, Stage.next]
        split_ifs
        · exact .inr (.inl rfl)
        · exact .inl rfl
      · refine .inr (.inr ⟨?_, high', unsampled'⟩)
        rw [stage, here, Stage.next]
        split_ifs
        · exact .inr (.inr rfl)
        · exact .inr (.inl rfl)
      · cases server : (run.link.clk t).server with
        | true =>
          rw [Sampled, same]
          exact .inl (posted1_of_crossing2 paced ticks acknowledges notified here server)
        | false =>
          refine .inr (.inr ⟨.inr (.inr ?_), high', unsampled'⟩)
          rw [stage, here, server]
          rfl

include ticks in
theorem once_notified (notified : run.Notified t) :
    run.notices.answered (t + 1) = run.notices.answered1 (t + 1) ∨
      run.notices.answered (t + 1) = run.notices.answered1 (t + 1) + 1 ∧
        run.mcl.sinceWrite (run.mclTime (t + 1)) ≤ run.edges (t + 1) := by
  have behaves := behaves_notices paced ticks acknowledges notified
  have answer := answer_notices acknowledges t
  have written := @written_eq run t
  have succ : run.notices.answered1 (t + 1) =
      if run.rises125 t then run.notices.answered t else run.notices.answered1 t := rfl
  rw [NoticeRun.answered_succ, succ, mclTime_succ, edges_succ]
  cases writes : (run.notices.clk t).answer with
  -- a write is answered: it is the only answer not sampled, and it is the last write
  | true =>
    rw [if_pos rfl]
    rw [writes] at answer
    have server : run.rises200 t = true := by
      by_contra low
      rw [written, if_neg low] at answer
      cases answer
    rw [written, if_pos server] at answer
    have since : run.mcl.sinceWrite (run.mclTime t + 1) = 1 := by
      rw [MclRun.sinceWrite_succ, ← answer, if_pos rfl]
    rw [server, if_pos rfl, since]
    cases rises : run.rises125 t with
    | true => exact .inr ⟨rfl, le_rfl⟩
    -- without one the answer gets older, or is sampled
    | false =>
      have only := ((behaves.answer writes).2 rises).2
      exact .inr ⟨congrArg (· + 1) only, Nat.le_add_left 1 _⟩
  | false =>
    rw [if_neg Bool.false_ne_true]
    cases rises : run.rises125 t with
    | true => exact .inl rfl
    | false =>
      refine notified.once.imp id fun ⟨one, since⟩ => ⟨one, ?_⟩
      rw [if_neg Bool.false_ne_true]
      cases server : run.rises200 t with
      | false => exact since
      | true =>
        rw [if_pos rfl, if_pos rfl, MclRun.sinceWrite_succ]
        split_ifs <;> omega

/-- What is left when a request has been completed. -/
theorem confirmed_of_completed (next : run.link.stage (t + 1) = .answering0)
    (complete : (run.link.clk t).complete = true) (server : run.rises200 t = true) :
    run.notices.posted (t + 1) ≤ run.notices.answered (t + 1) + 1 := by
  obtain ⟨crosses, steady⟩ := steady acknowledges t
  have left := MclRun.length_owed_of_completes (delivers acknowledges steady crosses server)
    steady.holds ((completes_mcl server).trans complete)
  have time : run.mclTime (t + 1) = run.mclTime t + 1 := by
    rw [mclTime_succ, if_pos server]
  have all := stored_eq_found acknowledges paced.link (.inr (.inr (.inl next)))
  rw [found_eq acknowledges, time] at all
  rw [posted_notices, all, answered_notices acknowledges, List.length_append]
  refine Nat.add_le_add_left (left.trans ?_) _
  split_ifs <;> omega

theorem confirmed_notified (notified : run.Notified t) :
    run.Confirmed (t + 1) (run.link.stage (t + 1)) := by
  have confirmed := notified.confirmed
  obtain ⟨⟨-, -⟩, ⟨le1, -⟩, ⟨le0, -⟩, -⟩ := notified.holds.order
  have answered : run.notices.answered t ≤ run.notices.answered (t + 1) :=
    NoticeRun.answered_mono (Nat.le_succ t)
  have answered1 : run.notices.answered1 (t + 1) =
      if run.rises125 t then run.notices.answered t else run.notices.answered1 t := rfl
  have answered2 : run.notices.answered2 (t + 1) =
      if run.rises125 t then run.notices.answered1 t else run.notices.answered2 t := rfl
  -- a notice that has just been posted is not confirmed yet
  by_cases posts : (run.notices.posts t).isSome = true
  · rw [(stage_of_posts acknowledges paced.link posts).2]
    trivial
  have same : run.notices.posted (t + 1) = run.notices.posted t := by
    rw [NoticeRun.posted_succ, ← NoticeRun.posts_eq, if_neg posts]
  have completed := @confirmed_of_completed run t paced acknowledges
  have stage := run.link.stage_succ t
  rw [rises_link] at stage
  -- with each stage of the answer the confirmation is one sample further
  cases here : run.link.stage t with
  -- on the way to the memory side nothing is claimed
  | asked | crossing0 | crossing1 =>
    rw [here, Stage.next] at stage
    split_ifs at stage <;> rw [stage] <;> trivial
  -- a completion comes with the answer
  | crossing2 =>
    rw [here, Stage.next] at stage
    split_ifs at stage with server complete
    · rw [stage]
      exact completed stage complete server
    all_goals
      rw [stage]
      trivial
  | serving =>
    rw [here, Stage.next] at stage
    split_ifs at stage with complete
    · rw [Bool.and_eq_true] at complete
      rw [stage]
      exact completed stage complete.2 complete.1
    · rw [stage]
      trivial
  | answering0 =>
    rw [here] at confirmed
    rw [here, Stage.next] at stage
    change run.notices.posted t ≤ run.notices.answered t + 1 at confirmed
    split_ifs at stage with rises
    · rw [stage, Confirmed, same, answered1, if_pos rises]
      exact confirmed
    · rw [stage, Confirmed, same]
      omega
  | answering1 =>
    rw [here] at confirmed
    rw [here, Stage.next] at stage
    change run.notices.posted t ≤ run.notices.answered1 t + 1 at confirmed
    split_ifs at stage with rises
    · rw [stage, Confirmed, same, answered2, if_pos rises]
      exact confirmed
    · rw [stage, Confirmed, same, answered1, if_neg rises]
      exact confirmed
  -- from there on it stays confirmed
  | idle | answering2 =>
    rw [here] at confirmed
    change run.notices.posted t ≤ run.notices.answered2 t + 1 at confirmed
    have later : run.notices.posted (t + 1) ≤ run.notices.answered2 (t + 1) + 1 := by
      rw [same, answered2]
      split_ifs <;> omega
    rw [here, Stage.next] at stage
    split_ifs at stage <;> rw [stage] <;> trivial

include ticks in
/-- How far the notices have come, throughout. -/
theorem notified (t : ℕ) : run.Notified t := by
  induction t with
  | zero => exact notified_zero
  | succ t ih =>
    exact {
      holds := NoticeRun.holds_succ (behaves_notices paced ticks acknowledges ih) ih.holds
      found := found_notified paced ticks acknowledges ih
      sampled := sampled_notified paced ticks acknowledges ih
      once := once_notified paced ticks acknowledges ih
      confirmed := confirmed_notified paced acknowledges ih }

end Notices

/-! ### The announcements -/

/-- A read is sent while the cache is switched off. -/
def readsOff (run : DcacheRun) (t : ℕ) : Bool :=
  run.rises125 t && Dcache.readsOff (run.state t) (run.clk t)

/-- The announcements of a run are one for one those of the writes that the memory has
acknowledged, after it has. They carry the lines of the stores in order if a read is sent
without the cache only when all stores before it have been announced. -/
theorem stores_announced (paced : run.Paced) (ticks : run.link.Ticks)
    (acknowledges : run.Acknowledges) :
    (∀ t, history run.written t <+: history run.stored t ∧
      (history run.broadcast t).length ≤ (history run.written t).length) ∧
    (∀ t, ∃ u ≥ t, (history run.written t).length ≤ (history run.broadcast u).length) ∧
    ((∀ t, run.readsOff t = true →
        (history run.stored t).length ≤ (history run.broadcast (t + 1)).length) →
      ∀ t, history run.broadcast t <+: history run.stored t) := by
  have notified := notified paced ticks acknowledges
  -- the broadcasts are the answers that have been sampled three times
  have told : ∀ t, (history run.broadcast t).length = run.notices.answered3 t := by
    intro t
    rw [← tells_notices]
    exact (notified t).holds.told
  have answered := answered_notices acknowledges
  refine ⟨fun t => ⟨?_, ?_⟩, fun t => ?_, fun undisturbed t => ?_⟩
  -- only what was stored is written, and in the same order
  · have found := found_initial acknowledges paced.link t
    rw [found_eq acknowledges] at found
    exact (List.prefix_append _ _).trans found
  · rw [told, ← answered]
    obtain ⟨⟨le2, -⟩, ⟨le1, -⟩, ⟨le0, -⟩, -⟩ := (notified t).holds.order
    exact le2.trans (le1.trans le0)
  -- every answer is sampled three times in the end
  · have rises : ∀ t, ∃ u ≥ t, (run.notices.clk u).rise = true := by
      intro t
      obtain ⟨u, le, rise, -⟩ := exists_next_rise ticks t
      exact ⟨u, le, rise⟩
    obtain ⟨u, le, all⟩ :=
      NoticeRun.exists_answered_le rises (fun t => (notified t).holds.order) t
    refine ⟨u, le, ?_⟩
    rw [told, ← answered]
    exact all
  -- with reads undisturbed each broadcast carries the address of its own store
  · have carries : run.notices.Carries t := by
      induction t with
      | zero => exact NoticeRun.carries_zero
      | succ t ih =>
        refine NoticeRun.carries_succ (notified t).holds ?_ ih
        intro rise _ other
        have off : run.readsOff t = true := by
          have rise : run.rises125 t = true := rise
          rw [readsOff, rise, Bool.true_and]
          by_contra on
          have none : (run.notices.clk t).other = none := if_neg on
          rw [none] at other
          cases other
        have done := undisturbed t off
        rwa [told, ← posted_notices, NoticeRun.answered3_succ, if_pos rise] at done
    have prefixes := List.take_prefix (run.notices.answered3 t) (history run.notices.posts t)
    rwa [← carries.tells, tells_notices, posts_notices] at prefixes

/-! ### Two runs -/

theorem paced_ofAccesses (a : ℕ → CpuDataO) (on ack : ℕ → Bool) :
    (ofAccesses a on ack).Paced ∧ (ofAccesses a on ack).link.Ticks := by
  have both : ∀ t, ((ofAccesses a on ack).clk t).clk125 = true ∧
      ((ofAccesses a on ack).clk t).clk200 = true := fun t => ⟨rfl, rfl⟩
  obtain ⟨link, ticks⟩ := link_ofAccesses a on ack
  have few : ∀ t, (ofAccesses a on ack).edges t ≤ 1 := by
    intro t
    induction t with
    | zero => exact Nat.zero_le 1
    | succ t ih =>
      rw [edges_succ, rises_of_both rfl both]
      split_ifs <;> omega
  exact ⟨⟨link, fun t _ => (few t).trans (by decide)⟩, ticks⟩

/-- One store, with the cache switched off. -/
def oneStore : DcacheRun :=
  ofAccesses (fun t => if t < 25 then writeTo 0x100 else noAccess) (fun _ => false)
    (fun t => t == 10)

theorem stores_announced_oneStore :
    (∀ t, history oneStore.broadcast t <+: history oneStore.stored t) ∧
      history oneStore.broadcast 30 = [8] := by
  have both : oneStore.Paced ∧ oneStore.link.Ticks := paced_ofAccesses _ _ _
  have acknowledges : oneStore.Acknowledges :=
    acknowledges_ofAccesses (n := 11) (fun t late => beq_eq_false_iff_ne.mpr (by omega))
      (by decide +kernel)
  have access : ∀ t, (oneStore.clk t).a = if t < 25 then writeTo 0x100 else noAccess :=
    fun _ => rfl
  refine ⟨(stores_announced both.1 both.2 acknowledges).2.2 fun t off => ?_, by decide +kernel⟩
  -- no read is sent
  rw [readsOff, Dcache.readsOff, Bool.and_eq_true, Bool.and_eq_true, beq_iff_eq] at off
  obtain ⟨-, next, read⟩ := off
  have en : (oneStore.clk t).a.en = true := DcacheCcl.en_of_off1 next
  rw [access] at en read
  split_ifs at en read
  · cases read
  · cases en

/-- A store hits, and before the memory has acknowledged its write the cache is switched off
and a read of another line goes out. -/
def disturbed : DcacheRun :=
  ofAccesses
    (fun t => if t < 4 then noAccess else if t < 40 then readOf 0x100
      else if t < 42 then writeTo 0x100 else if t < 50 then noAccess else readOf 0x200)
    (fun t => t < 44) (fun t => 14 ≤ t ∧ t ≤ 28 ∨ t = 76)

/-- The line of the read is announced for the store. -/
theorem announcement_disturbed : disturbed.Paced ∧ disturbed.link.Ticks ∧
    disturbed.Acknowledges ∧ history disturbed.stored 90 = [8] ∧
      history disturbed.written 90 = [8] ∧ history disturbed.broadcast 90 = [16] := by
  have both : disturbed.Paced ∧ disturbed.link.Ticks := paced_ofAccesses _ _ _
  refine ⟨both.1, both.2, acknowledges_ofAccesses (n := 77) ?_ ?_, ?_, ?_, ?_⟩
  · intro t late
    simp only [decide_eq_false_iff_not]
    omega
  all_goals decide +kernel

end DcacheRun

end JCore
