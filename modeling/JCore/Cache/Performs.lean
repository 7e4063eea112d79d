import JCore.Cache.Service

/-!
# The commands of the data cache are performed

Under a memory that answers, what is to come is asked for and done, and the open command
is completed. With the order of the transactions and of the completions this is all that
the memory side does.

## Main results

* `MclRun.performed`, `MclRun.completed_all`: no transaction and no command stays
* `MclRun.performs`: the traffic, the completions and the data of a run
-/

namespace JCore

namespace MclRun

variable {run : MclRun} {t : ℕ}

attribute [local grind =] DcacheMcl.sboutEn1 DcacheMcl.seen DcacheMcl.sboutCmd DcacheMcl.mtoc
  DcacheMcl.b0enr MclRun.completes MclRun.seen

/-! ### Progress -/

/-- The memory answers every request. -/
def Answers (run : MclRun) : Prop :=
  ∀ t, (run.state t).men = true → ∃ u, t ≤ u ∧ (run.clk u).ma.ack = true

/-- The modes with a transaction under way. -/
def Mode.works : Mode → Bool
  | free | cooling | answering0 | answering1 | remembered => false
  | _ => true

/-- A transaction is asked for as soon as the gap before it is over. -/
theorem men_of_works {m : Mode} (h : run.Holds t m) (works : m.works = true) :
    (run.state t).men = true ∨ (m = .storing ∨ m = .early) ∧
      ((run.state t).statemwi = .gap2r ∨ (run.state t).statemwi = .gap3r) := by
  cases m <;> grind [Holds, Mode.works, cases Fills, cases Buffers]

theorem asks_of_gap3r (delivered : run.Delivered)
    (mode : run.mode t = .storing ∨ run.mode t = .early) (gap : (run.state t).statemwi = .gap3r) :
    (run.state (t + 1)).men = true := by
  have holds := holds_mode delivered t
  simp only [state_succ, DcacheMcl.step]
  rcases mode with mode | mode <;> rw [mode] at holds <;>
    grind [Holds, DcacheMcl.men, DcacheMcl.nextStatemcl, DcacheMcl.nextStatemwi,
      DcacheMcl.maAckG]

theorem gap3r_of_gap2r (delivered : run.Delivered)
    (mode : run.mode t = .storing ∨ run.mode t = .early) (gap : (run.state t).statemwi = .gap2r) :
    (run.mode (t + 1) = .storing ∨ run.mode (t + 1) = .early) ∧
      (run.state (t + 1)).statemwi = .gap3r := by
  have holds := holds_mode delivered t
  have asked := (delivered t).asked
  constructor
  · rw [MclRun.mode, nextMode]
    rcases mode with mode | mode <;> rw [mode] at holds ⊢ <;>
      grind [Holds, Mode.next, cases Buffers]
  · simp only [state_succ, DcacheMcl.step]
    grind [DcacheMcl.nextStatemwi]

theorem asks_of_works (delivered : run.Delivered) (works : (run.mode t).works = true) :
    ∃ u, t ≤ u ∧ (run.state u).men = true := by
  rcases men_of_works (holds_mode delivered t) works with men | ⟨mode, gap | gap⟩
  · exact ⟨t, le_rfl, men⟩
  · obtain ⟨mode', gap'⟩ := gap3r_of_gap2r delivered mode gap
    exact ⟨t + 2, by omega, asks_of_gap3r delivered mode' gap'⟩
  · exact ⟨t + 1, Nat.le_succ t, asks_of_gap3r delivered mode gap⟩

/-- A command with transactions is at work in the clock after it is taken over. -/
theorem works_accept {cmd : BitVec 3} {gap : DcachemwiState} (h : cmd ≠ cacheDcmdNegateLo) :
    (Mode.accept cmd gap).works = true := by
  rw [Mode.accept]
  split_ifs <;> rfl

/-- What is to come is asked for. -/
theorem asks_of_todo (delivered : run.Delivered) (h : run.todo t (run.mode t) ≠ []) :
    ∃ u, t ≤ u ∧ (run.state u).men = true := by
  cases hm : run.mode t with
  | remembered =>
    have holds := holds_mode delivered t
    rw [hm] at h holds
    obtain ⟨-, -, -, -, -, ⟨hopen, -⟩⟩ := holds
    have same := ((delivered t).lines (.inl hopen)).2
    have command : b0dCmd (run.port t).payload ≠ cacheDcmdNegateLo := by
      intro negate
      exact h (traffic_eq_nil.mpr negate)
    have works : (run.mode (t + 1)).works = true := by
      rw [MclRun.mode, hm, nextMode, Mode.next, same]
      exact works_accept command
    obtain ⟨u, le, men⟩ := asks_of_works delivered works
    exact ⟨u, (Nat.le_succ t).trans le, men⟩
  | free => simp [hm, todo] at h
  | cooling => simp [hm, todo] at h
  | answering0 => simp [hm, todo] at h
  | answering1 => simp [hm, todo] at h
  | _ => exact asks_of_works delivered (by rw [hm]; rfl)

/-- A memory that answers performs what is to come. -/
theorem transacts (delivered : run.Delivered) (answers : run.Answers)
    (h : run.todo t (run.mode t) ≠ []) : ∃ u, t ≤ u ∧ (run.transaction u).isSome = true := by
  obtain ⟨u, le, men⟩ := asks_of_todo delivered h
  obtain ⟨v, le', ack⟩ := answers u men
  refine ⟨v, le.trans le', ?_⟩
  simp [transaction, DcacheMcl.my, (delivered v).asked ack, ack]

theorem length_history_transaction (delivered : run.Delivered) (answers : run.Answers) (n : ℕ)
    (h : n ≤ ((history run.seen t).flatMap traffic).length) :
    ∃ u, t ≤ u ∧ n ≤ (history run.transaction u).length := by
  induction n with
  | zero => exact ⟨t, le_rfl, Nat.zero_le _⟩
  | succ n ih =>
    obtain ⟨u, le, reached⟩ := ih (Nat.le_of_succ_le h)
    by_cases done : n + 1 ≤ (history run.transaction u).length
    · exact ⟨u, le, done⟩
    · have grows : ((history run.seen t).flatMap traffic).length ≤
          ((history run.seen u).flatMap traffic).length :=
        ((history_mono le).flatMap traffic).length_le
      have left : run.todo u (run.mode u) ≠ [] := by
        intro nil
        rw [tally delivered u, nil, List.append_nil] at grows
        omega
      obtain ⟨v, le', some⟩ := transacts delivered answers left
      have more : (history run.transaction u).length ≤ (history run.transaction v).length :=
        (history_mono le').length_le
      refine ⟨v + 1, by omega, ?_⟩
      obtain ⟨x, hx⟩ := Option.isSome_iff_exists.mp some
      rw [history_succ, hx, List.length_append, Option.toList_some, List.length_singleton]
      omega

/-- The transactions of every command are performed. -/
theorem performed (delivered : run.Delivered) (answers : run.Answers) (t : ℕ) :
    ∃ u, t ≤ u ∧ (history run.seen t).flatMap traffic <+: history run.transaction u := by
  obtain ⟨u, le, reached⟩ := length_history_transaction delivered answers _ (le_refl
    ((history run.seen t).flatMap traffic).length)
  refine ⟨u, le, ?_⟩
  have whole : (history run.seen t).flatMap traffic <+: (history run.seen u).flatMap traffic :=
    (history_mono le).flatMap traffic
  have part : history run.transaction u <+: (history run.seen u).flatMap traffic := by
    rw [tally delivered u]
    exact List.prefix_append _ _
  exact List.prefix_of_prefix_length_le whole part reached

theorem completes_of_answering0 (delivered : run.Delivered) (mode : run.mode t = .answering0) :
    run.completes t = true := by
  have holds := holds_mode delivered t
  rw [mode] at holds
  obtain ⟨rests, -, -, rfillv, ⟨hopen, -, hcmd⟩⟩ := holds
  have same := ((delivered t).lines (.inl hopen)).2
  have sbbufin := rests.sbbufin
  grind

/-- With nothing to come the open command is answered. -/
theorem completes_of_todo (delivered : run.Delivered) (opens : (run.mode t).opens = true)
    (h : run.todo t (run.mode t) = []) : ∃ u, t ≤ u ∧ run.completes u = true := by
  have holds := holds_mode delivered t
  cases hm : run.mode t with
  | answering0 => exact ⟨t, le_rfl, completes_of_answering0 delivered hm⟩
  | answering1 =>
    have next : run.mode (t + 1) = .answering0 := by
      rw [MclRun.mode, hm]
      rfl
    exact ⟨t + 1, Nat.le_succ t, completes_of_answering0 delivered next⟩
  | remembered =>
    rw [hm] at h holds
    obtain ⟨-, -, -, -, -, ⟨hopen, -, hcmd⟩⟩ := holds
    have same := ((delivered t).lines (.inl hopen)).2
    have negate : b0dCmd (run.clk t).ctom.b0d = cacheDcmdNegateLo := by
      rw [same]
      exact traffic_eq_nil.mp h
    have next : run.mode (t + 1) = .answering0 := by
      rw [MclRun.mode, hm, nextMode, Mode.next, negate]
      rfl
    exact ⟨t + 1, Nat.le_succ t, completes_of_answering0 delivered next⟩
  | filling => simp [hm, todo, linesLeft, lineReads_succ] at h
  | free => simp [hm, Mode.opens] at opens
  | cooling => simp [hm, Mode.opens] at opens
  | buffering => simp [hm, Mode.opens] at opens
  | _ => simp [hm, todo] at h

/-- Every command is completed. -/
theorem completed (delivered : run.Delivered) (answers : run.Answers) {b0d : BitVec 65}
    (pending : run.pending t = some b0d) : ∃ u, t ≤ u ∧ run.completion u = some b0d := by
  by_contra never
  simp only [not_exists, not_and] at never
  have stays : ∀ u, t ≤ u → run.pending u = some b0d ∧ history run.seen u = history run.seen t := by
    intro u le
    induction u, le using Nat.le_induction with
    | base => exact ⟨pending, rfl⟩
    | succ u le ih =>
      have none : run.completion u = none := by
        cases hc : run.completion u with
        | none => rfl
        | some b0d' =>
          obtain ⟨same, -⟩ := (onePlace delivered).leaves ih.1 hc
          exact absurd (same ▸ hc) (never u le)
      obtain ⟨still, quiet⟩ := (onePlace delivered).stays ih.1 none
      exact ⟨still, by rw [history_succ, quiet, ih.2, Option.toList_none, List.append_nil]⟩
  obtain ⟨u, le, all⟩ := performed delivered answers t
  obtain ⟨still, same⟩ := stays u le
  have nil : run.todo u (run.mode u) = [] := by
    rw [← same, tally delivered u] at all
    simpa using all.length_le
  have opens : (run.mode u).opens = true := by
    rw [← isOpen_of_holds (holds_mode delivered u)]
    exact (pending_eq_some still).1
  obtain ⟨v, le', completes⟩ := completes_of_todo delivered opens nil
  have done : run.completion v = some (run.clk v).ctom.b0d := by rw [completion, if_pos completes]
  obtain ⟨same, -⟩ := (onePlace delivered).leaves (stays v (le.trans le')).1 done
  exact never v (le.trans le') (same ▸ done)

/-- Every command is completed in the end. -/
theorem completed_all (delivered : run.Delivered) (answers : run.Answers) (t : ℕ) :
    ∃ u, t ≤ u ∧ history run.seen t <+: history run.completion u := by
  have law := (onePlace delivered).history_put
  cases hp : run.pending t with
  | none =>
    refine ⟨t, le_rfl, ?_⟩
    rw [law t, hp, Option.toList_none, List.append_nil]
  | some b0d =>
    obtain ⟨u, le, done⟩ := completed delivered answers hp
    refine ⟨u + 1, by omega, ?_⟩
    have whole : history run.seen t <+: history run.seen (u + 1) := history_mono (by omega)
    have part : history run.completion (u + 1) <+: history run.seen (u + 1) := by
      rw [law (u + 1)]
      exact List.prefix_append _ _
    have more : (history run.completion t).length ≤ (history run.completion u).length :=
      (history_mono le).length_le
    refine List.prefix_of_prefix_length_le whole part ?_
    rw [law t, hp, history_succ, done, List.length_append, List.length_append]
    simpa using more

/-- The commands of a run are performed: their transactions one after the other, with one
completion each, and the words that are read are returned. -/
structure Performs (run : MclRun) : Prop where
  traffic : ∀ t, history run.transaction t <+: (history run.seen t).flatMap traffic
  traffic_all : run.Answers → ∀ t, ∃ u, t ≤ u ∧
    (history run.seen t).flatMap JCore.traffic <+: history run.transaction u
  completions : ∀ t, history run.seen t = history run.completion t ++ (run.pending t).toList
  completions_all : run.Answers → ∀ t, ∃ u, t ≤ u ∧
    history run.seen t <+: history run.completion u
  readsgl : ∀ t b0d, run.completion t = some b0d →
    b0dCmd b0d = cacheDcmdReadsglNm ∨ b0dCmd b0d = cacheDcmdReadsglLo →
      ∃ s, t = s + 2 ∧ run.ReturnedSgl s b0d
  critical : ∀ t, (DcacheMcl.mtoc (run.state (t + 1)) (run.clk (t + 1))).b2enr = true ↔
    ∃ b0d, run.pending t = some b0d ∧
      (b0dCmd b0d = cacheDcmdReadmiss ∨ b0dCmd b0d = cacheDcmdWritemiss) ∧
      run.transaction t = some (.read (criticalWord b0d))
  critical_d : ∀ t, (DcacheMcl.mtoc (run.state (t + 1)) (run.clk (t + 1))).b2enr = true →
    (DcacheMcl.mtoc (run.state (t + 1)) (run.clk (t + 1))).b2dCfil = (run.clk t).ma.d
  readmiss : ∀ t b0d a, run.pending t = some b0d → b0dCmd b0d = cacheDcmdReadmiss →
    run.transaction t = some (.read a) →
      DcacheMcl.ryMcl (run.state t) (run.clk t) =
        { a1 := a.extractLsb 12 2, en1 := true, wr1 := true, we1 := 0xf, d1 := (run.clk t).ma.d }

/-- The memory side performs what it is commanded. The reads of a line are those of its
eight words from the critical one on, and the fields of a command are those of the request
that the CPU side has packed. -/
theorem performs (delivered : run.Delivered) :
    run.Performs ∧
      (∀ a, (lineReads a 8).head? = some (.read (DcacheMcl.withWord a (toCacheWord a))) ∧
        ∀ w, (lineReads a 8).count (.read (DcacheMcl.withWord a w)) = 1) ∧
      ∀ this i, DcacheCcl.ctomB0en this i = true →
        (i.a.wr = true → ∃ mem coproc addr data, i.a = Datapath.toDataO mem coproc addr data) →
          traffic (DcacheCcl.ctomB0d this i) = DcacheCcl.commanded this i := by
  refine ⟨?_, lineReads_eight, fun this i => traffic_ctomB0d⟩
  constructor
  · intro t
    rw [tally delivered t]
    exact List.prefix_append _ _
  · exact performed delivered
  · exact (onePlace delivered).history_put
  · exact completed_all delivered
  · exact fun t b0d => readsgl_data delivered
  · exact fun t => b2enr_iff delivered
  · exact fun t => b2dCfil_of_b2enr
  · exact fun t b0d a => readmiss_data delivered

/-! ### A read that misses, and three stores -/

/-- The memory side of `DcacheRun.together`, whose clock rises at every other instant. -/
def storing : MclRun where
  clk n :=
    Dcache.mclI (DcacheRun.together.state (2 * n)) (DcacheRun.together.clk (2 * n))

theorem mcl_together : DcacheRun.together.mcl = storing := by
  refine congrArg MclRun.mk (funext fun n => ?_)
  have input := @DcacheRun.mcl_clk DcacheRun.together (2 * n)
    (by rw [DcacheRun.together, DcacheRun.rises200_ofAccesses]; simp)
  rwa [DcacheRun.together, DcacheRun.mclTime_ofAccesses] at input

theorem storing_delivered : storing.Delivered := by
  intro n
  obtain ⟨crosses, steady⟩ := DcacheRun.steady DcacheRun.acknowledges_together (2 * n)
  have delivers := DcacheRun.delivers DcacheRun.acknowledges_together steady crosses
    (by rw [DcacheRun.together, DcacheRun.rises200_ofAccesses]; simp)
  rwa [show DcacheRun.together.mclTime (2 * n) = n from DcacheRun.mclTime_ofAccesses _ _ _ n,
    mcl_together] at delivers

/-- The third store arrives while the second one is being written, and is completed before it
is written itself. -/
theorem performs_storing : storing.Performs ∧
    history storing.transaction 50 =
      lineReads 0x100 8 ++
        [.write 0x100 0xf 0xbeef, .write 0x100 0xf 0xbeef, .write 0x104 0xf 0xbeef] ∧
    history storing.completion 50 = history storing.seen 50 ∧
    (storing.seen 37).isSome ∧ storing.mode 38 = .queued ∧
    (history storing.completion 45).length = 4 ∧ (history storing.transaction 45).length = 10 := by
  refine ⟨(performs storing_delivered).1, ?_, ?_, ?_, ?_, ?_, ?_⟩
  all_goals decide +kernel

end MclRun

end JCore
