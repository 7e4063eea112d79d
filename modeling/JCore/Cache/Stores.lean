import JCore.Cache.Completion

/-!
# The stores of the data cache

The memory side answers each store when the memory has acknowledged its write, in the order
of the stores. Two writes are at least four clocks apart, and when a command is completed
no write is left but that of a fast store.

## Main definitions

* `storeLine`, `Transaction.line`: the lines that a command and a transaction write
* `MclRun.writes`, `MclRun.owed`: the writes acknowledged and those still to come
* `MclRun.sinceWrite`: the clocks since the last write

## Main results

* `MclRun.owed_succ`: the stores so far are those written and those to come
* `MclRun.spaced_succ`, `MclRun.four_le_sinceWrite`: the distance of two writes
* `MclRun.length_owed_of_completes`: what is left when a command is completed
-/

namespace JCore

/-- The line that a command stores to. -/
def storeLine (b0d : BitVec 65) : Option (BitVec 23) :=
  if b0dCmd b0d = cacheDcmdWritemiss ∨ b0dCmd b0d = cacheDcmdWritesglFa ∨
      b0dCmd b0d = cacheDcmdWritesglSl then
    some (toCacheLine (b0dAddr b0d))
  else none

/-- The line that a transaction writes. -/
def Transaction.line : Transaction → Option (BitVec 23)
  | .read _ => none
  | .write a _ _ => some (toCacheLine a)

theorem filterMap_lineReads (a : BitVec 28) (n : ℕ) :
    (lineReads a n).filterMap Transaction.line = [] := by
  rw [lineReads, List.filterMap_map, List.filterMap_eq_nil_iff]
  exact fun _ _ => rfl

/-- A store brings one write, to its line. -/
theorem filterMap_traffic {b0d : BitVec 65} (command : b0dCmd b0d ≠ 0b101) :
    (traffic b0d).filterMap Transaction.line = (storeLine b0d).toList := by
  have write : [storeWrite b0d].filterMap Transaction.line = [toCacheLine (b0dAddr b0d)] := rfl
  by_cases store : b0dCmd b0d = cacheDcmdWritemiss ∨ b0dCmd b0d = cacheDcmdWritesglFa ∨
      b0dCmd b0d = cacheDcmdWritesglSl
  · rw [storeLine, if_pos store, Option.toList_some, ← write, traffic]
    rcases store with store | store | store <;>
      simp [store, cacheDcmdReadmiss, cacheDcmdWritemiss, cacheDcmdReadsglNm, cacheDcmdReadsglLo,
        cacheDcmdNegateLo, cacheDcmdWritesglFa, cacheDcmdWritesglSl, filterMap_lineReads]
  · rw [storeLine, if_neg store, Option.toList_none, traffic]
    simp only [not_or] at store
    split_ifs with c1 c2 c3 c4
    · exact filterMap_lineReads _ _
    · exact absurd c2 store.1
    · rfl
    · rfl
    · exact absurd (writesglFa_of_ne c1 store.1 c3 store.2.2 c4 command) store.2.1

namespace MclRun

section Owed

variable (run : MclRun) (t : ℕ)

/-- The line that the memory acknowledges a write to in clock `t`. -/
def writes : Option (BitVec 23) := (run.transaction t).bind Transaction.line

/-- The lines that are still to be written. -/
def owed (m : Mode) : List (BitVec 23) := (run.todo t m).filterMap Transaction.line

/-- The clocks since the last write. -/
def sinceWrite : ℕ → ℕ
  | 0 => 4
  | t + 1 => if (run.writes t).isSome then 1 else sinceWrite t + 1

/-- How far the gap after a write is over. -/
def gapAge : DcachemwiState → ℕ
  | .gap1 => 1
  | .gap2s | .gap2r => 2
  | .gap3s | .gap3r => 3
  | .idle => 4

/-- The gap is over when the next write is asked for. -/
def Spaced : Mode → Prop
  | .reading => 2 ≤ run.sinceWrite t
  | .answering1 => 3 ≤ run.sinceWrite t
  | .filling | .missFilling =>
    2 ≤ run.sinceWrite t ∧
      (run.sinceWrite t = 2 → (run.state t).reqw = toCacheWord (run.state t).ma0)
  | _ => gapAge (run.state t).statemwi ≤ run.sinceWrite t

end Owed

variable {run : MclRun} {t : ℕ}

theorem sinceWrite_succ (t : ℕ) : run.sinceWrite (t + 1) =
    if (run.writes t).isSome then 1 else run.sinceWrite t + 1 := rfl

/-! ### Stores in order -/

/-- A write is taken from those that are to come, and a store that arrives is added. -/
theorem owed_succ (delivers : run.Delivers t) {m : Mode} (h : run.Holds t m) :
    run.owed t m ++ ((run.seen t).bind storeLine).toList =
      (run.writes t).toList ++ run.owed (t + 1) (run.nextMode t m) := by
  have step := congrArg (List.filterMap Transaction.line) (todo_succ delivers h)
  rw [List.filterMap_append, List.filterMap_append, filterMap_toList] at step
  rw [owed, writes, owed, ← step]
  congr 1
  cases hs : run.seen t with
  | none => rfl
  | some b0d =>
    rw [Option.toList_some, List.flatMap_singleton, filterMap_traffic (delivers.command _ hs)]
    rfl

/-- A write is asked for when the gap before it is over. -/
theorem men_of_mwr {m : Mode} (h : run.Holds t m) (mwr : (run.state t).mwr = true) :
    (run.state t).men = true ∧ (run.state t).statemwi = .idle ∧
      (m = .merging ∨ m = .storing ∨ m = .buffering ∨ m = .queued) := by
  cases m <;> grind [Holds, cases Rests, cases Fills, cases Buffers]

theorem isSome_writes (t : ℕ) : (run.writes t).isSome =
    ((run.state t).men && (run.clk t).ma.ack && (run.state t).mwr) := by
  rw [writes, transaction, DcacheMcl.my]
  cases (run.state t).men <;> cases (run.clk t).ma.ack <;> cases (run.state t).mwr <;> rfl

/-- The pulse to the other clock goes with the write. -/
theorem b3enrPls_of_holds {m : Mode} (h : run.Holds t m) :
    DcacheMcl.b3enrPls (run.state t) (run.clk t) = (run.writes t).isSome := by
  rw [isSome_writes, DcacheMcl.b3enrPls, DcacheMcl.maAckG]
  cases mwr : (run.state t).mwr with
  | false => simp
  | true =>
    obtain ⟨men, gap, -⟩ := men_of_mwr h mwr
    simp [men, gap]

/-- A store that is written has been owed. -/
theorem owed_ne_nil {m : Mode} (h : run.Holds t m) (writes : (run.writes t).isSome = true) :
    run.owed t m ≠ [] := by
  rw [isSome_writes, Bool.and_eq_true] at writes
  obtain ⟨-, -, mode⟩ := men_of_mwr h writes.2
  rcases mode with rfl | rfl | rfl | rfl <;>
    simp [owed, todo, storeWrite, buffered, Transaction.line]

/-! ### The distance of two writes -/

theorem four_le_sinceWrite {m : Mode} (h : run.Holds t m) (spaced : run.Spaced t m)
    (writes : (run.writes t).isSome = true) : 4 ≤ run.sinceWrite t := by
  rw [isSome_writes, Bool.and_eq_true] at writes
  obtain ⟨-, gap, mode⟩ := men_of_mwr h writes.2
  rcases mode with rfl | rfl | rfl | rfl <;> simpa [Spaced, gap, gapAge] using spaced

theorem spaced_zero : run.Spaced 0 .free := by
  simp [Spaced, state, dcacheMclRegReset, gapAge, sinceWrite]

theorem gapAge_le (gap : DcachemwiState) : gapAge gap ≤ 4 := by
  cases gap <;> decide

theorem one_le_gapAge (gap : DcachemwiState) : 1 ≤ gapAge gap := by
  cases gap <;> decide

/-- A gap is cut short by a read only. -/
theorem gapAge_nextStatemwi
    (h : DcacheMcl.sboutEn1 (run.state t) (run.clk t) = true →
      DcacheMcl.sboutEn1w (run.state t) (run.clk t) = true) :
    gapAge (DcacheMcl.nextStatemwi (run.state t) (run.clk t)) ≤
      gapAge (run.state t).statemwi + 1 := by
  rw [DcacheMcl.nextStatemwi]
  cases (run.state t).statemwi with
  | idle => exact (gapAge_le _).trans (Nat.le_succ 4)
  | gap1 | gap2s =>
    dsimp only
    cases en : DcacheMcl.sboutEn1 (run.state t) (run.clk t) with
    | false => exact le_rfl
    | true =>
      rw [h en]
      exact le_rfl
  | gap2r | gap3s | gap3r => exact le_rfl

theorem sboutEn1_of_busy (h : (run.state t).statemcl ≠ .idle) :
    DcacheMcl.sboutEn1 (run.state t) (run.clk t) = false := by
  rw [DcacheMcl.sboutEn1, beq_eq_false_iff_ne.mpr h, Bool.false_and]

/-- The gap starts with the write. -/
theorem nextStatemwi_of_writes {m : Mode} (h : run.Holds t m)
    (writes : (run.writes t).isSome = true) :
    DcacheMcl.nextStatemwi (run.state t) (run.clk t) = .gap1 := by
  rw [isSome_writes, Bool.and_eq_true, Bool.and_eq_true] at writes
  obtain ⟨⟨-, ack⟩, mwr⟩ := writes
  obtain ⟨-, gap, mode⟩ := men_of_mwr h mwr
  have state : (run.state t).statemcl = .wtha ∨ (run.state t).statemcl = .wthi ∨
      (run.state t).statemcl = .wsg := by
    rcases mode with rfl | rfl | rfl | rfl
    · exact .inl h.1
    · exact .inr (.inr h.1)
    · exact .inr (.inl h.1)
    · exact .inr (.inl h.1)
  rcases state with state | state | state <;>
    simp [DcacheMcl.nextStatemwi, DcacheMcl.maAckG, gap, state, ack]

/-- The gap goes on, or starts with a write. -/
theorem gapAge_succ {m : Mode} (h : run.Holds t m)
    (le : gapAge (run.state t).statemwi ≤ run.sinceWrite t)
    (uncut : DcacheMcl.sboutEn1 (run.state t) (run.clk t) = true →
      DcacheMcl.sboutEn1w (run.state t) (run.clk t) = true) :
    gapAge (run.state (t + 1)).statemwi ≤ run.sinceWrite (t + 1) := by
  change gapAge (DcacheMcl.nextStatemwi (run.state t) (run.clk t)) ≤ _
  rw [sinceWrite_succ]
  split_ifs with writes
  · rw [nextStatemwi_of_writes h writes]
    exact le_rfl
  · exact (gapAge_nextStatemwi uncut).trans (Nat.succ_le_succ le)

theorem sinceWrite_of_quiet (mwr : (run.state t).mwr = false) :
    run.sinceWrite (t + 1) = run.sinceWrite t + 1 := by
  rw [sinceWrite_succ, isSome_writes, mwr, Bool.and_false]
  rfl

/-- A command is taken over. -/
theorem spaced_accept (rests : run.Rests t)
    (taken : DcacheMcl.sboutEn1 (run.state t) (run.clk t) = true)
    (le : gapAge (run.state t).statemwi ≤ run.sinceWrite t)
    (command : b0dCmd (run.clk t).ctom.b0d ≠ 0b101) :
    run.Spaced (t + 1) (.accept (b0dCmd (run.clk t).ctom.b0d) (run.state t).statemwi) := by
  have since := sinceWrite_of_quiet rests.mwr
  have one := one_le_gapAge (run.state t).statemwi
  have cmd : DcacheMcl.sboutCmd (run.state t) (run.clk t) = b0dCmd (run.clk t).ctom.b0d := by
    simp [DcacheMcl.sboutCmd, rests.sbbufin]
  -- a write that is taken over within a gap goes on in the gap
  have goes (write : DcacheMcl.sboutEn1w (run.state t) (run.clk t) = true) :
      gapAge (run.state (t + 1)).statemwi ≤ run.sinceWrite (t + 1) := by
    change gapAge (DcacheMcl.nextStatemwi (run.state t) (run.clk t)) ≤ _
    rw [since]
    exact (gapAge_nextStatemwi fun _ => write).trans (Nat.succ_le_succ le)
  -- a line starts with the word that is asked for
  have word : DcacheMcl.nextStatemcl (run.state t) (run.clk t) = .rfill ∨
        DcacheMcl.nextStatemcl (run.state t) (run.clk t) = .wfill →
      (run.state (t + 1)).reqw = toCacheWord (run.state (t + 1)).ma0 := by
    intro fills
    rcases fills with fills | fills <;>
      simp [state_succ, DcacheMcl.step, DcacheMcl.reqw, DcacheMcl.ma0, taken, rests.statemcl, fills]
  rw [Mode.accept]
  split_ifs with c1 c2 c3 c4 c5 c6
  · refine ⟨by omega, fun _ => word (.inl ?_)⟩
    simp [DcacheMcl.nextStatemcl, rests.statemcl, taken, cmd, c1]
  · refine ⟨by omega, fun _ => word (.inr ?_)⟩
    simp [DcacheMcl.nextStatemcl, rests.statemcl, taken, cmd, c2, cacheDcmdReadmiss,
      cacheDcmdWritemiss]
  · change 2 ≤ run.sinceWrite (t + 1)
    omega
  · exact goes (by simp [DcacheMcl.sboutEn1w, DcacheMcl.isWritesgl, taken, cmd, c4])
  · exact goes (by simp [DcacheMcl.sboutEn1w, DcacheMcl.isWritesgl, taken, cmd, c5])
  -- what is left is a fast store, early or not
  all_goals
    have fa := writesglFa_of_ne c1 c2 c3 c4 c5 command
    exact goes (by simp [DcacheMcl.sboutEn1w, DcacheMcl.isWritesgl, taken, cmd, fa])

/-- A line takes more than one clock. -/
theorem three_le_sinceWrite (le : 2 ≤ run.sinceWrite t)
    (first : run.sinceWrite t = 2 → (run.state t).reqw = toCacheWord (run.state t).ma0)
    (last : DcacheMcl.cwLast (run.state t) = true) : 3 ≤ run.sinceWrite t := by
  by_contra less
  have word := first (by omega)
  rw [DcacheMcl.cwLast, beq_iff_eq, word] at last
  bv_omega

theorem spaced_succ (delivers : run.Delivers t) {m : Mode} (h : run.Holds t m)
    (spaced : run.Spaced t m) : run.Spaced (t + 1) (run.nextMode t m) := by
  rw [nextMode]
  cases m with
  -- where a command is taken over the gap may go on
  | free =>
    obtain ⟨rests, silent, -⟩ := id h
    rw [Mode.next]
    split_ifs with arrives
    · have taken : DcacheMcl.sboutEn1 (run.state t) (run.clk t) = true := by
        simp [DcacheMcl.sboutEn1, rests.statemcl, arrives]
      have some : run.seen t = some (run.clk t).ctom.b0d := if_pos arrives
      exact spaced_accept rests taken spaced (delivers.command _ some)
    · refine gapAge_succ h spaced fun taken => ?_
      simp [DcacheMcl.sboutEn1, silent.sbblknxst, arrives] at taken
  | remembered =>
    obtain ⟨rests, remembers, -, -, -, hopen⟩ := id h
    have taken : DcacheMcl.sboutEn1 (run.state t) (run.clk t) = true := by
      simp [DcacheMcl.sboutEn1, rests.statemcl, remembers]
    refine spaced_accept rests taken spaced ?_
    rw [(delivers.lines (.inl hopen.isOpen)).2]
    exact hopen.command
  | reading =>
    obtain ⟨-, -, -, -, mwr, -⟩ := id h
    have since := sinceWrite_of_quiet mwr
    rw [Mode.next]
    change 2 ≤ run.sinceWrite t at spaced
    split_ifs
    · change 3 ≤ run.sinceWrite (t + 1)
      omega
    · change 2 ≤ run.sinceWrite (t + 1)
      omega
  | answering1 =>
    obtain ⟨rests, -⟩ := id h
    have since := sinceWrite_of_quiet rests.mwr
    change 3 ≤ run.sinceWrite t at spaced
    exact (gapAge_le _).trans (by omega)
  -- the words of a line take longer than the gap
  | filling =>
    obtain ⟨-, -, fills, -⟩ := id h
    have since := sinceWrite_of_quiet fills.mwr
    obtain ⟨le, first⟩ := spaced
    rw [Mode.next]
    split_ifs with last
    · have three := three_le_sinceWrite le first (Bool.and_eq_true_iff.mp last).2
      exact (gapAge_le _).trans (by omega)
    · exact ⟨by omega, fun two => by omega⟩
  | missFilling =>
    obtain ⟨-, -, fills, -⟩ := id h
    have since := sinceWrite_of_quiet fills.mwr
    obtain ⟨le, first⟩ := spaced
    rw [Mode.next]
    split_ifs with last
    · have three := three_le_sinceWrite le first (Bool.and_eq_true_iff.mp last).2
      exact (gapAge_le _).trans (by omega)
    · exact ⟨by omega, fun two => by omega⟩
  | cooling =>
    obtain ⟨-, silent, -, -, hdel, -⟩ := id h
    exact gapAge_succ h spaced fun taken => by
      simp [DcacheMcl.sboutEn1, DcacheMcl.seen, silent.sbblknxst, hdel] at taken
  | answering0 =>
    obtain ⟨-, remembers, -, -, hopen⟩ := id h
    have goes := gapAge_succ h spaced fun taken => by
      simp [DcacheMcl.sboutEn1, DcacheMcl.seen, remembers, hopen.fillvDel1] at taken
    rw [Mode.next]
    split_ifs <;> exact goes
  -- while the state machine is busy nothing is taken over
  | merging | storing | early | buffering | queued =>
    have busy : (run.state t).statemcl ≠ .idle := by simp [h.1]
    have goes := gapAge_succ h spaced fun taken => by
      simp [sboutEn1_of_busy busy] at taken
    rw [Mode.next]
    split_ifs <;> exact goes

/-! ### Completions -/

theorem writesglFa_of_accept {cmd : BitVec 3} {gap : DcachemwiState} (command : cmd ≠ 0b101)
    (h : Mode.accept cmd gap = .buffering) : cmd = cacheDcmdWritesglFa := by
  rw [Mode.accept] at h
  split_ifs at h with c1 c2 c3 c4 c5 c6
  exact writesglFa_of_ne c1 c2 c3 c4 c5 command

/-- A store is still to be written when its command is completed only if it is a fast one. -/
theorem command_of_completes {m : Mode} (delivers : run.Delivers t) (h : run.Holds t m)
    (completes : run.completes t = true) (left : run.nextMode t m = .buffering) :
    b0dCmd (run.clk t).ctom.b0d = cacheDcmdWritesglFa := by
  rw [nextMode] at left
  cases m with
  | free =>
    rw [Mode.next] at left
    split_ifs at left with arrives
    have some : run.seen t = some (run.clk t).ctom.b0d := if_pos arrives
    exact writesglFa_of_accept (delivers.command _ some) left
  | remembered =>
    obtain ⟨-, -, -, -, -, hopen⟩ := h
    rw [Mode.next, (delivers.lines (.inl hopen.isOpen)).2] at left
    rw [(delivers.lines (.inl hopen.isOpen)).2]
    exact writesglFa_of_accept hopen.command left
  | early =>
    obtain ⟨-, -, -, -, -, hopen⟩ := h
    rw [(delivers.lines (.inl hopen.isOpen)).2]
    exact hopen.command
  | buffering =>
    -- the command has been completed before
    obtain ⟨state, -, buffers, gap, -⟩ := h
    simp [MclRun.completes, DcacheMcl.mtoc, DcacheMcl.b0enr, DcacheMcl.sboutCmd,
      buffers.sbbufin, state, gap] at completes
  | cooling | answering1 => cases left
  | _ =>
    rw [Mode.next] at left
    split_ifs at left

/-- When a command is completed no write is left but that of a fast store. -/
theorem length_owed_of_completes {m : Mode} (delivers : run.Delivers t) (h : run.Holds t m)
    (completes : run.completes t = true) :
    (run.owed (t + 1) (run.nextMode t m)).length ≤
      if b0dCmd (run.clk t).ctom.b0d = cacheDcmdWritesglFa then 1 else 0 := by
  have closed : (run.port (t + 1)).isOpen = false := by
    rw [port_succ]
    cases run.seen t <;> simp [completes]
  have opens := isOpen_of_holds (holds_succ delivers h)
  rw [closed] at opens
  have fast := command_of_completes delivers h completes
  cases mode : run.nextMode t m <;> rw [mode] at opens fast
  case buffering =>
    rw [if_pos (fast rfl)]
    exact List.length_filterMap_le _ _
  all_goals first
    | exact Nat.zero_le _
    | exact absurd opens Bool.false_ne_true

end MclRun

end JCore
