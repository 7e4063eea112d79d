import JCore.Core.DebugSession

/-!
# The debug handshake

The debugger presents a command until it is acknowledged. The acknowledgement
comes in the clock that leads to `RUN` or `READY`, and in between the CPU is in
a state that takes no commands, so that a command is carried out in the first
clock of its presentation or not at all. `STEP` and `CONTINUE` fetch in that
clock if the decoder's line asks for an instruction.

## Main definitions

* `Presented`: a command from its first clock to its acknowledgement
* `Handshake`: what a presentation keeps to, by the state it starts in

## Main results

* `debug_handshake_iff`: the presentations of a run keep to the handshake exactly
  if every `STEP` and `CONTINUE` meets a line that asks for an instruction
-/

namespace JCore.Datapath

variable (regs : RegisterFile 5 21 32) (clk : ℕ → ClockI)

/-- `debug_o.ack` in clock `t`. -/
def ackAt (t : ℕ) : Bool := (recordAt regs clk (t + 1)).debugO.ack

/-- The debugger holds a command from clock `t₀` on and sees it acknowledged in
clock `t₁`. -/
structure Presented (t₀ t₁ : ℕ) : Prop where
  le : t₀ ≤ t₁
  en : (clk t₀).i.debugI.en = true
  held : ∀ t, t₀ ≤ t → t ≤ t₁ → (clk t).i.debugI = (clk t₀).i.debugI
  pending : ∀ t, t₀ ≤ t → t < t₁ → ackAt regs clk t = false
  acked : ackAt regs clk t₁ = true

/-- Neither `RUN` nor `READY` is reached before the acknowledgement, and `READY`
with it. -/
def EntersReady (t₀ t₁ : ℕ) : Prop :=
  (∀ t, t₀ < t → t ≤ t₁ → (recordAt regs clk t).debugState ≠ .run ∧
    (recordAt regs clk t).debugState ≠ .ready) ∧
  (recordAt regs clk (t₁ + 1)).debugState = .ready

/-- The command is carried out in the first clock and in no other. -/
def CarriedOutOnce (cmd : CpuDebugCmd) (t₀ t₁ : ℕ) : Prop :=
  ∀ t, t₀ ≤ t → t ≤ t₁ → (debugCmd (recordAt regs clk t) (clk t).i cmd = true ↔ t = t₀)

/-- The words that are taken into `ifDr` before clock `t`. -/
def wordsTaken (t : ℕ) : List (BitVec 16) :=
  history (fun t => instMoved (recordAt regs clk t) (clk t).i) t

/-- The clock fetches the instruction at PC. -/
def FetchesAtPc (t : ℕ) : Prop :=
  requestAt regs clk t =
    some { en := true, a := (recordAt regs clk t).pc.extractLsb' 1 31, jp := true }

/-- The clock does what it does without the command, but for the answer to the
debugger. -/
def ChangesNothing (t : ℕ) : Prop :=
  run (reset regs) clk (t + 1) =
    { this :=
        { (step (run (reset regs) clk t) (clk t).ctrl (clk t).dec (withoutDebug (clk t).i)).this with
          debugO := (recordAt regs clk (t + 1)).debugO }
      regs :=
        (step (run (reset regs) clk t) (clk t).ctrl (clk t).dec (withoutDebug (clk t).i)).regs }

/-- What a presentation keeps to, by its command and the state it starts in. The fetch at PC
of STEP and CONTINUE is the command's own; any later fetch of the presentation is asked for by
the slot of a presented line. -/
def Handshake (t₀ t₁ : ℕ) : Prop :=
  (∀ t, t₀ ≤ t → t ≤ t₁ → (ackAt regs clk t = true ↔ t = t₁)) ∧
  match (recordAt regs clk t₀).debugState, (clk t₀).i.debugI.cmd with
  | .ready, .insert =>
    CarriedOutOnce regs clk .insert t₀ t₁ ∧ EntersReady regs clk t₀ t₁ ∧
      wordsTaken regs clk (t₁ + 1) = wordsTaken regs clk t₀ ++ [(clk t₀).i.debugI.ir]
  | .ready, .step =>
    CarriedOutOnce regs clk .step t₀ t₁ ∧ EntersReady regs clk t₀ t₁ ∧ FetchesAtPc regs clk t₀
  | .ready, .continue =>
    t₁ = t₀ ∧ FetchesAtPc regs clk t₀ ∧ (recordAt regs clk (t₁ + 1)).debugState = .run
  | .ready, .break =>
    t₁ = t₀ ∧ ChangesNothing regs clk t₀ ∧ (recordAt regs clk (t₁ + 1)).debugState = .ready
  | .run, .break => EntersReady regs clk t₀ t₁
  | .run, _ => ∀ t, t₀ ≤ t → t ≤ t₁ → ChangesNothing regs clk t
  | _, _ => True

/-- When a command is acknowledged: on the way to `RUN` or `READY`, and at once if
it does not lead out of its state. -/
def CommandsAnswered : Prop :=
  ∀ t, ackAt regs clk t =
      ((clk t).i.debugI.en && DebugState.settled (recordAt regs clk (t + 1)).debugState) ∧
    ((clk t).i.debugI.en = true → (recordAt regs clk t).debugState = .ready →
      (clk t).i.debugI.cmd = .break → ackAt regs clk t = true) ∧
    ((clk t).i.debugI.en = true → (recordAt regs clk t).debugState = .run →
      (clk t).i.debugI.cmd ≠ .break → breakRan (recordAt regs clk t) (clk t).dec = false →
        ackAt regs clk t = true)

variable {regs clk} {t t₀ t₁ : ℕ}

theorem ackAt_eq (t : ℕ) : ackAt regs clk t =
    ((clk t).i.debugI.en && DebugState.settled (recordAt regs clk (t + 1)).debugState) := by
  rw [ackAt, recordAt_succ, process_ack]

theorem commandsAnswered (regs : RegisterFile 5 21 32) (clk : ℕ → ClockI) : CommandsAnswered regs clk := by
  intro t
  refine ⟨ackAt_eq t, fun en ready cmd => ?_, fun en running cmd noBreak => ?_⟩
  · rw [ackAt_eq, en, recordAt_succ, process_debugState_of_ready _ _ _ _ ready]
    simp [debugCmd, cmd, DebugState.settled]
  · have hasked : breakAsked (recordAt regs clk t) (clk t).i = false :=
      (ignores_of_run _ _ running cmd).1
    rw [ackAt_eq, en, recordAt_succ, process_debugState_of_run _ _ _ _ running, noBreak, hasked]
    rfl

/-! ### A presentation clock by clock -/

theorem Presented.en_at (h : Presented regs clk t₀ t₁) (ht : t₀ ≤ t) (ht' : t ≤ t₁) :
    (clk t).i.debugI.en = true := by
  rw [h.held t ht ht', h.en]

/-- Before the acknowledgement no clock leads to `RUN` or `READY`. -/
theorem Presented.unsettled (h : Presented regs clk t₀ t₁) (ht : t₀ < t) (ht' : t ≤ t₁) :
    DebugState.settled (recordAt regs clk t).debugState = false := by
  obtain ⟨u, rfl⟩ : ∃ u, t = u + 1 := ⟨t - 1, by omega⟩
  have hack := h.pending u (by omega) ht'
  rw [ackAt_eq, h.en_at (by omega) (by omega), Bool.true_and] at hack
  exact hack

theorem ne_of_unsettled {state : DebugState} (h : DebugState.settled state = false) :
    state ≠ .run ∧ state ≠ .ready := by
  cases state <;> simp_all [DebugState.settled]

theorem Presented.settled (h : Presented regs clk t₀ t₁) :
    DebugState.settled (recordAt regs clk (t₁ + 1)).debugState = true := by
  have hack := h.acked
  rw [ackAt_eq, h.en_at h.le le_rfl, Bool.true_and] at hack
  exact hack

theorem Presented.ack_iff (h : Presented regs clk t₀ t₁) (ht : t₀ ≤ t) (ht' : t ≤ t₁) :
    ackAt regs clk t = true ↔ t = t₁ := by
  constructor
  · intro hack
    by_contra hne
    rw [h.pending t ht (by omega)] at hack
    cases hack
  · rintro rfl
    exact h.acked

/-- A presentation whose first clock leads to `RUN` or `READY` is over with it. -/
theorem Presented.eq_of_settled (h : Presented regs clk t₀ t₁)
    (settled : DebugState.settled (recordAt regs clk (t₀ + 1)).debugState = true) : t₁ = t₀ := by
  by_contra hne
  have hlt := lt_of_le_of_ne h.le (Ne.symm hne)
  rw [h.unsettled (Nat.lt_succ_self t₀) hlt] at settled
  cases settled

/-- From a state that takes no commands the CPU leaves for `READY` only. -/
theorem ready_of_unsettled (before : DebugState.settled (recordAt regs clk t).debugState = false)
    (after : DebugState.settled (recordAt regs clk (t + 1)).debugState = true) :
    (recordAt regs clk t).debugState = .awaitIf ∧
      slotO (recordAt regs clk t) (clk t).i = true ∧
      (recordAt regs clk (t + 1)).debugState = .ready := by
  rw [recordAt_succ] at after ⊢
  cases hstate : (recordAt regs clk t).debugState with
  | run | ready => simp [hstate, DebugState.settled] at before
  | awaitBreak =>
    rw [process_debugState_of_awaitBreak _ _ _ _ hstate] at after
    split_ifs at after <;> cases after
  | awaitIf =>
    rw [process_debugState_of_awaitIf _ _ _ _ hstate] at after ⊢
    split_ifs at after ⊢ with hpause
    · rw [Bool.and_eq_true] at hpause
      exact ⟨rfl, hpause.1, rfl⟩
    · cases after

/-- A presentation that is not over at once ends where the CPU is ready. -/
theorem Presented.entersReady (h : Presented regs clk t₀ t₁)
    (first : DebugState.settled (recordAt regs clk (t₀ + 1)).debugState = false) :
    EntersReady regs clk t₀ t₁ := by
  have hlt : t₀ < t₁ := by
    rcases Nat.lt_or_ge t₀ t₁ with hlt | hge
    · exact hlt
    · have heq : t₁ = t₀ := Nat.le_antisymm hge h.le
      have := h.settled
      rw [heq, first] at this
      cases this
  refine ⟨fun t ht ht' => ne_of_unsettled (h.unsettled ht ht'), ?_⟩
  exact (ready_of_unsettled (h.unsettled hlt le_rfl) h.settled).2.2

/-- Outside of `READY` no command is carried out. -/
theorem Presented.carriedOutOnce (h : Presented regs clk t₀ t₁)
    (ready : (recordAt regs clk t₀).debugState = .ready) {cmd : CpuDebugCmd}
    (hcmd : (clk t₀).i.debugI.cmd = cmd) : CarriedOutOnce regs clk cmd t₀ t₁ := by
  intro t ht ht'
  constructor
  · intro hout
    by_contra hne
    have hunsettled := h.unsettled (lt_of_le_of_ne ht (Ne.symm hne)) ht'
    rw [debugCmd_eq_false _ _ _ (ne_of_unsettled hunsettled).2] at hout
    cases hout
  · rintro rfl
    have hquiet := (quiet_run regs clk t).ready ready
    have hack : instAcked (recordAt regs clk t) (clk t).i = false := by
      rw [instAcked, recordAt, hquiet.1, Bool.false_and]
    simp [debugCmd, hack, ready, h.en, hcmd]

theorem changesNothing_of_ignores (h : Ignores (recordAt regs clk t) (clk t).i) :
    ChangesNothing regs clk t := by
  have hprocess := process_of_ignores (clk t).ctrl (clk t).dec (logicAt regs clk t) h
  have hslot : (recordAt regs clk (t + 1)).slot =
      (process (recordAt regs clk t) (clk t).ctrl (clk t).dec (logicAt regs clk t)
        (withoutDebug (clk t).i)).slot := by
    rw [recordAt_succ, hprocess]
  apply State.ext
  · rw [← recordAt_succ] at hprocess
    exact hprocess
  · have hregs : (run (reset regs) clk (t + 1)).regs =
        (run (reset regs) clk t).regs.step
          (wbPipe (recordAt regs clk t) (clk t).ctrl)
          (exPipe0 (recordAt regs clk t) (run (reset regs) clk t).regs (clk t).ctrl (clk t).i)
          (recordAt regs clk (t + 1)).slot := rfl
    rw [hregs, hslot]
    rfl

theorem ignores_of_unsettled {this : DatapathReg} {i : DatapathI}
    (h : DebugState.settled this.debugState = false) : Ignores this i := by
  obtain ⟨hrun, hready⟩ := ne_of_unsettled h
  refine ⟨?_, fun cmd _ => debugCmd_eq_false this i cmd hready⟩
  have hne : (this.debugState == .run) = false := beq_eq_false_iff_ne.mpr hrun
  rw [breakAsked, hne, Bool.false_and, Bool.false_and]

/-! ### An inserted instruction -/

/-- An insertion waits for the fetch of the next instruction. -/
theorem Presented.awaitIf (h : Presented regs clk t₀ t₁)
    (first : (recordAt regs clk (t₀ + 1)).debugState = .awaitIf) (ht : t₀ < t) (ht' : t ≤ t₁) :
    (recordAt regs clk t).debugState = .awaitIf := by
  induction t, ht using Nat.le_induction with
  | base => exact first
  | succ t ht ih =>
    have hstate := ih (by omega)
    have hunsettled := ne_of_unsettled (h.unsettled (Nat.lt_succ_of_lt ht) ht')
    rw [recordAt_succ, process_debugState_of_awaitIf _ _ _ _ hstate] at hunsettled ⊢
    split_ifs at hunsettled ⊢
    · exact absurd rfl hunsettled.2
    · rfl

/-- The instruction bus stays free during an insertion. -/
theorem Presented.instO_en (h : Presented regs clk t₀ t₁)
    (ready : (recordAt regs clk t₀).debugState = .ready)
    (insert : (clk t₀).i.debugI.cmd = .insert)
    (first : (recordAt regs clk (t₀ + 1)).debugState = .awaitIf) (ht : t₀ ≤ t) (ht' : t ≤ t₁) :
    instOutstanding (recordAt regs clk t) = none := by
  induction t, ht using Nat.le_induction with
  | base =>
    have hquiet := (quiet_run regs clk t₀).ready ready
    rw [instOutstanding, recordAt, hquiet.1, if_neg Bool.false_ne_true]
  | succ t ht ih =>
    have hrequest : requestAt regs clk t = none := by
      rcases Nat.eq_or_lt_of_le ht with rfl | hlt
      · rw [requestAt_of_ready ready]
        simp [debugFetches, debugCmd, insert]
      · exact requestAt_of_awaitIf (h.awaitIf first hlt (by omega))
    exact ((instExactlyOnce regs clk).issued t (ih (by omega))).trans hrequest

/-- Exactly the inserted word comes into the instruction register. -/
theorem Presented.wordsTaken_of_insert (h : Presented regs clk t₀ t₁)
    (ready : (recordAt regs clk t₀).debugState = .ready)
    (insert : (clk t₀).i.debugI.cmd = .insert)
    (first : (recordAt regs clk (t₀ + 1)).debugState = .awaitIf) :
    wordsTaken regs clk (t₁ + 1) = wordsTaken regs clk t₀ ++ [(clk t₀).i.debugI.ir] := by
  have hout := h.carriedOutOnce ready insert
  have hfree {t : ℕ} (ht : t₀ ≤ t) (ht' : t ≤ t₁) :
      instAcked (recordAt regs clk t) (clk t).i = false := by
    have hnone := h.instO_en ready insert first ht ht'
    rw [instOutstanding] at hnone
    split_ifs at hnone with hen
    rw [instAcked, Bool.eq_false_of_not_eq_true hen, Bool.false_and]
  -- the word is the only one read, and none waits before or after
  have hread : history (fun t => instWord (recordAt regs clk t) (clk t).i) (t₁ + 1) =
      history (fun t => instWord (recordAt regs clk t) (clk t).i) t₀ ++
        [(clk t₀).i.debugI.ir] := by
    refine history_single h.le ?_ fun t ht ht' => ?_
    · rw [instWord, hfree le_rfl h.le, if_neg Bool.false_ne_true,
        if_pos ((hout t₀ le_rfl h.le).mpr rfl)]
    · have hno : debugCmd (recordAt regs clk t) (clk t).i .insert = false := by
        rw [Bool.eq_false_iff]
        exact fun hyes => ht.ne' ((hout t ht.le ht').mp hyes)
      rw [instWord, hfree ht.le ht', hno]
      rfl
  have hlt : t₀ < t₁ := by
    rcases Nat.lt_or_ge t₀ t₁ with hlt | hge
    · exact hlt
    · have hsettled := h.settled
      rw [Nat.le_antisymm hge h.le, first] at hsettled
      cases hsettled
  have hslot := (ready_of_unsettled (h.unsettled hlt le_rfl) h.settled).2.1
  have hbefore : instWaiting (recordAt regs clk t₀) = none := by
    have hquiet := (quiet_run regs clk t₀).ready ready
    rw [instWaiting, recordAt, hquiet.2, if_neg Bool.false_ne_true]
  have hafter : instWaiting (recordAt regs clk (t₁ + 1)) = none := by
    rw [recordAt_succ]
    exact (waiting_of_slot _ _ _ _ hslot).2
  have hwords (t : ℕ) : history (fun t => instWord (recordAt regs clk t) (clk t).i) t =
      wordsTaken regs clk t ++ (instWaiting (recordAt regs clk t)).toList :=
    (instExactlyOnce regs clk).words t
  rw [hwords, hwords, hbefore, hafter, Option.toList_none, List.append_nil, List.append_nil] at hread
  exact hread

/-! ### Every presentation -/

theorem fetchesAtPc_iff (ready : (recordAt regs clk t).debugState = .ready)
    (fetches : debugFetches (recordAt regs clk t) (clk t).i = true) :
    FetchesAtPc regs clk t ↔ (clk t).dec.instr.issue = true := by
  rw [FetchesAtPc, requestAt_of_ready ready, fetches, Bool.true_and]
  cases hissue : (clk t).dec.instr.issue
  · simp
  · simp [toInstO, hissue]

theorem Presented.debugFetches_iff (h : Presented regs clk t₀ t₁)
    (ready : (recordAt regs clk t₀).debugState = .ready) :
    debugFetches (recordAt regs clk t₀) (clk t₀).i = true ↔
      (clk t₀).i.debugI.cmd = .step ∨ (clk t₀).i.debugI.cmd = .continue := by
  have hquiet := (quiet_run regs clk t₀).ready ready
  have hack : instAcked (recordAt regs clk t₀) (clk t₀).i = false := by
    rw [instAcked, recordAt, hquiet.1, Bool.false_and]
  simp [debugFetches, debugCmd, hack, ready, h.en]

/-- Where a presentation may go from `READY`. -/
theorem Presented.next_of_ready (h : Presented regs clk t₀ t₁)
    (ready : (recordAt regs clk t₀).debugState = .ready) :
    (recordAt regs clk (t₀ + 1)).debugState =
      match (clk t₀).i.debugI.cmd with
      | .insert => .awaitIf
      | .step => .awaitBreak
      | .continue => .run
      | .break => .ready := by
  have hout {cmd : CpuDebugCmd} (hcmd : (clk t₀).i.debugI.cmd = cmd) :
      debugCmd (recordAt regs clk t₀) (clk t₀).i cmd = true :=
    (h.carriedOutOnce ready hcmd t₀ le_rfl h.le).mpr rfl
  have hno {cmd : CpuDebugCmd} (hcmd : (clk t₀).i.debugI.cmd ≠ cmd) :
      debugCmd (recordAt regs clk t₀) (clk t₀).i cmd = false := by
    simp [debugCmd, hcmd]
  rw [recordAt_succ, process_debugState_of_ready _ _ _ _ ready]
  cases hcmd : (clk t₀).i.debugI.cmd with
  | insert => rw [hout hcmd, if_pos rfl]
  | step => rw [hno (by simp [hcmd]), hout hcmd, if_neg Bool.false_ne_true, if_pos rfl]
  | «continue» =>
    rw [hno (by simp [hcmd]), hno (by simp [hcmd]), hout hcmd, if_neg Bool.false_ne_true,
      if_neg Bool.false_ne_true, if_pos rfl]
  | «break» =>
    rw [hno (by simp [hcmd]), hno (by simp [hcmd]), hno (by simp [hcmd])]
    rfl

/-- A command that is presented while the CPU runs stops it or does nothing. -/
theorem Presented.handshake_of_run (h : Presented regs clk t₀ t₁)
    (running : (recordAt regs clk t₀).debugState = .run) :
    if (clk t₀).i.debugI.cmd = .break then EntersReady regs clk t₀ t₁
    else ∀ t, t₀ ≤ t → t ≤ t₁ → ChangesNothing regs clk t := by
  split_ifs with hcmd
  · apply h.entersReady
    have hasked : breakAsked (recordAt regs clk t₀) (clk t₀).i = true := by
      simp [breakAsked, running, h.en, hcmd]
    rw [recordAt_succ, process_debugState_of_run _ _ _ _ running, hasked, if_pos rfl]
    split_ifs <;> rfl
  · intro t ht ht'
    apply changesNothing_of_ignores
    rcases Nat.eq_or_lt_of_le ht with rfl | hlt
    · exact ignores_of_run _ _ running hcmd
    · exact ignores_of_unsettled (h.unsettled hlt ht')

/-- A presentation keeps to the handshake exactly if its fetch, where it has
one, meets a line that asks for an instruction. -/
theorem Presented.handshake_iff (h : Presented regs clk t₀ t₁) :
    Handshake regs clk t₀ t₁ ↔
      (debugFetches (recordAt regs clk t₀) (clk t₀).i = true →
        (clk t₀).dec.instr.issue = true) := by
  have hacks : ∀ t, t₀ ≤ t → t ≤ t₁ → (ackAt regs clk t = true ↔ t = t₁) :=
    fun t ht ht' => h.ack_iff ht ht'
  rw [Handshake, and_iff_right hacks]
  -- only a command in the ready state does anything
  by_cases ready : (recordAt regs clk t₀).debugState = .ready
  · have hnext := h.next_of_ready ready
    have hfetches := h.debugFetches_iff ready
    rw [ready]
    cases hcmd : (clk t₀).i.debugI.cmd with
    | insert =>
      rw [hcmd] at hnext hfetches
      have hentry := h.entersReady (by rw [hnext]; rfl)
      have hword := h.wordsTaken_of_insert ready hcmd hnext
      exact iff_of_true ⟨h.carriedOutOnce ready hcmd, hentry, hword⟩ fun hf => by
        simp [hfetches] at hf
    -- `step` and `continue` fetch at the PC, so they need a line that issues
    | step =>
      rw [hcmd] at hnext hfetches
      have hentry := h.entersReady (by rw [hnext]; rfl)
      have hf := hfetches.mpr (.inl rfl)
      rw [fetchesAtPc_iff ready hf]
      simp [h.carriedOutOnce ready hcmd, hentry, hf]
    | «continue» =>
      rw [hcmd] at hnext hfetches
      have hover := h.eq_of_settled (by rw [hnext]; rfl)
      have hf := hfetches.mpr (.inr rfl)
      rw [fetchesAtPc_iff ready hf, hover, hnext]
      simp [hf]
    | «break» =>
      rw [hcmd] at hnext hfetches
      have hover := h.eq_of_settled (by rw [hnext]; rfl)
      have hnothing := changesNothing_of_ignores (ignores_of_ready _ _ ready hcmd)
      rw [hover, hnext]
      exact iff_of_true ⟨rfl, hnothing, rfl⟩ fun hf => by simp [hfetches] at hf
  -- in the other states the command is ignored, or waits
  · have hno : debugFetches (recordAt regs clk t₀) (clk t₀).i = false := by
      simp [debugFetches, debugCmd_eq_false _ _ _ ready]
    rw [hno]
    refine iff_of_true ?_ fun hf => by cases hf
    cases hstate : (recordAt regs clk t₀).debugState with
    | awaitIf | awaitBreak => trivial
    | ready => exact absurd hstate ready
    | run =>
      have hrun := h.handshake_of_run hstate
      cases hcmd : (clk t₀).i.debugI.cmd with
      | «break» => simpa [hcmd] using hrun
      | insert | step | «continue» => simpa [hcmd] using hrun

/-- In every run commands are answered as they should be, and the presentations
keep to the handshake exactly if every `STEP` and `CONTINUE` comes while the
decoder presents a line that asks for an instruction. -/
theorem debug_handshake_iff (regs : RegisterFile 5 21 32) (clk : ℕ → ClockI) :
    CommandsAnswered regs clk ∧
      ((∀ t₀ t₁, Presented regs clk t₀ t₁ → Handshake regs clk t₀ t₁) ↔
        ∀ t₀ t₁, Presented regs clk t₀ t₁ →
          debugFetches (recordAt regs clk t₀) (clk t₀).i = true →
            (clk t₀).dec.instr.issue = true) := by
  refine ⟨commandsAnswered regs clk, fun h t₀ t₁ presented => ?_, fun h t₀ t₁ presented => ?_⟩
  · exact presented.handshake_iff.mp (h t₀ t₁ presented)
  · exact presented.handshake_iff.mpr (h t₀ t₁ presented)

/-- A `CONTINUE` while an inserted instruction of two lines is presented fetches
nothing. -/
theorem debug_handshake_twoLines_wrong :
    Presented clearedFile (insertedClock false) 4 4 ∧
      ¬Handshake clearedFile (insertedClock false) 4 4 := by
  have presented : Presented clearedFile (insertedClock false) 4 4 :=
    { le := le_rfl
      en := rfl
      held := fun t h h' => by rw [Nat.le_antisymm h' h]
      pending := fun t h h' => absurd h (Nat.not_le.mpr h')
      acked := by decide +kernel }
  refine ⟨presented, fun h => ?_⟩
  have issue := presented.handshake_iff.mp h (by decide +kernel)
  cases issue

end JCore.Datapath
