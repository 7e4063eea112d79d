import JCore.Lib.Handshake

/-!
# The handshake at any clocks

If one clock is too fast for the other, a level changes and changes back between two
samples, and a `Link` loses the request or the answer that it stood for. Nothing is found
that was not sent, all the same. A request that the server finds is the last one, with its
payload, and an answer that the client finds is the one to it, with its data.

Between requests the two levels of the client and the server's are equal, and a request
makes them differ until it is answered. What the registers have sampled since is a change
in one direction, perhaps with the end of the change before in front of it.

## Main definitions

* `Phase`: what is under way between the two sides
* `Link.Crosses`: the registers in each phase

## Main results

* `LinkRun.crosses`: the registers in a run
* `LinkRun.phase_of_heard`, `LinkRun.phase_of_seen`: what the two sides find
* `LinkRun.behaves`: with clocks that keep pace, the stages of the exchange
-/

namespace JCore

variable {α β : Type*}

/-- What is under way: nothing, or a request before and behind the latch, or its service. -/
inductive Phase where
  | settled | asking | asked | serving
  deriving DecidableEq, Repr

def Phase.next (rises falls server request seen complete : Bool) : Phase → Phase
  | settled => if rises && request then asking else settled
  | asking => if falls then asked else asking
  | asked => if server && seen then (if complete then settled else serving) else asked
  | serving => if server && complete then settled else serving

/-- A service starts with a request that the server finds, unless it answers at once. -/
theorem Phase.next_eq_serving {phase : Phase} {rises falls server request seen complete : Bool}
    (h : phase.next rises falls server request seen complete = .serving) :
    phase = .serving ∧ (server && complete) = false ∨ phase = .asked ∧ (server && seen) = true := by
  cases phase <;> simp only [Phase.next] at h <;> split_ifs at h <;> simp_all

/-- What is under way at a stage of the exchange. -/
def Stage.phase : Stage → Phase
  | idle | answering0 | answering1 | answering2 => .settled
  | asked => .asking
  | crossing0 | crossing1 | crossing2 => .asked
  | serving => .serving

/-- The stages go through the phases, if the client does not ask while an answer crosses. -/
theorem Stage.phase_next {rises falls server request complete : Bool} {st : Stage}
    (waits : st = .answering0 ∨ st = .answering1 → rises = true → request = false) :
    (st.next rises falls server request complete).phase =
      st.phase.next rises falls server request (st == .crossing2) complete := by
  cases st <;> simp only [next, phase, Phase.next] <;> split_ifs <;> simp_all

namespace Link

/-- The client has found every answer. -/
def Quiet (s : Link α β) : Prop :=
  s.answerMeta = false ∧ s.answerStable = false ∧ s.answerPrev = false

/-- The registers in a phase. -/
def Crosses (s : Link α β) : Phase → Prop
  | .settled =>
    s.asked = s.answered ∧ s.half = s.answered ∧
      (s.answerMeta = true → s.answerPrev = true → s.answerStable = true) ∧
      (s.answerMeta = false → s.answerStable = true ∨ s.answerPrev = true → s.dataMeta = s.data) ∧
      (s.answerStable = false → s.answerPrev = true → s.dataStable = s.data) ∧
      (s.requestPrev = true → s.requestStable = true) ∧
      (s.requestStable = true → s.requestMeta = true)
  | .asking =>
    s.high = true ∧ s.asked = !s.answered ∧ s.half = s.answered ∧ s.Quiet ∧
      (s.requestPrev = true → s.requestStable = true) ∧
      (s.requestStable = true → s.requestMeta = true)
  | .asked =>
    s.asked = !s.answered ∧ s.half = !s.answered ∧
      (s.answerPrev = true → s.answerStable = true) ∧
      (s.answerStable = true → s.answerMeta = true) ∧
      (s.requestMeta = true → s.requestPrev = true → s.requestStable = true) ∧
      (s.requestMeta = false → s.requestStable = true ∨ s.requestPrev = true →
        s.payloadMeta = s.payload) ∧
      (s.requestStable = false → s.requestPrev = true → s.payloadStable = s.payload)
  | .serving =>
    s.asked = !s.answered ∧ s.half = !s.answered ∧
      (s.answerPrev = true → s.answerStable = true) ∧
      (s.answerStable = true → s.answerMeta = true) ∧
      s.requestMeta = false ∧ s.requestStable = false ∧ s.requestPrev = false ∧
      s.payloadMeta = s.payload ∧ s.payloadStable = s.payload

end Link

namespace LinkRun

variable (run : LinkRun α β)

/-- The phase before instant `t`. -/
def phase : ℕ → Phase
  | 0 => .settled
  | t + 1 =>
    (phase t).next (run.rises t) (run.falls t) (run.clk t).server (run.clk t).request.isSome
      (Link.seen (run.state t)) (run.clk t).complete

/-- The client asks when it finds the answer to its last request or has found it, and the
server answers, and changes its data, only when it finds a request or has found it. -/
structure Orderly (t : ℕ) : Prop where
  ask : run.rises t = true → (run.clk t).request ≠ none →
    run.phase t = .settled ∧ ((run.state t).Quiet ∨ Link.heard (run.state t) = true)
  serve : run.phase t ≠ .serving → (run.clk t).server = true →
    Link.seen (run.state t) = true ∨ (run.clk t).complete = false ∧ (run.clk t).data = none

variable {run} {t : ℕ}

theorem phase_succ (t : ℕ) : run.phase (t + 1) = (run.phase t).next (run.rises t) (run.falls t)
    (run.clk t).server (run.clk t).request.isSome (Link.seen (run.state t)) (run.clk t).complete :=
  rfl

theorem crosses_zero : (run.state 0).Crosses (run.phase 0) := by
  simp [phase, Link.Crosses, state, start]

/-- When the client asks its samples show no answer behind the one that it finds. -/
theorem sampled_of_ask (orderly : run.Orderly t) (h : (run.state t).Crosses (run.phase t))
    (rises : run.rises t = true) (asks : (run.clk t).request ≠ none) :
    run.phase t = .settled ∧ (run.state t).answerMeta = false ∧
      (run.state t).answerStable = false := by
  obtain ⟨settled, found⟩ := orderly.ask rises asks
  refine ⟨settled, ?_⟩
  rw [settled] at h
  rcases found with ⟨first, second, -⟩ | heard
  · exact ⟨first, second⟩
  · rw [Link.heard, Bool.and_eq_true, Bool.not_eq_true'] at heard
    refine ⟨Bool.eq_false_of_not_eq_true fun first => ?_, heard.1⟩
    rw [h.2.2.1 first heard.2] at heard
    exact Bool.noConfusion heard.1

/-- The server does nothing without a request that it finds. -/
theorem rests_of_quiet (orderly : run.Orderly t) (serving : run.phase t ≠ .serving)
    (quiet : (run.state t).requestPrev = true → (run.state t).requestStable = true)
    (server : (run.clk t).server = true) :
    (run.clk t).complete = false ∧ (run.clk t).data = none := by
  refine (orderly.serve serving server).resolve_left fun seen => ?_
  rw [Link.seen, Bool.and_eq_true, Bool.not_eq_true'] at seen
  rw [quiet seen.2] at seen
  exact Bool.noConfusion seen.1

theorem crosses_succ (orderly : run.Orderly t) (h : (run.state t).Crosses (run.phase t)) :
    (run.state (t + 1)).Crosses (run.phase (t + 1)) := by
  have ask := sampled_of_ask orderly h
  have rests := rests_of_quiet orderly
  have serve := orderly.serve
  rw [phase_succ]
  -- one case for each phase, in which the two synchronisers say what is seen next
  cases hphase : run.phase t with
  | settled =>
    rw [hphase] at h rests ask
    clear serve
    have rests := rests (by simp) h.2.2.2.2.2.1
    simp only [Phase.next]
    split_ifs <;>
    · simp only [Link.Crosses, Link.Quiet, state_succ, Link.step, rises, Link.rises,
        Link.falls] at *
      grind
  | asking =>
    rw [hphase] at h rests ask
    clear serve
    have rests := rests (by simp) h.2.2.2.2.1
    simp only [Phase.next]
    split_ifs <;>
    · simp only [Link.Crosses, Link.Quiet, state_succ, Link.step, rises, falls, Link.rises,
        Link.falls] at *
      grind
  | asked =>
    rw [hphase] at h serve ask
    clear rests
    simp only [Phase.next]
    split_ifs <;>
    · simp only [Link.Crosses, Link.seen, state_succ, Link.step, rises, Link.rises,
        Link.falls] at *
      grind
  | serving =>
    rw [hphase] at h ask
    clear rests serve
    simp only [Phase.next]
    split_ifs <;>
    · simp only [Link.Crosses, state_succ, Link.step, rises, Link.rises, Link.falls] at *
      grind

/-- An answer that the client finds is there, with its data. -/
theorem phase_of_heard (h : (run.state t).Crosses (run.phase t))
    (heard : Link.heard (run.state t) = true) :
    run.phase t = .settled ∧ (run.state t).dataStable = (run.state t).data := by
  rw [Link.heard, Bool.and_eq_true, Bool.not_eq_true'] at heard
  cases hphase : run.phase t <;> rw [hphase] at h <;>
    simp only [Link.Crosses, Link.Quiet] at h <;> grind

/-- A request that the server finds is there, with its payload. -/
theorem phase_of_seen (h : (run.state t).Crosses (run.phase t))
    (seen : Link.seen (run.state t) = true) :
    run.phase t = .asked ∧ (run.state t).payloadStable = (run.state t).payload ∧
      (run.state t).payloadMeta = (run.state t).payload := by
  rw [Link.seen, Bool.and_eq_true, Bool.not_eq_true'] at seen
  cases hphase : run.phase t <;> rw [hphase] at h <;>
    simp only [Link.Crosses, Link.Quiet] at h <;> grind

theorem quiet_succ (h : (run.state t).Crosses (run.phase t)) (settled : run.phase t = .settled)
    (quiet : (run.state t).Quiet) : (run.state (t + 1)).Quiet := by
  rw [settled] at h
  simp only [Link.Crosses, Link.Quiet, state_succ, Link.step] at *
  grind

theorem quiet_of_heard (h : (run.state t).Crosses (run.phase t)) (rises : run.rises t = true)
    (heard : Link.heard (run.state t) = true) : (run.state (t + 1)).Quiet := by
  rw [(phase_of_heard h heard).1] at h
  simp only [Link.Crosses, Link.Quiet, Link.heard, state_succ, Link.step,
    LinkRun.rises] at *
  grind

/-- The registers, if both sides keep to the order and something else besides that they
keep it by. -/
theorem crosses_of_invariant {invariant : ℕ → Prop} (init : invariant 0)
    (keep : ∀ t, invariant t → (run.state t).Crosses (run.phase t) →
      run.Orderly t ∧ invariant (t + 1)) (t : ℕ) :
    (run.state t).Crosses (run.phase t) ∧ invariant t := by
  induction t with
  | zero => exact ⟨crosses_zero, init⟩
  | succ t ih =>
    obtain ⟨orderly, next⟩ := keep t ih.2 ih.1
    exact ⟨crosses_succ orderly ih.1, next⟩

/-! ### Clocks that keep pace -/

/-- Sides that keep to the order behave as the stages want them to. -/
theorem behaves_of_orderly (paced : run.Paced) (orderly : run.Orderly t)
    (holds : run.Holds t (run.stage t)) (phase : run.phase t = (run.stage t).phase) :
    run.Behaves t (run.stage t) where
  ask idle answering rises := by
    by_contra asks
    obtain ⟨settled, ⟨first, second, -⟩ | heard⟩ := orderly.ask rises asks
    · rw [phase] at settled
      have low := paced.low t rises
      cases stage : run.stage t with
      | answering0 =>
        rw [stage] at holds
        obtain ⟨-, -, -, -, -, sampled | ⟨-, edges⟩⟩ := holds
        · rw [first] at sampled
          exact Bool.false_ne_true sampled
        · omega
      | answering1 =>
        rw [stage] at holds
        obtain ⟨-, -, -, -, -, sampled, -⟩ := holds
        rw [second] at sampled
        exact Bool.false_ne_true sampled
      | idle => exact idle stage
      | answering2 => exact answering stage
      | _ =>
        rw [stage] at settled
        cases settled
    · rw [heard_of_holds holds] at heard
      exact answering (beq_iff_eq.mp heard)
  serve crossing serving server := by
    have other : run.phase t ≠ .serving := by
      rw [phase]
      cases stage : run.stage t <;> simp_all [Stage.phase]
    refine (orderly.serve other server).resolve_left fun seen => ?_
    rw [seen_of_holds holds] at seen
    exact crossing (beq_iff_eq.mp seen)

/-- With clocks that keep pace the phases are those of the stages. -/
theorem behaves (paced : run.Paced) (orderly : ∀ t, run.Orderly t) (t : ℕ) :
    run.Behaves t (run.stage t) ∧ run.phase t = (run.stage t).phase := by
  have keep : ∀ t, run.phase t = (run.stage t).phase → run.Holds t (run.stage t) →
      run.Behaves t (run.stage t) ∧ run.phase (t + 1) = (run.stage (t + 1)).phase := by
    intro t phase holds
    have behaves := behaves_of_orderly paced (orderly t) holds phase
    refine ⟨behaves, ?_⟩
    rw [phase_succ, phase, seen_of_holds holds, stage_succ, Stage.phase_next]
    intro answering rises
    have none : (run.clk t).request = none := by
      refine behaves.ask ?_ ?_ rises
      · rcases answering with answering | answering <;> simp [answering]
      · rcases answering with answering | answering <;> simp [answering]
    rw [none]
    rfl
  refine behaves_of_invariant paced ?_ keep t
  rfl

end LinkRun

end JCore
