import JCore.Cache.Commands
import JCore.Cache.Dcache
import JCore.Lib.Crossing

/-!
# The requests of the data cache

The CPU side makes one request at a time, the memory side completes what it has found. With
clocks that do not keep pace a request or a completion may be lost. What is found is in order
all the same: the memory side serves the request that the CPU side waits for, and its lines
show that request until it is completed. With clocks that keep pace each of them is carried
once.

## Main definitions

* `DcacheRun.phase`: how far the request has come
* `DcacheRun.Steady`: what the controllers keep between them
* `DcacheRun.ofAccesses`: the run of a list of accesses at both clocks

## Main results

* `DcacheRun.steady`: it holds throughout, and with it the phases of the handshake
* `DcacheRun.behaves`: the controllers behave as the handshake wants them to
* `DcacheRun.exchanges`, `DcacheRun.arrives`: what the handshake gives them
-/

namespace JCore

namespace DcacheRun

section Definitions

variable (run : DcacheRun) (t : ℕ)

def phase : Phase := run.link.phase t

/-- The port of the memory side. -/
noncomputable def port : MclRun.Port := run.mcl.port (run.mclTime t)

/-- What the controllers keep between them. With the CPU side idle nothing is under way, and
the memory side has a command open while the handshake serves it. -/
structure Steady : Prop where
  switched : DcacheCcl.Switched (run.state t).ccl
  free : (run.state t).ccl.state = .idle → run.phase t = .settled ∧ (run.link.state t).Quiet
  command : b0dCmd (run.state t).thisbc.d0v ≠ 0b101
  holds : run.mcl.Holds (run.mclTime t) (run.mcl.mode (run.mclTime t))
  opens : (run.port t).isOpen = (run.phase t == .serving)
  payload : (run.port t).isOpen = true → (run.port t).payload = (run.state t).thisbc.d0v
  cool : (run.port t).cool = true → (run.state t).thisbm.en0.stable = false ∧
    (run.state t).thisbm.d0bStable = (run.port t).payload

end Definitions

variable {run : DcacheRun} {t : ℕ}

theorem steady_zero : run.Steady 0 where
  switched := .inl rfl
  free _ := ⟨rfl, rfl, rfl, rfl⟩
  command := by
    change b0dCmd (0 : BitVec 65) ≠ 0b101
    decide
  holds := MclRun.holds_zero
  opens := rfl
  payload h := absurd h Bool.false_ne_true
  cool h := absurd h Bool.false_ne_true

/-! ### One instant -/

theorem phase_step (t : ℕ) : run.phase (t + 1) = (run.phase t).next (run.rises125 t)
    (run.link.falls t) (run.rises200 t) (run.link.clk t).request.isSome
    (Link.seen (run.link.state t)) (run.link.clk t).complete := by
  rw [phase, LinkRun.phase_succ, rises_link]
  rfl

/-- A request goes out with nothing under way. -/
theorem settled_of_request (steady : run.Steady t)
    (asks : (run.link.clk t).request ≠ none) : run.phase t = .settled ∧
      ((run.link.state t).Quiet ∨ Link.heard (run.link.state t) = true) ∨
        Link.heard (run.link.state t) = true := by
  have en : DcacheCcl.ctomB0en (run.state t).ccl (Dcache.cclI (run.state t) (run.clk t)) = true := by
    by_contra off
    exact asks (if_neg off)
  rcases DcacheCcl.ctomB0en_cases en with free | ⟨-, heard⟩
  · obtain ⟨settled, quiet⟩ := steady.free free
    exact .inl ⟨settled, .inl quiet⟩
  · exact .inr ((heard_link t).trans heard)

/-- At an edge of its clock the memory side is delivered a command as it wants. -/
theorem delivers (acknowledges : run.Acknowledges) (steady : run.Steady t)
    (crosses : (run.link.state t).Crosses (run.phase t)) (h : run.rises200 t = true) :
    run.mcl.Delivers (run.mclTime t) := by
  obtain ⟨ackR, asked⟩ := acknowledges t h
  constructor
  · rw [mcl_clk h]
    rintro (isOpen | cool)
    · have serving : run.phase t = .serving := by
        rw [← port, steady.opens] at isOpen
        exact beq_iff_eq.mp isOpen
      rw [serving, state_link] at crosses
      obtain ⟨-, -, -, -, -, stable, -, -, lines⟩ := crosses
      rw [← port, steady.payload isOpen]
      exact ⟨stable, lines⟩
    · exact steady.cool cool
  · intro b0d seen
    rw [seen_mcl h] at seen
    split_ifs at seen with found
    obtain ⟨-, lines, -⟩ := LinkRun.phase_of_seen crosses found
    rw [state_link] at lines
    have stable : (run.state t).thisbm.d0bStable = (run.state t).thisbc.d0v := lines
    rw [← Option.some.inj seen, stable]
    exact steady.command
  · rw [mcl_clk h]
    exact ackR
  · rw [mcl_clk h, state_mcl]
    exact asked

/-- The memory side answers only a request that it finds or has found. -/
theorem complete_of_unseen (acknowledges : run.Acknowledges) (steady : run.Steady t)
    (crosses : (run.link.state t).Crosses (run.phase t)) (serving : run.phase t ≠ .serving)
    (h : run.rises200 t = true) (unseen : Link.seen (run.link.state t) = false) :
    (run.link.clk t).complete = false ∧ (run.link.clk t).data = none := by
  have delivered := delivers acknowledges steady crosses h
  have closed : (run.mcl.mode (run.mclTime t)).opens = false := by
    rw [← MclRun.isOpen_of_holds steady.holds, ← port, steady.opens]
    simpa using serving
  have quiet : run.mcl.seen (run.mclTime t) = none := by
    rw [seen_mcl h, unseen]
    rfl
  constructor
  · by_contra completes
    rw [← completes_mcl h, Bool.not_eq_false] at completes
    exact MclRun.seen_of_completes delivered steady.holds closed completes quiet
  · by_contra taken
    have b0enrMcdata : (DcacheMcl.mtoc (run.mcl.state (run.mclTime t))
        (run.mcl.clk (run.mclTime t))).b0enrMcdata = true := by
      rw [state_mcl, mcl_clk h]
      by_contra off
      exact taken (if_neg off)
    exact MclRun.seen_of_b0enrMcdata delivered steady.holds closed b0enrMcdata quiet

theorem orderly_of_steady (acknowledges : run.Acknowledges) (steady : run.Steady t)
    (crosses : (run.link.state t).Crosses (run.phase t)) : run.link.Orderly t where
  ask _ asks := by
    rcases settled_of_request steady asks with settled | heard
    · exact settled
    · exact ⟨(LinkRun.phase_of_heard crosses heard).1, .inr heard⟩
  serve serving server := by
    cases seen : Link.seen (run.link.state t) with
    | true => exact .inl rfl
    | false => exact .inr (complete_of_unseen acknowledges steady crosses serving server seen)

/-- No request goes out within an exchange. -/
theorem request_of_busy (steady : run.Steady t)
    (crosses : (run.link.state t).Crosses (run.phase t)) (busy : run.phase t ≠ .settled) :
    (run.link.clk t).request = none := by
  by_contra asks
  rcases settled_of_request steady asks with ⟨settled, -⟩ | heard
  · exact busy settled
  · exact busy (LinkRun.phase_of_heard crosses heard).1

theorem d0v_step (t : ℕ) : (run.state (t + 1)).thisbc.d0v =
    if run.rises125 t then (run.link.clk t).request.getD (run.state t).thisbc.d0v
    else (run.state t).thisbc.d0v := by
  have payload : (run.link.state (t + 1)).payload =
      (Link.step (run.link.state t) (run.link.clk t)).payload :=
    congrArg Link.payload (LinkRun.state_succ t)
  rw [state_link, state_link] at payload
  exact payload

theorem d0v_keep (steady : run.Steady t) (crosses : (run.link.state t).Crosses (run.phase t))
    (busy : run.phase t ≠ .settled) :
    (run.state (t + 1)).thisbc.d0v = (run.state t).thisbc.d0v := by
  rw [d0v_step, request_of_busy steady crosses busy]
  split_ifs <;> rfl

/-! ### What the controllers keep -/

theorem free_step (steady : run.Steady t) (crosses : (run.link.state t).Crosses (run.phase t))
    (free : (run.state (t + 1)).ccl.state = .idle) :
    run.phase (t + 1) = .settled ∧ (run.link.state (t + 1)).Quiet := by
  rw [phase_step]
  rw [ccl_succ] at free
  cases rises : run.rises125 t with
  | false =>
    rw [rises] at free
    obtain ⟨settled, quiet⟩ := steady.free free
    rw [settled]
    exact ⟨rfl, LinkRun.quiet_succ crosses settled quiet⟩
  | true =>
    rw [rises, if_pos rfl] at free
    have none : (run.link.clk t).request = none := by
      by_contra asks
      have en : DcacheCcl.ctomB0en (run.state t).ccl (Dcache.cclI (run.state t) (run.clk t)) =
          true := by
        by_contra off
        exact asks (if_neg off)
      exact DcacheCcl.nextState_ne_idle en free
    rw [none]
    rcases DcacheCcl.nextState_eq_idle steady.switched free with idle | memTransAck
    · obtain ⟨settled, quiet⟩ := steady.free idle
      rw [settled]
      exact ⟨rfl, LinkRun.quiet_succ crosses settled quiet⟩
    · have heard := (heard_link t).trans memTransAck
      have settled : run.phase t = .settled := (LinkRun.phase_of_heard crosses heard).1
      rw [settled]
      exact ⟨rfl, LinkRun.quiet_of_heard crosses ((rises_link t).trans rises) heard⟩

theorem port_step (t : ℕ) : run.port (t + 1) =
    if run.rises200 t then run.mcl.port (run.mclTime t + 1) else run.port t := by
  rw [port, mclTime_succ]
  split_ifs <;> rfl

/-- The port of the memory side after an edge of its clock. -/
theorem port_of_rises (steady : run.Steady t) (crosses : (run.link.state t).Crosses (run.phase t))
    (h : run.rises200 t = true) : run.port (t + 1) =
      if Link.seen (run.link.state t) then
        { isOpen := !(run.link.clk t).complete, payload := (run.state t).thisbc.d0v
          cool := (run.link.clk t).complete }
      else
        { isOpen := run.phase t == .serving && !(run.link.clk t).complete
          payload := (run.port t).payload
          cool := run.phase t == .serving && (run.link.clk t).complete } := by
  rw [port_step, if_pos h, MclRun.port_succ, completes_mcl h, seen_mcl h]
  cases seen : Link.seen (run.link.state t) with
  | true =>
    obtain ⟨-, lines, -⟩ := LinkRun.phase_of_seen crosses seen
    rw [state_link] at lines
    have stable : (run.state t).thisbm.d0bStable = (run.state t).thisbc.d0v := lines
    simp [stable]
  | false =>
    rw [← port, steady.opens]
    rfl

theorem phase_of_rises (crosses : (run.link.state t).Crosses (run.phase t))
    (h : run.rises200 t = true) : (run.phase (t + 1) == .serving) =
      ((Link.seen (run.link.state t) || run.phase t == .serving) &&
        !(run.link.clk t).complete) := by
  rw [phase_step, h]
  cases seen : Link.seen (run.link.state t) with
  | true =>
    have asked : run.phase t = .asked := (LinkRun.phase_of_seen crosses seen).1
    rw [asked]
    cases (run.link.clk t).complete <;> rfl
  | false =>
    cases run.phase t with
    | settled => simp only [Phase.next]; split_ifs <;> rfl
    | asking => simp only [Phase.next]; split_ifs <;> rfl
    | asked => rfl
    | serving => cases (run.link.clk t).complete <;> rfl

theorem phase_of_not_rises (h : run.rises200 t = false) :
    (run.phase (t + 1) == .serving) = (run.phase t == .serving) := by
  rw [phase_step, h]
  cases run.phase t <;> simp only [Phase.next] <;> split_ifs <;> simp_all

theorem opens_step (steady : run.Steady t) (crosses : (run.link.state t).Crosses (run.phase t)) :
    (run.port (t + 1)).isOpen = (run.phase (t + 1) == .serving) := by
  cases h : run.rises200 t with
  | false =>
    rw [port_step, h, phase_of_not_rises h]
    exact steady.opens
  | true =>
    rw [port_of_rises steady crosses h, phase_of_rises crosses h]
    cases Link.seen (run.link.state t) <;> rfl

/-- The command on the lines is the one that is open. -/
theorem payload_step (steady : run.Steady t) (crosses : (run.link.state t).Crosses (run.phase t))
    (isOpen : (run.port (t + 1)).isOpen = true) :
    (run.port (t + 1)).payload = (run.state (t + 1)).thisbc.d0v := by
  cases h : run.rises200 t with
  | false =>
    rw [port_step, h] at isOpen ⊢
    have serving : run.phase t = .serving := by
      rw [if_neg (by simp), steady.opens] at isOpen
      exact beq_iff_eq.mp isOpen
    rw [d0v_keep steady crosses (by rw [serving]; simp)]
    exact steady.payload isOpen
  | true =>
    rw [port_of_rises steady crosses h] at isOpen ⊢
    cases seen : Link.seen (run.link.state t) with
    | true =>
      have asked := (LinkRun.phase_of_seen crosses seen).1
      have busy : run.phase t ≠ .settled := by
        rw [phase, asked]
        simp
      rw [d0v_keep steady crosses busy]
      rfl
    | false =>
      rw [seen] at isOpen
      have serving := (Bool.and_eq_true_iff.mp isOpen).1
      have busy : run.phase t ≠ .settled := by
        rw [beq_iff_eq.mp serving]
        simp
      rw [d0v_keep steady crosses busy]
      exact steady.payload (steady.opens.trans serving)

/-- The lines keep the command for one more clock. -/
theorem cool_step (steady : run.Steady t) (crosses : (run.link.state t).Crosses (run.phase t))
    (cool : (run.port (t + 1)).cool = true) :
    (run.state (t + 1)).thisbm.en0.stable = false ∧
      (run.state (t + 1)).thisbm.d0bStable = (run.port (t + 1)).payload := by
  rw [thisbm_succ]
  cases h : run.rises200 t with
  | false =>
    rw [port_step, h] at cool ⊢
    exact steady.cool cool
  | true =>
    rw [port_of_rises steady crosses h] at cool ⊢
    rw [if_pos rfl]
    cases seen : Link.seen (run.link.state t) with
    | true =>
      obtain ⟨asked, -, lines⟩ := LinkRun.phase_of_seen crosses seen
      rw [phase, asked, state_link] at crosses
      rw [Link.seen, Bool.and_eq_true, Bool.not_eq_true'] at seen
      rw [state_link] at lines seen
      obtain ⟨-, -, -, -, first, -⟩ := crosses
      refine ⟨Bool.eq_false_of_not_eq_true fun on => ?_, lines⟩
      have stable := first on seen.2
      rw [seen.1] at stable
      exact Bool.noConfusion stable
    | false =>
      rw [seen] at cool
      have serving := (Bool.and_eq_true_iff.mp cool).1
      rw [beq_iff_eq.mp serving, state_link] at crosses
      obtain ⟨-, -, -, -, first, -, -, lines, -⟩ := crosses
      exact ⟨first, lines.trans (steady.payload (steady.opens.trans serving)).symm⟩

theorem steady_succ (acknowledges : run.Acknowledges) (steady : run.Steady t)
    (crosses : (run.link.state t).Crosses (run.phase t)) : run.Steady (t + 1) where
  switched := by
    rw [ccl_succ]
    split_ifs
    · exact DcacheCcl.switched_step steady.switched
    · exact steady.switched
  free := free_step steady crosses
  command := by
    rw [thisbc_succ]
    split_ifs
    · rw [Dcache.thisbc]
      dsimp only
      split_ifs
      · exact b0dCmd_ctomB0d.symm ▸ ctomCmd_ne
      · exact steady.command
    · exact steady.command
  holds := by
    rw [mclTime_succ]
    cases h : run.rises200 t with
    | false => exact steady.holds
    | true =>
      exact MclRun.holds_succ (delivers acknowledges steady crosses h) steady.holds
  opens := opens_step steady crosses
  payload := payload_step steady crosses
  cool := cool_step steady crosses

/-- The handshake and the controllers keep to the order throughout. -/
theorem steady (acknowledges : run.Acknowledges) (t : ℕ) :
    (run.link.state t).Crosses (run.phase t) ∧ run.Steady t :=
  LinkRun.crosses_of_invariant steady_zero
    (fun _ steady crosses => ⟨orderly_of_steady acknowledges steady crosses,
      steady_succ acknowledges steady crosses⟩) t

/-! ### Clocks that keep pace -/

/-- The controllers behave as the handshake wants them to. -/
theorem behaves (paced : run.link.Paced) (acknowledges : run.Acknowledges) (t : ℕ) :
    run.link.Behaves t (run.link.stage t) := by
  have orderly : ∀ t, run.link.Orderly t := fun t =>
    orderly_of_steady acknowledges (steady acknowledges t).2 (steady acknowledges t).1
  exact (LinkRun.behaves paced orderly t).1

/-- Every request and every completion of the data cache is found once and in order. -/
theorem exchanges (paced : run.link.Paced) (acknowledges : run.Acknowledges) :
    Exchanges run.requested run.received run.lines run.completed run.heard := by
  have link := LinkRun.exchanges paced (behaves paced acknowledges)
  rwa [requested_link, received_link, lines_link, completed_link, heard_link_eq] at link

theorem arrives (paced : run.link.Paced) (acknowledges : run.Acknowledges)
    (ticks : run.link.Ticks) :
    Arrives run.requested run.received ∧ Arrives run.completed run.heard := by
  have behaves := behaves paced acknowledges
  rw [← requested_link, ← received_link, ← completed_link, ← heard_link_eq]
  exact ⟨LinkRun.arrives_received paced behaves ticks, LinkRun.arrives_heard paced behaves ticks⟩

/-! ### Runs at both clocks -/

def noAccess : CpuDataO := { en := false, a := 0, rd := false, wr := false, we := 0, d := 0 }

def readOf (a : BitVec 32) : CpuDataO :=
  { en := true, a := a, rd := true, wr := false, we := 0, d := 0 }

def writeTo (a : BitVec 32) : CpuDataO :=
  { en := true, a := a, rd := false, wr := true, we := 0xf, d := 0xbeef }

/-- A CPU whose accesses follow each other, at both clocks at every instant, with the
switch of the cache and the acknowledgement of the memory. -/
def ofAccesses (a : ℕ → CpuDataO) (on ack : ℕ → Bool) : DcacheRun where
  clk125 := false
  clk200 := false
  clk t :=
    { clk125 := true, clk200 := true, ra := { d0 := 0, tag0 := 0, tag1 := 0 }, a := a t
      lock := false, sa := { al := 0, en := false }, ctrl := { en := on t, inv := false }
      ma := { d := 0x1234, ack := ack t, ackR := ack t } }

theorem link_ofAccesses (a : ℕ → CpuDataO) (on ack : ℕ → Bool) :
    (ofAccesses a on ack).link.Paced ∧ (ofAccesses a on ack).link.Ticks :=
  paced_of_both rfl fun _ => ⟨rfl, rfl⟩

/-- The memory clock rises at every other instant. -/
theorem rises200_ofAccesses (a : ℕ → CpuDataO) (on ack : ℕ → Bool) (t : ℕ) :
    (ofAccesses a on ack).rises200 t = (t % 2 == 0) := by
  have level : ∀ t, ((ofAccesses a on ack).state t).clk200 = (t % 2 == 1) := by
    intro t
    induction t with
    | zero => rfl
    | succ t ih =>
      rw [state_succ, Dcache.step]
      change (((ofAccesses a on ack).state t).clk200 ^^ true) = _
      rw [ih]
      rcases Nat.mod_two_eq_zero_or_one t with h | h <;> simp [h, Nat.add_mod]
  change (true && !((ofAccesses a on ack).state t).clk200) = _
  rw [level]
  rcases Nat.mod_two_eq_zero_or_one t with h | h <;> simp [h]

theorem mclTime_ofAccesses (a : ℕ → CpuDataO) (on ack : ℕ → Bool) (n : ℕ) :
    (ofAccesses a on ack).mclTime (2 * n) = n := by
  induction n with
  | zero => rfl
  | succ n ih =>
    rw [show 2 * (n + 1) = 2 * n + 1 + 1 by omega, mclTime_succ, mclTime_succ,
      rises200_ofAccesses, rises200_ofAccesses, ih]
    simp [Nat.add_mod]

theorem acknowledges_ofAccesses {a : ℕ → CpuDataO} {on ack : ℕ → Bool} {n : ℕ}
    (late : ∀ t, n ≤ t → ack t = false)
    (asked : ∀ t < n, (ofAccesses a on ack).rises200 t = true → ack t = true →
      ((ofAccesses a on ack).state t).mcl.men = true) : (ofAccesses a on ack).Acknowledges := by
  intro t rises
  refine ⟨rfl, fun acked => ?_⟩
  rcases Nat.lt_or_ge t n with before | after
  · exact asked t before rises acked
  · have acked : ack t = true := acked
    rw [late t after] at acked
    cases acked

/-- A read that misses and stores that hit, one as soon as the other is completed. -/
def together : DcacheRun :=
  ofAccesses
    (fun t => if t < 4 then noAccess else if t < 40 then readOf 0x100
      else if t < 60 then writeTo 0x100 else if t < 80 then writeTo 0x104 else noAccess)
    (fun _ => true) (fun t => 14 ≤ t ∧ t ≤ 28 ∨ t = 56 ∨ t = 76 ∨ t = 96)

theorem acknowledges_together : together.Acknowledges := by
  refine acknowledges_ofAccesses (n := 97) (fun t late => ?_) (by decide +kernel)
  simp only [decide_eq_false_iff_not]
  omega

end DcacheRun

end JCore
