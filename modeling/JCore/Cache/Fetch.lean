import JCore.Cache.Icache
import JCore.Lib.Crossing

/-!
# The fetches of the instruction cache

What the two controllers of the instruction cache keep whatever their clocks do: the
request that the memory side serves is the one that the CPU side waits for, and it is for
the fetch that the CPU keeps up until it is acknowledged.

## Main definitions

* `IcacheRun.acked`, `IcacheRun.Held`: the fetches of the CPU
* `IcacheRun.Steady`: what the controllers keep between them
* `IcacheRun.Waits`: the request for a fetch

## Main results

* `IcacheRun.steady`: it holds throughout, and with it the phases of the handshake
* `IcacheRun.exchanges`, `IcacheRun.arrives`: what the handshake gives with clocks that keep pace
* `IcacheRun.waits`: it holds if the CPU keeps its fetches up
-/

namespace JCore

/-- The CPU waits for what was asked for. In the last state of a miss it has it. -/
def IcacheState.waiting : IcacheState → Bool
  | .miss1 | .miss2 | .off1 | .off2 => true
  | .idle | .miss3 => false

namespace IcacheRun

section Definitions

variable (run : IcacheRun) (t : ℕ)

def ccl : IcacheCclReg := (run.state t).ccl

def mcl : IcacheMclReg := (run.state t).mcl

/-- The inputs of the two sides. -/
def cclI : IcacheCclI := Icache.cclI (run.state t) (run.clk t)

def mclI : IcacheMclI := Icache.mclI (run.state t) (run.clk t)

/-- The request on its way. -/
def payload : BitVec 29 := (run.state t).thisbc.dValue

def phase : Phase := run.link.phase t

/-- The answer to the CPU. -/
def y : IcacheO := IcacheCcl.y (run.ccl t) (run.cclI t)

/-- A fetch is acknowledged. -/
def acked : Bool := run.rises125 t && (run.clk t).a.en && (run.y t).ack

/-- The fetch that has not been acknowledged yet. -/
def pending : ℕ → Option IcacheI
  | 0 => none
  | t + 1 =>
    if run.rises125 t then
      if (run.clk t).a.en && !(run.y t).ack then some (run.clk t).a else none
    else pending t

/-- The CPU keeps a fetch up until it is acknowledged. -/
def Held : Prop := ∀ t, run.rises125 t = true → ∀ a ∈ run.pending t, (run.clk t).a = a

/-- What the controllers keep between them. With the CPU side idle nothing is under way, and
the memory side serves while the handshake does. -/
structure Steady : Prop where
  switched : IcacheCcl.Switched (run.ccl t)
  free : (run.ccl t).state = .idle → run.phase t = .settled ∧ (run.link.state t).Quiet
  early : (run.ccl t).state = .miss1 ∨ (run.ccl t).state = .off1 → (run.ccl t).rfillv = false
  rests : run.phase t ≠ .serving → IcacheMcl.Rests (run.mcl t) ∧ (run.mcl t).ryEn1 = false
  serves : run.phase t = .serving → IcacheMcl.Serves (run.mcl t) ((run.payload t).getLsbD 28)

/-- The request is for the fetch that the CPU waits for. While a line is filled the CPU may
have its half word and fetch others. -/
structure Waits : Prop where
  pending : ∀ a ∈ run.pending t, a.en = true ∧ (run.ccl t).aenDel1 = true ∧ (run.ccl t).aPrev = a
  waits : (run.ccl t).state.waiting = true → run.pending t = some (run.ccl t).aPrev
  missed : (run.ccl t).state = .miss1 ∨ (run.ccl t).state = .miss2 →
    (run.ccl t).ma0 = (run.ccl t).aPrev.a
  payload : (run.ccl t).state ≠ .idle → run.payload t =
    BitVec.ofBool (run.ccl t).icOnm ++
      (if (run.ccl t).icOnm then (run.ccl t).ma0 else (run.ccl t).aPrev.a).extractLsb 27 1 ++
      BitVec.ofBool (!(run.ccl t).mvbank)

end Definitions

variable {run : IcacheRun} {t : ℕ}

/-! ### One instant -/

theorem ccl_step (t : ℕ) : run.ccl (t + 1) =
    if run.rises125 t then IcacheCcl.step (run.ccl t) (run.cclI t) else run.ccl t := rfl

theorem mcl_step (t : ℕ) : run.mcl (t + 1) =
    if run.rises200 t then IcacheMcl.step (run.mcl t) (run.mclI t) else run.mcl t := rfl

theorem ccl_of_not_rises (h : run.rises125 t = false) : run.ccl (t + 1) = run.ccl t := by
  rw [ccl_step, h]
  rfl

theorem ccl_of_rises (h : run.rises125 t = true) :
    run.ccl (t + 1) = IcacheCcl.step (run.ccl t) (run.cclI t) := by
  rw [ccl_step, h]
  rfl

theorem mcl_of_not_rises (h : run.rises200 t = false) : run.mcl (t + 1) = run.mcl t := by
  rw [mcl_step, h]
  rfl

theorem mcl_of_rises (h : run.rises200 t = true) :
    run.mcl (t + 1) = IcacheMcl.step (run.mcl t) (run.mclI t) := by
  rw [mcl_step, h]
  rfl

theorem payload_succ (t : ℕ) : run.payload (t + 1) =
    if run.rises125 t && IcacheCcl.fillv (run.ccl t) (run.cclI t) then
      IcacheCcl.filla (run.ccl t) (run.cclI t)
    else run.payload t := by
  change (Icache.step (run.state t) (run.clk t)).thisbc.dValue = _
  rw [Icache.step]
  cases h : Icache.rises125 (run.state t) (run.clk t) with
  | false => simp [rises125, h, payload]
  | true =>
    simp only [rises125, h, if_true, Bool.true_and]
    rfl

theorem phase_step (t : ℕ) : run.phase (t + 1) = (run.phase t).next (run.rises125 t)
    (run.link.falls t) (run.rises200 t) (IcacheCcl.fillv (run.ccl t) (run.cclI t))
    (IcacheMcl.seen (run.mcl t) (run.mclI t)) (IcacheMcl.mtoc (run.mcl t)).rfillv := by
  have request : (run.link.clk t).request.isSome = IcacheCcl.fillv (run.ccl t) (run.cclI t) := by
    change Option.isSome (if IcacheCcl.fillv (run.ccl t) (run.cclI t) then _ else _) = _
    cases IcacheCcl.fillv (run.ccl t) (run.cclI t) <;> rfl
  rw [phase, LinkRun.phase_succ, rises_link, seen_link, request]
  rfl

/-! ### What the controllers keep -/

theorem steady_zero : run.Steady 0 where
  switched := .inl rfl
  free _ := ⟨rfl, rfl, rfl, rfl⟩
  early h := by rcases h with h | h <;> cases h
  rests _ := ⟨IcacheMcl.rests_reset, rfl⟩
  serves h := by cases h

theorem orderly_of_steady (steady : run.Steady t) : run.link.Orderly t where
  ask _ asks := by
    have en : IcacheCcl.fillv (run.ccl t) (run.cclI t) = true := by
      by_contra off
      exact asks (if_neg off)
    obtain ⟨settled, quiet⟩ := steady.free (IcacheCcl.idle_of_fillv en)
    exact ⟨settled, .inl quiet⟩
  serve serving _ := by
    obtain ⟨rfillv, advance⟩ := IcacheMcl.mtoc_of_rests (steady.rests serving).1
    exact .inr ⟨rfillv, if_neg (by rw [Icache.mtoc1]; exact Bool.eq_false_iff.mp advance)⟩

/-- A request goes out from idle, with nothing under way. -/
theorem not_fillv (steady : run.Steady t) (h : run.phase t ≠ .settled) :
    IcacheCcl.fillv (run.ccl t) (run.cclI t) = false := by
  by_contra on
  rw [Bool.not_eq_false] at on
  exact h (steady.free (IcacheCcl.idle_of_fillv on)).1

theorem payload_keep (steady : run.Steady t) (h : run.phase t ≠ .settled) :
    run.payload (t + 1) = run.payload t := by
  rw [payload_succ, not_fillv steady h, Bool.and_false]
  rfl

/-- What the memory side finds is the request. -/
theorem asked_of_seen (crosses : (run.link.state t).Crosses (run.phase t))
    (h : IcacheMcl.seen (run.mcl t) (run.mclI t) = true) :
    run.phase t = .asked ∧ (run.mclI t).ctom.filla = run.payload t := by
  obtain ⟨asked, stable, -⟩ := LinkRun.phase_of_seen crosses ((seen_link t).trans h)
  rw [state_link] at stable
  exact ⟨asked, stable⟩

/-- What the CPU side finds is the answer. -/
theorem settled_of_heard (crosses : (run.link.state t).Crosses (run.phase t))
    (h : IcacheCcl.yAckOff (run.ccl t) (run.cclI t) = true) :
    run.phase t = .settled ∧ (run.state t).thisbc.dStable = (run.state t).thisbm.dValue := by
  obtain ⟨settled, stable⟩ := LinkRun.phase_of_heard crosses ((heard_link t).trans h)
  rw [state_link] at stable
  exact ⟨settled, stable⟩

/-- While a request is served its lines show it. -/
theorem lines_of_serving (crosses : (run.link.state t).Crosses (run.phase t))
    (serving : run.phase t = .serving) : (run.mclI t).ctom.fillv = false ∧
      (run.mclI t).ctom.filla = run.payload t := by
  rw [serving, state_link] at crosses
  obtain ⟨-, -, -, -, -, fillv, -, -, filla⟩ := crosses
  exact ⟨fillv, filla⟩

/-- With the CPU side idle again its request is over. -/
theorem free_step (steady : run.Steady t) (crosses : (run.link.state t).Crosses (run.phase t))
    (free : (run.ccl (t + 1)).state = .idle) :
    run.phase (t + 1) = .settled ∧ (run.link.state (t + 1)).Quiet := by
  rw [phase_step]
  cases rises : run.rises125 t with
  | false =>
    rw [ccl_of_not_rises rises] at free
    obtain ⟨settled, quiet⟩ := steady.free free
    rw [settled]
    exact ⟨rfl, LinkRun.quiet_succ crosses settled quiet⟩
  | true =>
    rw [ccl_of_rises rises] at free
    have none : IcacheCcl.fillv (run.ccl t) (run.cclI t) = false := by
      by_contra on
      exact IcacheCcl.nextState_ne_idle (Bool.not_eq_false _ ▸ on) free
    rw [none]
    rcases IcacheCcl.nextState_eq_idle steady.switched free with idle | heard
    · obtain ⟨settled, quiet⟩ := steady.free idle
      rw [settled]
      exact ⟨rfl, LinkRun.quiet_succ crosses settled quiet⟩
    · rw [(settled_of_heard crosses heard).1]
      refine ⟨rfl, LinkRun.quiet_of_heard crosses ?_ ((heard_link t).trans heard)⟩
      rw [rises_link, rises]

/-- The memory side serves while the handshake does. -/
theorem mcl_steady (steady : run.Steady t) (crosses : (run.link.state t).Crosses (run.phase t))
    (h : run.rises200 t = true) :
    if run.phase (t + 1) = .serving then
      IcacheMcl.Serves (run.mcl (t + 1)) ((run.payload (t + 1)).getLsbD 28)
    else IcacheMcl.Rests (run.mcl (t + 1)) ∧ (run.mcl (t + 1)).ryEn1 = false := by
  rw [phase_step, h, mcl_of_rises h]
  -- a request that is served goes on or is completed
  by_cases serving : run.phase t = .serving
  · obtain ⟨fillv, filla⟩ := lines_of_serving crosses serving
    have serves := steady.serves serving
    have step := IcacheMcl.serves_step serves fillv (congrArg (·.getLsbD 28) filla)
    rw [serving, payload_keep steady (by rw [serving]; simp)]
    cases done : (IcacheMcl.mtoc (run.mcl t)).rfillv with
    | false =>
      rw [done] at step
      exact step
    | true =>
      rw [done] at step
      refine ⟨step, ?_⟩
      simp [IcacheMcl.step, IcacheMcl.men_of_complete serves done]
  -- else nothing is done until a request is seen
  · have rests := steady.rests serving
    have step := IcacheMcl.rests_step (i := run.mclI t) rests.1
    cases seen : IcacheMcl.seen (run.mcl t) (run.mclI t) with
    | false =>
      rw [seen] at step
      rw [if_neg]
      · refine ⟨step, ?_⟩
        simp [IcacheMcl.step, rests.1.men]
      · intro next
        rcases Phase.next_eq_serving next with ⟨on, -⟩ | ⟨-, on⟩
        · exact serving on
        · exact Bool.false_ne_true on
    | true =>
      obtain ⟨asked, filla⟩ := asked_of_seen crosses seen
      rw [seen, if_pos rfl, filla] at step
      rw [asked, (IcacheMcl.mtoc_of_rests rests.1).1, payload_keep steady (by rw [asked]; simp)]
      exact step

theorem steady_succ (steady : run.Steady t) (crosses : (run.link.state t).Crosses (run.phase t)) :
    run.Steady (t + 1) := by
  -- between its edges the memory side stays
  have mcl : if run.phase (t + 1) = .serving then
      IcacheMcl.Serves (run.mcl (t + 1)) ((run.payload (t + 1)).getLsbD 28)
      else IcacheMcl.Rests (run.mcl (t + 1)) ∧ (run.mcl (t + 1)).ryEn1 = false := by
    cases h : run.rises200 t with
    | true => exact mcl_steady steady crosses h
    | false =>
      have serving : run.phase (t + 1) = .serving ↔ run.phase t = .serving := by
        rw [phase_step, h]
        cases run.phase t <;> simp [Phase.next] <;> split_ifs <;> simp
      rw [mcl_of_not_rises h]
      simp only [serving]
      split_ifs with on
      · rw [payload_keep steady (by rw [on]; simp)]
        exact steady.serves on
      · exact steady.rests on
  constructor
  · rw [ccl_step]
    split_ifs
    · exact IcacheCcl.switched_step steady.switched
    · exact steady.switched
  · exact free_step steady crosses
  · intro asks
    rw [ccl_step] at asks ⊢
    split_ifs at asks ⊢ with rises
    · have fillv : IcacheCcl.fillv (run.ccl t) (run.cclI t) = true := by
        rw [IcacheCcl.fillv, Bool.or_eq_true, beq_iff_eq, beq_iff_eq]
        exact asks
      have quiet := (steady.free (IcacheCcl.idle_of_fillv fillv)).2
      rw [state_link] at quiet
      exact quiet.2.1
    · exact steady.early asks
  · intro h
    rwa [if_neg h] at mcl
  · intro h
    rwa [if_pos h] at mcl

/-- The handshake and the controllers keep to the order throughout. -/
theorem steady (t : ℕ) : (run.link.state t).Crosses (run.phase t) ∧ run.Steady t :=
  LinkRun.crosses_of_invariant steady_zero
    (fun _ steady crosses => ⟨orderly_of_steady steady, steady_succ steady crosses⟩) t

/-! ### Clocks that keep pace -/

/-- The controllers behave as the handshake wants them to. -/
theorem behaves (paced : run.link.Paced) (t : ℕ) : run.link.Behaves t (run.link.stage t) :=
  (LinkRun.behaves paced (fun t => orderly_of_steady (steady t).2) t).1

/-- Every request and every completion of the instruction cache is found once and in
order. -/
theorem exchanges (paced : run.link.Paced) :
    Exchanges run.requested run.received run.lines run.completed run.heard := by
  have link := LinkRun.exchanges paced (behaves paced)
  rwa [requested_link, received_link, lines_link, completed_link, heard_link_eq] at link

theorem arrives (paced : run.link.Paced) (ticks : run.link.Ticks) :
    Arrives run.requested run.received ∧ Arrives run.completed run.heard := by
  have behaves := behaves paced
  rw [← requested_link, ← received_link, ← completed_link, ← heard_link_eq]
  exact ⟨LinkRun.arrives_received paced behaves ticks, LinkRun.arrives_heard paced behaves ticks⟩

/-! ### The request for a fetch -/

/-- The CPU side gets into the states that wait, and stays in them, with a fetch that it does
not acknowledge. -/
theorem unacked_of_waiting {this : IcacheCclReg} {i : IcacheCclI}
    (switched : IcacheCcl.Switched this)
    (early : this.state = .idle ∨ this.state = .miss1 ∨ this.state = .off1 → this.rfillv = false)
    (held : this.state.waiting = true → i.a.en = true)
    (next : (IcacheCcl.nextState this i).waiting = true) :
    i.a.en = true ∧ (IcacheCcl.y this i).ack = false := by
  cases state : this.state <;> cases onm : this.icOnm <;>
    simp only [IcacheCcl.Switched, state, onm, IcacheState.waiting, IcacheCcl.nextState,
      IcacheCcl.nextStateOn, IcacheCcl.nextStateOff, IcacheCcl.y, IcacheCcl.yAckBeforetI,
      IcacheCcl.yAckBeforetD, IcacheCcl.yAckOff] at * <;>
    grind [IcacheState.waiting]

theorem miss_of_nextState {this : IcacheCclReg} {i : IcacheCclI}
    (h : IcacheCcl.nextState this i = .miss2) : this.state = .miss1 ∨ this.state = .miss2 := by
  grind [IcacheCcl.nextState, IcacheCcl.nextStateOn, IcacheCcl.nextStateOff]

/-- The cache is not switched while a request is under way. -/
theorem icOnm_of_busy {this : IcacheCclReg} {i : IcacheCclI}
    (h : IcacheCcl.nextState this i ≠ .idle) : IcacheCcl.icOnm this i = this.icOnm := by
  rw [IcacheCcl.icOnm, if_neg]
  simp [h]

/-- A request is for the fetch of the CPU. -/
theorem fetch_of_fillv {this : IcacheCclReg} {i : IcacheCclI}
    (h : IcacheCcl.fillv this i = true) : i.a.en = true ∧
      IcacheCcl.nextState this i = if this.icOnm then .miss1 else .off1 := by
  grind [IcacheCcl.fillv, IcacheCcl.nextState, IcacheCcl.nextStateOn, IcacheCcl.nextStateOff]

theorem busy_of_nextState {this : IcacheCclReg} {i : IcacheCclI}
    (h : IcacheCcl.fillv this i = false) (next : IcacheCcl.nextState this i ≠ .idle) :
    this.state ≠ .idle := by
  grind [IcacheCcl.fillv, IcacheCcl.nextState, IcacheCcl.nextStateOn, IcacheCcl.nextStateOff]

theorem waiting_of_off {this : IcacheCclReg} (switched : IcacheCcl.Switched this)
    (off : this.icOnm = false) (busy : this.state ≠ .idle) : this.state.waiting = true := by
  grind [IcacheCcl.Switched, IcacheState.waiting]

theorem pending_of_rises (h : run.rises125 t = true) : run.pending (t + 1) =
    if (run.clk t).a.en && !(run.y t).ack then some (run.clk t).a else none := by
  rw [pending, h]
  rfl

theorem pending_of_not_rises (h : run.rises125 t = false) :
    run.pending (t + 1) = run.pending t := by
  rw [pending, h]
  rfl

/-- The fetch that is waited for is there. -/
theorem Waits.fetch (waits : run.Waits t) (held : run.Held) (rises : run.rises125 t = true)
    (h : (run.ccl t).state.waiting = true) :
    (run.clk t).a = (run.ccl t).aPrev ∧ (run.clk t).a.en = true := by
  have pending := waits.waits h
  have fetch := held t rises _ pending
  exact ⟨fetch, fetch ▸ (waits.pending _ pending).1⟩

theorem early_of_steady (steady : run.Steady t) (h : (run.ccl t).state = .idle ∨
    (run.ccl t).state = .miss1 ∨ (run.ccl t).state = .off1) : (run.ccl t).rfillv = false := by
  rcases h with idle | asks
  · have quiet := (steady.free idle).2
    rw [state_link] at quiet
    exact quiet.2.2
  · exact steady.early asks

/-- A fetch that a state waits for is not acknowledged when the state is entered. -/
theorem unacked (held : run.Held) (steady : run.Steady t) (waits : run.Waits t)
    (rises : run.rises125 t = true) (next : (run.ccl (t + 1)).state.waiting = true) :
    (run.clk t).a.en = true ∧ run.pending (t + 1) = some (run.clk t).a := by
  rw [ccl_of_rises rises] at next
  obtain ⟨en, ack⟩ := unacked_of_waiting (i := run.cclI t) steady.switched (early_of_steady steady)
    (fun h => (waits.fetch held rises h).2) next
  refine ⟨en, ?_⟩
  rw [pending_of_rises rises, show (run.clk t).a.en = true from en,
    show (run.y t).ack = false from ack]
  rfl

theorem missed_step (held : run.Held) (steady : run.Steady t) (waits : run.Waits t)
    (rises : run.rises125 t = true)
    (next : (run.ccl (t + 1)).state = .miss1 ∨ (run.ccl (t + 1)).state = .miss2) :
    (run.ccl (t + 1)).ma0 = (run.ccl (t + 1)).aPrev.a := by
  have waiting : (run.ccl (t + 1)).state.waiting = true := by
    rcases next with next | next <;> rw [next] <;> rfl
  have en := (unacked held steady waits rises waiting).1
  rw [ccl_of_rises rises] at next ⊢
  have aPrev : (IcacheCcl.step (run.ccl t) (run.cclI t)).aPrev = (run.clk t).a := if_pos en
  rw [aPrev]
  rcases next with next | next
  · exact if_pos next
  · have missed := miss_of_nextState next
    have waiting : (run.ccl t).state.waiting = true := by
      rcases missed with missed | missed <;> rw [missed] <;> rfl
    rw [(waits.fetch held rises waiting).1, ← waits.missed missed]
    refine if_neg fun miss1 => ?_
    rw [show IcacheCcl.nextState _ _ = _ from next] at miss1
    cases miss1

/-- A request carries the address that is missed, or fetched without the cache. -/
theorem payload_step (held : run.Held) (steady : run.Steady t) (waits : run.Waits t)
    (rises : run.rises125 t = true) (next : (run.ccl (t + 1)).state ≠ .idle) :
    run.payload (t + 1) = BitVec.ofBool (run.ccl (t + 1)).icOnm ++
      (if (run.ccl (t + 1)).icOnm then (run.ccl (t + 1)).ma0
        else (run.ccl (t + 1)).aPrev.a).extractLsb 27 1 ++
      BitVec.ofBool (!(run.ccl (t + 1)).mvbank) := by
  rw [payload_succ, rises, Bool.true_and]
  rw [ccl_of_rises rises] at next ⊢
  have onm : (IcacheCcl.step (run.ccl t) (run.cclI t)).icOnm = (run.ccl t).icOnm :=
    icOnm_of_busy next
  rw [onm]
  -- a request goes out with the address of the fetch and the bank that is turned with it
  cases fillv : IcacheCcl.fillv (run.ccl t) (run.cclI t) with
  | true =>
    obtain ⟨en, state⟩ := fetch_of_fillv fillv
    have address : (if (run.ccl t).icOnm then (IcacheCcl.step (run.ccl t) (run.cclI t)).ma0
        else (IcacheCcl.step (run.ccl t) (run.cclI t)).aPrev.a) = (run.cclI t).a.a := by
      cases on : (run.ccl t).icOnm with
      | true =>
        have miss1 : IcacheCcl.nextState (run.ccl t) (run.cclI t) = .miss1 := by
          rw [state, on]
          rfl
        have ma0 : (IcacheCcl.step (run.ccl t) (run.cclI t)).ma0 = (run.cclI t).a.a := if_pos miss1
        exact ma0
      | false => exact congrArg IcacheI.a (if_pos en)
    have mvbank : (IcacheCcl.step (run.ccl t) (run.cclI t)).mvbank = !(run.ccl t).mvbank :=
      if_pos fillv
    rw [if_pos rfl, IcacheCcl.filla, if_pos fillv, address, mvbank, Bool.not_not]
  | false =>
    -- without a request the fetch that waits is still held
    have busy : (run.ccl t).state ≠ .idle := busy_of_nextState fillv next
    have address : (if (run.ccl t).icOnm then (IcacheCcl.step (run.ccl t) (run.cclI t)).ma0
        else (IcacheCcl.step (run.ccl t) (run.cclI t)).aPrev.a) =
        if (run.ccl t).icOnm then (run.ccl t).ma0 else (run.ccl t).aPrev.a := by
      cases on : (run.ccl t).icOnm with
      | true =>
        have ma0 : (IcacheCcl.step (run.ccl t) (run.cclI t)).ma0 = (run.ccl t).ma0 := by
          refine if_neg fun miss1 => ?_
          rw [IcacheCcl.fillv, miss1] at fillv
          cases fillv
        exact ma0
      | false =>
        have waiting := waiting_of_off steady.switched on busy
        have keep : (IcacheCcl.step (run.ccl t) (run.cclI t)).aPrev = (run.ccl t).aPrev := by
          obtain ⟨fetch, en⟩ := waits.fetch held rises waiting
          rw [← fetch]
          exact if_pos en
        exact congrArg IcacheI.a keep
    have mvbank : (IcacheCcl.step (run.ccl t) (run.cclI t)).mvbank = (run.ccl t).mvbank :=
      if_neg (Bool.eq_false_iff.mp fillv)
    rw [if_neg Bool.false_ne_true, address, mvbank]
    exact waits.payload busy

theorem waits_zero : run.Waits 0 where
  pending a h := by cases h
  waits h := by cases h
  missed h := by rcases h with h | h <;> cases h
  payload h := absurd rfl h

theorem waits_succ (held : run.Held) (steady : run.Steady t) (waits : run.Waits t) :
    run.Waits (t + 1) := by
  cases rises : run.rises125 t with
  | false =>
    have payload : run.payload (t + 1) = run.payload t := by
      rw [payload_succ, rises]
      rfl
    constructor
    · rw [pending_of_not_rises rises, ccl_of_not_rises rises]
      exact waits.pending
    · rw [pending_of_not_rises rises, ccl_of_not_rises rises]
      exact waits.waits
    · rw [ccl_of_not_rises rises]
      exact waits.missed
    · rw [payload, ccl_of_not_rises rises]
      exact waits.payload
  | true =>
    have unacked := unacked held steady waits rises
    constructor
    · intro a pending
      rw [pending_of_rises rises] at pending
      rw [ccl_of_rises rises]
      split_ifs at pending with h
      · cases pending
        rw [Bool.and_eq_true] at h
        exact ⟨h.1, h.1, if_pos h.1⟩
      · cases pending
    · intro next
      obtain ⟨en, pending⟩ := unacked next
      rw [pending, ccl_of_rises rises]
      exact congrArg some (if_pos en).symm
    · exact missed_step held steady waits rises
    · exact payload_step held steady waits rises

/-- The request is for the fetch that the CPU waits for, throughout. -/
theorem waits (held : run.Held) (t : ℕ) : run.Waits t := by
  induction t with
  | zero => exact waits_zero
  | succ t ih => exact waits_succ held (steady t).2 ih

end IcacheRun

end JCore
