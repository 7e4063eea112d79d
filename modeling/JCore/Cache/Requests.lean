import JCore.Cache.Fetch
import JCore.Cache.Service

/-!
# Requests across the clocks

Both caches send their requests through the same handshake. With clocks that keep pace each
request and each completion is found once. Where one of them runs away from the other, or
the memory clock starts late, a level changes and changes back between two samples, and
what it stood for is lost: the cache waits for ever.

## Main results

* `requests_once`: the handshakes of both caches
* `requests_lost`: runs of the data cache with clocks that do not keep pace
-/

namespace JCore

namespace DcacheRun

/-! ### Clocks that do not keep pace -/

/-- A CPU that reads from a cache that is switched off, at the given edges of the CPU clock
and of the memory clock, with the acknowledgement of the memory; then at edges of both. -/
def ofEdges (edges : List (Bool × Bool × Bool)) : DcacheRun where
  clk125 := false
  clk200 := false
  clk t :=
    let (clk125, clk200, ack) := (edges[t]?).getD (true, true, false)
    { clk125 := clk125, clk200 := clk200, ra := { d0 := 0, tag0 := 0, tag1 := 0 }
      a := { en := true, a := 0x100, rd := true, wr := false, we := 0, d := 0 }, lock := false
      sa := { al := 0, en := false }, ctrl := { en := false, inv := false }
      ma := { d := 0xbeef, ack := ack, ackR := ack } }

/-- The CPU side waits for a completion, the memory side for a request, and all samples
agree with the levels. -/
structure Stuck (this : DcacheReg) (asked : Bool) : Prop where
  state : this.ccl.state = .off2
  dcOnm : this.ccl.dcOnm = false
  bc : this.thisbc.en0.metastable = asked ∧ this.thisbc.en0.stable = asked ∧
    this.ccl.rfillv = asked
  bm : this.thisbm.en0.metastable = !asked ∧ this.thisbm.en0.stable = !asked ∧
    this.mcl.fillvDel1 = !asked
  level : (this.thisbm.en0.value ^^ this.bcenValueHalfcb0) = asked
  half : this.bcenValueHalfcb0 = this.thisbc.en0.value
  statemcl : this.mcl.statemcl = .idle
  statemwi : this.mcl.statemwi = .idle
  sbblknxst : this.mcl.sbblknxst = false
  sbbufin : this.mcl.sbbufin = false
  rfillv : this.mcl.rfillv = false
  rfillvPre1 : this.mcl.rfillvPre1 = false

theorem stuck_step {this : DcacheReg} {i : DcacheI} {asked : Bool} (stuck : Stuck this asked)
    (en : i.ctrl.en = false) (ack : i.ma.ack = false) :
    (Dcache.ctom1 this i).b0en = false ∧ DcacheMcl.seen this.mcl (Dcache.mclI this i) = false ∧
      DcacheCcl.memTransAck this.ccl (Dcache.cclI this i) = false ∧
        Stuck (Dcache.step this i) asked := by
  obtain ⟨h1, h2, ⟨h3, h4, h5⟩, ⟨h6, h7, h8⟩, h9, h10, h11, h12, h13, h14, h15, h16⟩ := stuck
  -- nothing is seen, heard or taken over on either side
  have seen : DcacheMcl.seen this.mcl (Dcache.mclI this i) = false := by
    simp [DcacheMcl.seen, Dcache.mclI, Dcache.ctom2, h7, h8]
  have heard : DcacheCcl.memTransAck this.ccl (Dcache.cclI this i) = false := by
    simp [DcacheCcl.memTransAck, Dcache.cclI, Dcache.mtoc2, h4, h5]
  have taken : DcacheMcl.sboutEn1 this.mcl (Dcache.mclI this i) = false := by
    simp [DcacheMcl.sboutEn1, seen, h13]
  have b0enr : (Dcache.mtoc1 this i).b0enr = false := by
    simp [Dcache.mtoc1, DcacheMcl.mtoc, DcacheMcl.b0enr, taken, h12, h15]
  have next : DcacheCcl.nextState this.ccl (Dcache.cclI this i) = .off2 := by
    simp [DcacheCcl.nextState, DcacheCcl.nextStateOff, h1, h2, heard]
  have b0en : (Dcache.ctom1 this i).b0en = false := by
    simp [Dcache.ctom1, DcacheCcl.ctom, DcacheCcl.ctomB0en, next]
  have maAckG : DcacheMcl.maAckG this.mcl (Dcache.mclI this i) = false := by
    simp [DcacheMcl.maAckG, Dcache.mclI, ack]
  have ctrl : (Dcache.cclI this i).ctrl.en = false := en
  have stable : (Dcache.cclI this i).mtoc.b0enr = asked := h4
  -- so whichever of the clocks rises, the registers stay as they are
  have ccl : (Dcache.step this i).ccl.state = .off2 ∧ (Dcache.step this i).ccl.dcOnm = false ∧
      (Dcache.step this i).ccl.rfillv = asked := by
    cases hc : Dcache.rises125 this i <;>
      simp [Dcache.step, hc, DcacheCcl.step, next, DcacheCcl.dcOnm, ctrl, stable, h1, h2, h5]
  have bc : (Dcache.step this i).thisbc.en0.value = this.thisbc.en0.value ∧
      (Dcache.step this i).thisbc.en0.metastable = asked ∧
      (Dcache.step this i).thisbc.en0.stable = asked := by
    cases hc : Dcache.rises125 this i <;>
      simp [Dcache.step, hc, Dcache.thisbc, b0en, h3, h4, h9]
  have bm : (Dcache.step this i).thisbm.en0.value = this.thisbm.en0.value ∧
      (Dcache.step this i).thisbm.en0.metastable = !asked ∧
      (Dcache.step this i).thisbm.en0.stable = !asked := by
    cases hm : Dcache.rises200 this i <;>
      simp [Dcache.step, hm, Dcache.thisbm, b0enr, h6, h7, h9]
  have half : (Dcache.step this i).bcenValueHalfcb0 = this.bcenValueHalfcb0 := by
    simp [Dcache.step, h10]
  refine ⟨b0en, seen, heard, ccl.1, ccl.2.1, ⟨bc.2.1, bc.2.2, ccl.2.2⟩, ⟨bm.2.1, bm.2.2, ?_⟩,
    ?_, ?_, ?_, ?_, ?_, ?_, ?_, ?_⟩
  · cases hm : Dcache.rises200 this i <;>
      simp [Dcache.step, hm, DcacheMcl.step, Dcache.mclI, Dcache.ctom2, h7, h8]
  · rw [bm.1, half, h9]
  · rw [half, bc.1, h10]
  all_goals cases hm : Dcache.rises200 this i
  all_goals simp [Dcache.step, hm, DcacheMcl.step, DcacheMcl.nextStatemcl, DcacheMcl.nextStatemwi,
    DcacheMcl.sbblknxst, DcacheMcl.sbbufin, DcacheMcl.rfillv, DcacheMcl.rfillvPre1, seen, taken,
    maAckG, h11, h12, h13, h14, h15, h16]

/-- A cache that is stuck stays so, and finds nothing more. -/
theorem quiet_of_stuck {edges : List (Bool × Bool × Bool)} {asked : Bool} {s : ℕ}
    (le : edges.length ≤ s) (stuck : Stuck ((ofEdges edges).state s) asked) (t : ℕ) (h : s ≤ t) :
    (ofEdges edges).requested t = none ∧ (ofEdges edges).received t = none ∧
      (ofEdges edges).heard t = none ∧ Stuck ((ofEdges edges).state (t + 1)) asked := by
  have idle : ∀ u, s ≤ u →
      ((ofEdges edges).clk u).ctrl.en = false ∧ ((ofEdges edges).clk u).ma.ack = false := by
    intro u hu
    have none : edges[u]? = none := List.getElem?_eq_none (le.trans hu)
    exact ⟨rfl, by simp [ofEdges, none]⟩
  have stays : Stuck ((ofEdges edges).state t) asked := by
    induction t, h using Nat.le_induction with
    | base => exact stuck
    | succ u hu ih => exact (stuck_step ih (idle u hu).1 (idle u hu).2).2.2.2
  obtain ⟨b0en, seen, heard, next⟩ := stuck_step stays (idle t h).1 (idle t h).2
  refine ⟨?_, ?_, ?_, next⟩
  · simp [requested, b0en]
  · simp [received, seen]
  · simp [DcacheRun.heard, heard]

theorem ticks_ofEdges (edges : List (Bool × Bool × Bool)) : (ofEdges edges).link.Ticks := by
  have late : ∀ u, edges.length ≤ u →
      ((ofEdges edges).clk u).clk125 = true ∧ ((ofEdges edges).clk u).clk200 = true := by
    intro u hu
    have none : edges[u]? = none := List.getElem?_eq_none hu
    simp [ofEdges, none]
  constructor
  · intro t
    exact ⟨max t edges.length, le_max_left _ _, (late _ (le_max_right _ _)).1⟩
  · intro t
    obtain ⟨u, hu⟩ : ∃ u, u = max t edges.length := ⟨_, rfl⟩
    have edge := (late u (by omega)).2
    have edge' := (late (u + 1) (by omega)).2
    -- of two edges one is a rising one
    cases level : ((ofEdges edges).state u).clk200 with
    | false =>
      refine ⟨u, by omega, ?_⟩
      change Dcache.rises200 _ _ = true
      simp [Dcache.rises200, edge, level]
    | true =>
      have next : ((ofEdges edges).state (u + 1)).clk200 = false := by
        rw [state_succ, Dcache.step, level, edge]
        rfl
      refine ⟨u + 1, by omega, ?_⟩
      change Dcache.rises200 _ _ = true
      simp [Dcache.rises200, edge', next]

theorem acknowledges_ofEdges {edges : List (Bool × Bool × Bool)}
    (asked : ∀ t < edges.length, ((ofEdges edges).clk t).ma.ack = true →
      ((ofEdges edges).state t).mcl.men = true) : (ofEdges edges).Acknowledges := by
  intro t _
  refine ⟨rfl, fun ack => ?_⟩
  by_cases lt : t < edges.length
  · exact asked t lt ack
  · have none : edges[t]? = none := List.getElem?_eq_none (not_lt.mp lt)
    simp [ofEdges, none] at ack

/-- An edge of the CPU clock, one of the memory clock, and one with an acknowledgement. -/
def cpuEdge : Bool × Bool × Bool := (true, false, false)

def memEdge : Bool × Bool × Bool := (false, true, false)

def ackEdge : Bool × Bool × Bool := (false, true, true)

/-- The first request is made before the memory clock starts. -/
def lateStart : DcacheRun := ofEdges (List.replicate 2 cpuEdge)

/-- The memory clock stands still from a completion until the next request is out. -/
def slowMemory : DcacheRun :=
  ofEdges (List.replicate 4 memEdge ++ List.replicate 2 cpuEdge ++ List.replicate 6 memEdge ++
    List.replicate 6 cpuEdge ++ [ackEdge] ++ List.replicate 4 memEdge ++ List.replicate 8 cpuEdge)

/-- The memory clock is so fast that a request is served while the CPU clock is low. -/
def fastMemory : DcacheRun :=
  ofEdges (List.replicate 4 memEdge ++ List.replicate 2 cpuEdge ++ List.replicate 8 memEdge ++
    [ackEdge] ++ List.replicate 5 memEdge)

theorem stuck_lateStart : Stuck (lateStart.state 8) true := by
  constructor <;> decide +kernel

theorem stuck_slowMemory : Stuck (slowMemory.state 40) true := by
  constructor <;> decide +kernel

theorem stuck_fastMemory : Stuck (fastMemory.state 30) false := by
  constructor <;> decide +kernel

/-- Requests and completions are lost in these runs. -/
theorem requests_lost :
    (lateStart.Acknowledges ∧ lateStart.link.Ticks ∧
        ¬Arrives lateStart.requested lateStart.received) ∧
      (slowMemory.Acknowledges ∧ slowMemory.link.Ticks ∧
        ¬Arrives slowMemory.requested slowMemory.received) ∧
      fastMemory.Acknowledges ∧ fastMemory.link.Ticks ∧
        ¬Arrives fastMemory.completed fastMemory.heard := by
  refine ⟨⟨?_, ticks_ofEdges _, ?_⟩, ⟨?_, ticks_ofEdges _, ?_⟩, ?_, ticks_ofEdges _, ?_⟩
  · exact acknowledges_ofEdges (by decide +kernel)
  · refine not_arrives (s := 8) (fun t h => ?_) (by decide +kernel)
    exact (quiet_of_stuck (by decide) stuck_lateStart t h).2.1
  · exact acknowledges_ofEdges (by decide +kernel)
  · refine not_arrives (s := 40) (fun t h => ?_) (by decide +kernel)
    exact (quiet_of_stuck (by decide) stuck_slowMemory t h).2.1
  · exact acknowledges_ofEdges (by decide +kernel)
  · refine not_arrives (s := 30) (fun t h => ?_) (by decide +kernel)
    exact (quiet_of_stuck (by decide) stuck_fastMemory t h).2.2.1

end DcacheRun

/-! ### Clocks that keep pace -/

namespace IcacheRun

/-- A CPU that fetches at one address after the other while the cache is switched on, with
both clocks at every instant and a memory that always acknowledges. -/
def together : IcacheRun where
  clk125 := false
  clk200 := false
  clk t :=
    { clk125 := true, clk200 := true, ra := { d0 := 0, tag := 0 }
      a := { a := if t < 24 then 0x100 else if t < 60 then 0x208 else 0x444, en := true }
      icccra := { icOnm := true, icInv := false }
      ma := { d := 0xbeef, ack := true, ackR := true } }

theorem paced_together : together.link.Paced ∧ together.link.Ticks := by
  have levels : ∀ t, (together.state t).clk125 = (together.state t).clk200 := by
    intro t
    induction t with
    | zero => rfl
    | succ t ih =>
      rw [state_succ, Icache.step, ih]
      rfl
  refine LinkRun.paced_of_together (fun _ => rfl) fun t => ?_
  rw [rises_link]
  change Icache.rises200 (together.state t) (together.clk t) =
    Icache.rises125 (together.state t) (together.clk t)
  rw [Icache.rises200, Icache.rises125, levels]
  rfl

end IcacheRun

/-- With clocks that keep pace every request and every completion of either cache is found
exactly once. -/
theorem requests_once :
    (∀ run : DcacheRun, run.link.Paced → run.Acknowledges →
      Exchanges run.requested run.received run.lines run.completed run.heard ∧
        (run.link.Ticks →
          Arrives run.requested run.received ∧ Arrives run.completed run.heard)) ∧
    ∀ run : IcacheRun, run.link.Paced →
      Exchanges run.requested run.received run.lines run.completed run.heard ∧
        (run.link.Ticks →
          Arrives run.requested run.received ∧ Arrives run.completed run.heard) := by
  constructor
  · intro run paced acknowledges
    exact ⟨DcacheRun.exchanges paced acknowledges, DcacheRun.arrives paced acknowledges⟩
  · intro run paced
    exact ⟨IcacheRun.exchanges paced, IcacheRun.arrives paced⟩

/-- Runs in which both clocks tick together: the data cache sends a request in the clock in
which it hears of the completion of the one before. -/
theorem requests_once_together :
    (Exchanges DcacheRun.together.requested DcacheRun.together.received DcacheRun.together.lines
        DcacheRun.together.completed DcacheRun.together.heard ∧
      Arrives DcacheRun.together.requested DcacheRun.together.received ∧
      (history DcacheRun.together.requested 100).length = 4 ∧
      history DcacheRun.together.received 100 = history DcacheRun.together.requested 100 ∧
      (history DcacheRun.together.heard 100).length = 4 ∧
      (DcacheRun.together.heard 52).isSome ∧ (DcacheRun.together.requested 52).isSome) ∧
    Exchanges IcacheRun.together.requested IcacheRun.together.received IcacheRun.together.lines
        IcacheRun.together.completed IcacheRun.together.heard ∧
      Arrives IcacheRun.together.requested IcacheRun.together.received ∧
      history IcacheRun.together.received 100 =
        [0x100, 1#1 ++ 0x80#27 ++ 1#1, 1#1 ++ 0x104#27 ++ 0#1, 1#1 ++ 0x222#27 ++ 1#1] := by
  have dclocks : DcacheRun.together.link.Paced ∧ DcacheRun.together.link.Ticks :=
    DcacheRun.link_ofAccesses _ _ _
  obtain ⟨ipaced, iticks⟩ := IcacheRun.paced_together
  obtain ⟨dcache, icache⟩ := requests_once
  obtain ⟨dexchanges, darrives⟩ := dcache _ dclocks.1 DcacheRun.acknowledges_together
  obtain ⟨iexchanges, iarrives⟩ := icache _ ipaced
  refine ⟨⟨dexchanges, (darrives dclocks.2).1, ?_, ?_, ?_, ?_⟩, iexchanges,
    (iarrives iticks).1, ?_⟩
  all_goals decide +kernel

end JCore
