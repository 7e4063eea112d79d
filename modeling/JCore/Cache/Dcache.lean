import JCore.Cache.Completion
import JCore.Cache.Sync

/-!
# The requests of the data cache

A run of the whole entity `dcache`, at any interleaving of its two clocks. In it are the
handshake of part 0 of the synchroniser and the memory side in its own clock, and the events
of the two controllers are those of the handshake.

## Main definitions

* `DcacheRun`: a run, with the handshake (`link`) and the memory side (`mcl`) in it
* `DcacheRun.requested`, `DcacheRun.received`, `DcacheRun.completed`, `DcacheRun.heard`: the
  events of the controllers

## Main results

* `DcacheRun.state_link`, `DcacheRun.state_mcl`: the projections
* `DcacheRun.requested_link` and its like: they are the events of the handshake
-/

namespace JCore

/-- A run of the data cache from reset. -/
structure DcacheRun where
  clk125 : Bool
  clk200 : Bool
  clk : ℕ → DcacheI

namespace DcacheRun

section Projections

variable (run : DcacheRun)

def state : ℕ → DcacheReg :=
  trace Dcache.step (Dcache.regReset run.clk125 run.clk200) run.clk

def rises125 (t : ℕ) : Bool := Dcache.rises125 (run.state t) (run.clk t)

def rises200 (t : ℕ) : Bool := Dcache.rises200 (run.state t) (run.clk t)

/-- The handshake of part 0. -/
def link : LinkRun (BitVec 65) (BitVec 32) where
  high := run.clk125
  payload := 0
  data := 0
  clk t := Dcache.linkI (run.state t) (run.clk t)

/-- The clocks of the memory side among the instants of the run. -/
def mclClk (t : ℕ) : Bool × DcacheMclI :=
  (run.rises200 t, Dcache.mclI (run.state t) (run.clk t))

/-- The memory side, in its own clock. -/
noncomputable def mcl : MclRun where
  clk n := (enabledInput Prod.fst run.mclClk n).2

/-- The clocks of the memory side before an instant. -/
def mclTime (t : ℕ) : ℕ := enabledCount Prod.fst run.mclClk t

end Projections

variable {run : DcacheRun} {t : ℕ}

theorem state_succ (t : ℕ) : run.state (t + 1) = Dcache.step (run.state t) (run.clk t) := rfl

/-- The registers of part 0 are those of the handshake. -/
theorem state_link (t : ℕ) : run.link.state t = Dcache.toLink (run.state t) := by
  induction t with
  | zero => rfl
  | succ t ih => rw [LinkRun.state_succ, ih, state_succ, Dcache.toLink_step]; rfl

theorem mclTime_succ (t : ℕ) :
    run.mclTime (t + 1) = if run.rises200 t then run.mclTime t + 1 else run.mclTime t := by
  rw [mclTime, mclTime, enabledCount, enabledCount, Nat.count_succ]
  cases h : run.rises200 t <;> simp [mclClk, h]

/-- The inputs of the memory side at an edge of its clock. -/
theorem mcl_clk (h : run.rises200 t = true) :
    run.mcl.clk (run.mclTime t) = Dcache.mclI (run.state t) (run.clk t) := by
  exact congrArg Prod.snd (enabledInput_count Prod.fst (u := run.mclClk) (t := t) h)

/-- The registers of the memory side are those of its own run. -/
theorem state_mcl (t : ℕ) : run.mcl.state (run.mclTime t) = (run.state t).mcl := by
  induction t with
  | zero => rfl
  | succ t ih =>
    rw [mclTime_succ, state_succ, Dcache.step]
    cases h : run.rises200 t with
    | false =>
      rw [rises200] at h
      simp [h, ih]
    | true =>
      rw [if_pos rfl, MclRun.state_succ, ih, mcl_clk h]
      rw [rises200] at h
      simp [h]

/-! ### Events -/

theorem rises_link (t : ℕ) : run.link.rises t = run.rises125 t := by
  rw [LinkRun.rises, state_link]
  rfl

/-- The memory side finds a request where the handshake does. -/
theorem seen_link (t : ℕ) : Link.seen (run.link.state t) =
    DcacheMcl.seen (run.state t).mcl (Dcache.mclI (run.state t) (run.clk t)) := by
  rw [state_link]
  rfl

/-- The CPU side finds a completion where the handshake does. -/
theorem heard_link (t : ℕ) : Link.heard (run.link.state t) =
    DcacheCcl.memTransAck (run.state t).ccl (Dcache.cclI (run.state t) (run.clk t)) := by
  rw [state_link]
  rfl

theorem seen_mcl (h : run.rises200 t = true) : run.mcl.seen (run.mclTime t) =
    if Link.seen (run.link.state t) then some (run.state t).thisbm.d0bStable else none := by
  rw [MclRun.seen, state_mcl, mcl_clk h, seen_link]
  rfl

theorem completes_mcl (h : run.rises200 t = true) :
    run.mcl.completes (run.mclTime t) = (run.link.clk t).complete := by
  rw [MclRun.completes, state_mcl, mcl_clk h]
  rfl

/-! ### The controllers -/

/-- The memory acknowledges what is asked of it, through both of its signals. -/
def Acknowledges (run : DcacheRun) : Prop :=
  ∀ t, run.rises200 t = true → (run.clk t).ma.ackR = (run.clk t).ma.ack ∧
    ((run.clk t).ma.ack = true → (run.state t).mcl.men = true)

theorem ccl_succ (t : ℕ) : (run.state (t + 1)).ccl =
    if run.rises125 t then
      DcacheCcl.step (run.state t).ccl (Dcache.cclI (run.state t) (run.clk t))
    else (run.state t).ccl := rfl

theorem thisbc_succ (t : ℕ) : (run.state (t + 1)).thisbc =
    if run.rises125 t then Dcache.thisbc (run.state t) (run.clk t)
    else (run.state t).thisbc := rfl

theorem thisbm_succ (t : ℕ) : (run.state (t + 1)).thisbm =
    if run.rises200 t then Dcache.thisbm (run.state t) (run.clk t)
    else (run.state t).thisbm := rfl

/-! ### The events of the controllers -/

section Events

variable (run : DcacheRun) (t : ℕ)

/-- The request that the CPU side sends. -/
def requested : Option (BitVec 65) :=
  let ctom := Dcache.ctom1 (run.state t) (run.clk t)
  if run.rises125 t && ctom.b0en then some ctom.b0d else none

/-- The request that the memory side finds. -/
def received : Option (BitVec 65) :=
  let i := Dcache.mclI (run.state t) (run.clk t)
  if run.rises200 t && DcacheMcl.seen (run.state t).mcl i then some i.ctom.b0d else none

/-- The lines that the memory side reads the request from. -/
def lines : BitVec 65 := (Dcache.ctom2 (run.state t)).b0d

/-- The word with which the memory side completes a request. -/
def completed : Option (BitVec 32) :=
  let mtoc := Dcache.mtoc1 (run.state t) (run.clk t)
  if run.rises200 t && mtoc.b0enr then
    some (if mtoc.b0enrMcdata then mtoc.b0dUnc else (run.state t).thisbm.d0v)
  else none

/-- The word with which the CPU side finds a completion. -/
def heard : Option (BitVec 32) :=
  let i := Dcache.cclI (run.state t) (run.clk t)
  if run.rises125 t && DcacheCcl.memTransAck (run.state t).ccl i then some i.mtoc.b0dUnc else none

end Events

theorem requested_link : run.link.requested = run.requested := by
  funext t
  rw [LinkRun.requested, rises_link, requested]
  cases run.rises125 t <;> rfl

theorem received_link : run.link.received = run.received := by
  funext t
  rw [LinkRun.received, seen_link, state_link]
  rfl

theorem lines_link : (fun t => (run.link.state t).payloadStable) = run.lines := by
  funext t
  rw [state_link]
  rfl

theorem completed_link : run.link.completed = run.completed := by
  funext t
  rw [LinkRun.completed, state_link, completed]
  change (if run.rises200 t && (Dcache.mtoc1 (run.state t) (run.clk t)).b0enr then _ else _) = _
  cases h : (Dcache.mtoc1 (run.state t) (run.clk t)).b0enrMcdata <;>
    simp [link, Dcache.linkI, Dcache.toLink, h]

theorem heard_link_eq : run.link.heard = run.heard := by
  funext t
  rw [LinkRun.heard, rises_link, heard_link, state_link]
  rfl

/-! ### Clocks with the same edges -/

/-- Clocks that start at the same level and have an edge at every instant. -/
theorem rises_of_both (start : run.clk125 = run.clk200)
    (both : ∀ t, (run.clk t).clk125 = true ∧ (run.clk t).clk200 = true) (t : ℕ) :
    run.rises200 t = run.rises125 t := by
  have levels : ∀ t, (run.state t).clk125 = (run.state t).clk200 := by
    intro t
    induction t with
    | zero => exact start
    | succ t ih => rw [state_succ, Dcache.step, ih, (both t).1, (both t).2]
  rw [rises200, rises125, Dcache.rises200, Dcache.rises125, levels, (both t).1, (both t).2]

theorem paced_of_both (start : run.clk125 = run.clk200)
    (both : ∀ t, (run.clk t).clk125 = true ∧ (run.clk t).clk200 = true) :
    run.link.Paced ∧ run.link.Ticks := by
  refine LinkRun.paced_of_together (fun t => (both t).1) fun t => ?_
  rw [rises_link]
  exact rises_of_both start both t

end DcacheRun

end JCore
