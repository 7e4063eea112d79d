import JCore.Core.Cpu
import JCore.Core.Transactions
import JCore.Decode.Locked

/-!
# Locked reads and writes

`TAS.B` and `CAS.L` read a datum and write one back. From the clock that presents
the read on the data bus to the end of the write the bus stays locked, and no other
request comes in between. The lock is a bit of the line in the execute stage that a
bubble keeps, registered with every slot.

## Main definitions

* `CpuRun.executed`, `CpuRun.requester`: the operation in the execute stage and the one
  that the request on the data bus comes from
* `CpuRun.Reading`, `CpuRun.Window`: what holds while a read waits for its write
* `CpuRun.LockEnds`: the ends of a locked read and write
* `CpuRun.LockedBus`: what the lock of the data bus keeps to over a run

## Main results

* `CpuRun.staged`, `CpuRun.requested`: the invariants of the pipeline and of the bus
* `CpuRun.Window.step`: the window stays until one of the ends
* `CpuRun.lockedBus`: the lock over a run
-/

namespace JCore

open Datapath DecodeTable

/-- A run of the CPU from the reset, with what the register file happens to hold. -/
structure CpuRun where
  coproDecode : Bool
  regs : RegisterFile 5 21 32
  clk : ℕ → CpuI

namespace CpuRun

variable (run : CpuRun)

/-- The registers before clock `t`. -/
def state (t : ℕ) : Cpu := Cpu.run run.coproDecode (Cpu.reset run.regs) run.clk t

def slot (t : ℕ) : Bool := Cpu.slot (run.state t) (run.clk t)

/-- The operation presented to the decoder table in clock `t`. -/
def op (t : ℕ) : Operation := Cpu.op (run.state t) (run.clk t)

def stalled (t : ℕ) : Bool := Cpu.stalled run.coproDecode (run.state t) (run.clk t)

def tBcc (t : ℕ) : Bool := Cpu.tBcc run.coproDecode (run.state t) (run.clk t)

/-- Clock `t` lies at a dispatch boundary. -/
def boundary (t : ℕ) : Bool := Decoder.boundary (run.state t).dec

/-- What the line in the execute stage asks of the data bus. -/
def mem (t : ℕ) : MemCtrl := (run.state t).dec.pipeline.mem

/-- The output `db_o`. -/
def dataO (t : ℕ) : CpuDataO := (run.state t).data.this.dataO

/-- The output `db_lock`. -/
def dbLock (t : ℕ) : Bool := (run.state t).data.this.dataOLock

/-- The operation whose line is in the execute stage, none for a bubble. -/
def executed : ℕ → Option Operation
  | 0 => none
  | t + 1 =>
    if run.slot t then if run.stalled t then none else some (run.op t) else executed t

/-- The operation whose line started the last request. -/
def requester : ℕ → Option Operation
  | 0 => none
  | t + 1 => if run.slot t && (run.mem t).issue then run.executed t else requester t

/-! ### What one clock does -/

variable {run} {t : ℕ}

theorem state_succ (t : ℕ) :
    run.state (t + 1) = Cpu.step run.coproDecode (run.state t) (run.clk t) := rfl

theorem dec_succ_of_not_slot (h : run.slot t = false) :
    (run.state (t + 1)).dec = (run.state t).dec := Decoder.romStep_of_not_slot h

theorem op_of_not_boundary (h : run.boundary t = false) :
    run.op t = (run.state t).dec.core.op := Decoder.romOp_of_not_boundary h

/-- The operation after a slot. -/
theorem op_succ_of_slot (h : run.slot t = true) : (run.state (t + 1)).dec.core.op =
    if run.stalled t then run.op t else (run.op t).atLine 1 :=
  congrArg DecodeCoreReg.op (Decoder.core_romStep h)

theorem boundary_succ_of_slot (h : run.slot t = true) : run.boundary (t + 1) =
    (!run.stalled t && dispatch (microcodeLine (run.op t).addr) (run.tBcc t)) :=
  Decoder.boundary_romStep h

theorem pipeline_succ_of_slot (h : run.slot t = true) : (run.state (t + 1)).dec.pipeline =
    (run.state t).dec.pipeline.step true (run.stalled t)
      (Cpu.line run.coproDecode (run.state t) (run.clk t)) := Decoder.pipeline_romStep h

/-- A line that is stalled passes its lock on, but starts no request. -/
theorem mem_succ_of_slot (h : run.slot t = true) :
    (run.mem (t + 1)).lock = memLock (microcodeLine (run.op t).addr) ∧
      (run.mem (t + 1)).wr = maWr (microcodeLine (run.op t).addr) ∧
      (run.mem (t + 1)).issue =
        (!run.stalled t && maIssue (microcodeLine (run.op t).addr) (run.tBcc t)) := by
  rw [mem, pipeline_succ_of_slot h]
  refine ⟨rfl, rfl, ?_⟩
  show (if run.stalled t = true then stageExStallReset
    else (Cpu.line run.coproDecode (run.state t) (run.clk t)).exStall).maIssue = _
  cases run.stalled t <;> rfl

theorem executed_succ_of_slot (h : run.slot t = true) :
    run.executed (t + 1) = if run.stalled t then none else some (run.op t) := by
  rw [executed, if_pos h]

theorem executed_succ_of_not_slot (h : run.slot t = false) :
    run.executed (t + 1) = run.executed t := by
  rw [executed, h, if_neg Bool.false_ne_true]

theorem dbLock_succ (t : ℕ) :
    run.dbLock (t + 1) = if run.slot t then (run.mem t).lock else run.dbLock t :=
  process_dataOLock _ _ _ _ _

/-- The request after a clock that is not a slot. -/
theorem dataO_succ_of_not_slot (h : run.slot t = false) : run.dataO (t + 1) =
    if (run.dataO t).en && (run.clk t).dbI.ack then nullDataO else run.dataO t := by
  have not_slot : Cpu.slot (run.state t) (run.clk t) = false := h
  rw [dataO, state_succ, Cpu.dataO_step, not_slot, Bool.false_and, if_neg Bool.false_ne_true]
  rfl

/-- A request that a clock without a slot leaves behind was not acknowledged in it. -/
theorem dataO_succ_of_presented (h : run.slot t = false)
    (presented : (run.dataO (t + 1)).en = true) :
    run.dataO (t + 1) = run.dataO t ∧ (run.dataO t).en = true ∧ (run.clk t).dbI.ack = false := by
  have next := dataO_succ_of_not_slot h
  have waits : ((run.dataO t).en && (run.clk t).dbI.ack) = false := by
    by_contra acked
    rw [next, if_pos (Bool.eq_true_of_not_eq_false acked)] at presented
    exact Bool.false_ne_true presented
  rw [waits, if_neg Bool.false_ne_true] at next
  rw [next] at presented
  rw [presented, Bool.true_and] at waits
  exact ⟨next, presented, waits⟩

/-- In a slot the request has come to its end. -/
theorem acked_of_slot (h : run.slot t = true) (presented : (run.dataO t).en = true) :
    (run.clk t).dbI.ack = true := by
  have slot : slotO (run.state t).data.this (run.clk t).datapathI = true := h
  have busy : (run.state t).data.this.dataO.en = true := presented
  rw [slotO, busy, Bool.and_eq_true, Bool.and_eq_true, Bool.true_and, Bool.not_not] at slot
  exact slot.1.1

/-- A slot starts a request if the line in the execute stage asks for one. -/
theorem dataO_succ_of_slot (h : run.slot t = true) :
    (run.dataO (t + 1)).en = (run.mem t).issue ∧
      ((run.mem t).issue = true → (run.dataO (t + 1)).wr = (run.mem t).wr) := by
  have slot : Cpu.slot (run.state t) (run.clk t) = true := h
  rw [dataO, state_succ, Cpu.dataO_step, slot, Bool.true_and]
  cases drives : drivesData (Cpu.ctrl run.coproDecode (run.state t)) with
  | true =>
    rw [if_pos rfl]
    exact ⟨en_toDataO, wr_toDataO⟩
  | false =>
    have none : (run.mem t).issue = false := (Bool.or_eq_false_iff.mp drives).1
    have ended := (answered_en_of_slot (run.state t).data.this
      (Cpu.decodeCtrl run.coproDecode (run.state t) (run.clk t)) _ h).1
    rw [answered_eq] at ended
    rw [if_neg Bool.false_ne_true, none]
    exact ⟨ended, fun h => absurd h Bool.false_ne_true⟩

/-! ### The pipeline -/

variable (run t) in
/-- The operation in the decode stage is in its place, and the line in the execute
stage is the one of the operation executed. -/
structure Staged : Prop where
  decode : run.boundary t = false → (run.state t).dec.core.op.Placed
  bubble : run.executed t = none → (run.mem t).issue = false
  line : ∀ o, run.executed t = some o → o.Placed ∧
    (run.mem t).lock = memLock (microcodeLine o.addr) ∧
    (run.mem t).wr = maWr (microcodeLine o.addr) ∧
    ∃ s, (run.mem t).issue = maIssue (microcodeLine o.addr) s
  /-- behind the line with a locked read comes the next one -/
  next : ∀ o, run.executed t = some o → lockedRead o.addr = true →
    run.boundary t = false ∧ (run.state t).dec.core.op = o.atLine 1

theorem Staged.placed_op (staged : run.Staged t) : (run.op t).Placed := by
  cases here : run.boundary t with
  | true =>
    have chosen : run.op t = _ := Decoder.romOp_of_boundary here
    rw [chosen]
    exact placed_nextOp _ _
  | false =>
    rw [op_of_not_boundary here]
    exact staged.decode here

/-- After a slot the line presented is in the execute stage, or a bubble. -/
theorem Staged.step_of_slot (staged : run.Staged t) (h : run.slot t = true) :
    run.Staged (t + 1) := by
  have placed := staged.placed_op
  have executed := executed_succ_of_slot h
  have op := op_succ_of_slot h
  have boundary := boundary_succ_of_slot h
  obtain ⟨lock, wr, issue⟩ := mem_succ_of_slot h
  cases stall : run.stalled t with
  | true =>
    rw [stall, if_pos rfl] at executed op
    rw [stall, Bool.not_true, Bool.false_and] at issue
    refine ⟨fun _ => ?_, fun _ => issue, ?_, ?_⟩
    · rw [op]
      exact placed
    · intro o some
      exact absurd (executed.symm.trans some) (by simp)
    · intro o some
      exact absurd (executed.symm.trans some) (by simp)
  | false =>
    rw [stall, if_neg Bool.false_ne_true] at executed op
    rw [stall, Bool.not_false, Bool.true_and] at issue boundary
    refine ⟨fun more => ?_, ?_, ?_, ?_⟩
    · rw [boundary] at more
      rw [op]
      exact placed.succ more
    · intro none
      exact absurd (executed.symm.trans none) (by simp)
    · intro o some
      obtain rfl : run.op t = o := Option.some.inj (executed.symm.trans some)
      exact ⟨placed, lock, wr, _, issue⟩
    · intro o some read
      obtain rfl : run.op t = o := Option.some.inj (executed.symm.trans some)
      exact ⟨boundary.trans (((lockedLine _).after read).1 _), op⟩

theorem Staged.step (staged : run.Staged t) : run.Staged (t + 1) := by
  cases h : run.slot t with
  | true => exact staged.step_of_slot h
  | false =>
    have dec := dec_succ_of_not_slot h
    have executed := executed_succ_of_not_slot h
    obtain ⟨decode, bubble, line, next⟩ := staged
    rw [boundary] at decode next
    rw [mem] at bubble line
    refine ⟨?_, ?_, ?_, ?_⟩
    · rw [boundary, dec]
      exact decode
    · rw [mem, dec, executed]
      exact bubble
    · rw [mem, dec, executed]
      exact line
    · rw [boundary, dec, executed]
      exact next

theorem staged (t : ℕ) : run.Staged t := by
  induction t with
  | zero =>
    refine ⟨fun _ => ⟨rfl, rfl⟩, fun _ => rfl, ?_, ?_⟩
    · intro o some
      exact absurd some (by simp [executed])
    · intro o some
      exact absurd some (by simp [executed])
  | succ t ih => exact ih.step

/-! ### The requests -/

variable (run t) in
/-- The read of a locked instruction is under way and the lines up to its write are
still in the decode stage. -/
structure Reading (o : Operation) : Prop where
  inside : run.boundary t = false
  decode : (run.state t).dec.core.op = o.atLine 1 ∨ (run.state t).dec.core.op = o.atLine 2
  lock : (run.mem t).lock = true
  issue : (run.mem t).issue = false

variable (run t) in
/-- A request comes from the line that it is the request of. -/
structure Requested (o : Operation) : Prop where
  requester : run.requester t = some o
  placed : o.Placed
  dbLock : run.dbLock t = memLock (microcodeLine o.addr)
  wr : (run.dataO t).wr = maWr (microcodeLine o.addr)
  issue : ∃ s, maIssue (microcodeLine o.addr) s = true
  reading : lockedRead o.addr = true → run.Reading t o

theorem requester_succ_of_not_slot (h : run.slot t = false) :
    run.requester (t + 1) = run.requester t := by
  rw [requester, h, Bool.false_and, if_neg Bool.false_ne_true]

theorem requester_succ_of_issue (h : run.slot t = true) (issue : (run.mem t).issue = true) :
    run.requester (t + 1) = run.executed t := by
  rw [requester, h, issue]
  rfl

/-- What stays in a clock that is not a slot. -/
theorem Reading.step_of_not_slot {o : Operation} (reading : run.Reading t o)
    (h : run.slot t = false) : run.Reading (t + 1) o := by
  obtain ⟨inside, decode, lock, issue⟩ := reading
  have dec := dec_succ_of_not_slot h
  rw [boundary] at inside
  rw [mem] at lock issue
  refine ⟨?_, ?_, ?_, ?_⟩
  · rw [boundary, dec]
    exact inside
  · rw [dec]
    exact decode
  · rw [mem, dec]
    exact lock
  · rw [mem, dec]
    exact issue

/-- The line behind the read is presented again or left behind, and keeps the lock. -/
theorem reading_of_first {o : Operation} (read : lockedRead o.addr = true) (h : run.slot t = true)
    (first : run.op t = o.atLine 1) : run.Reading (t + 1) o := by
  obtain ⟨-, dispatch, idle, -, -, lock⟩ := (lockedLine o.addr).after read
  have op := op_succ_of_slot h
  have boundary := boundary_succ_of_slot h
  obtain ⟨lock', -, issue'⟩ := mem_succ_of_slot h
  rw [first] at op boundary lock' issue'
  refine ⟨?_, ?_, lock'.trans lock, ?_⟩
  · rw [boundary]
    exact (congrArg _ (dispatch _)).trans (Bool.and_false _)
  · cases stall : run.stalled t with
    | true =>
      rw [stall] at op
      exact .inl op
    | false =>
      rw [stall] at op
      exact .inr (op.trans (Operation.atLine_succ o 1).symm)
  · rw [issue']
    exact (congrArg _ (idle _)).trans (Bool.and_false _)

/-- The line that starts a locked read leaves the execute stage. -/
theorem reading_succ {o : Operation} (h : run.slot t = true) (here : run.executed t = some o)
    (read : lockedRead o.addr = true) : run.Reading (t + 1) o := by
  obtain ⟨inside, behind⟩ := (staged t).next o here read
  exact reading_of_first read h ((op_of_not_boundary inside).trans behind)

/-- Every request on the data bus comes from an operation. -/
theorem requested (t : ℕ) (presented : (run.dataO t).en = true) : ∃ o, run.Requested t o := by
  induction t with
  | zero => exact absurd presented Bool.false_ne_true
  | succ t ih =>
    cases h : run.slot t with
    | false =>
      obtain ⟨dataO, before, -⟩ := dataO_succ_of_presented h presented
      obtain ⟨o, requester, placed, dbLock, wr, issue, reading⟩ := ih before
      refine ⟨o, (requester_succ_of_not_slot h).trans requester, placed, ?_, ?_, issue, ?_⟩
      · rw [dbLock_succ, h]
        exact dbLock
      · rw [dataO]
        exact wr
      · exact fun read => (reading read).step_of_not_slot h
    | true =>
      obtain ⟨en, wr⟩ := dataO_succ_of_slot h
      rw [en] at presented
      cases here : run.executed t with
      | none => exact absurd presented (by rw [(staged t).bubble here]; exact Bool.false_ne_true)
      | some o =>
        obtain ⟨placed, lock, write, s, issue⟩ := (staged t).line o here
        refine ⟨o, (requester_succ_of_issue h presented).trans here, placed, ?_, ?_, ⟨s, ?_⟩, ?_⟩
        · rw [dbLock_succ, h]
          exact lock
        · exact (wr presented).trans write
        · exact issue.symm.trans presented
        · exact reading_succ h here

/-- The data bus is locked for the requests of `TAS.B` and `CAS.L` and for no other. -/
theorem Requested.dbLock_eq {o : Operation} (h : run.Requested t o) :
    run.dbLock t = o.locked := by
  obtain ⟨s, issue⟩ := h.issue
  rw [h.dbLock, (lockedLine o.addr).lock s issue, h.placed.tas, h.placed.cas, Operation.locked]

/-- The read of a locked instruction comes from the line for it. -/
theorem Requested.read {o : Operation} (h : run.Requested t o) (locked : o.locked = true)
    (wr : (run.dataO t).wr = false) : lockedRead o.addr = true := by
  obtain ⟨s, issue⟩ := h.issue
  refine (lockedLine o.addr).read s issue ?_ (h.wr.symm.trans wr)
  rw [h.placed.tas, h.placed.cas]
  exact locked

/-! ### From the read to the write -/

variable (run t) in
/-- The write of a `CAS.L` leaves the execute stage without a request. -/
def Declined : Prop :=
  run.slot t = true ∧ ∃ o, run.executed t = some o ∧ o.casL = true ∧ casWrite o.addr = true ∧
    (run.mem t).issue = false

variable (run t) in
/-- A write is acknowledged. -/
def WriteAcked : Prop :=
  (run.dataO t).en = true ∧ (run.dataO t).wr = true ∧ (run.clk t).dbI.ack = true

variable (run t) in
/-- The ends of a locked read and write. -/
def LockEnds : Prop := run.WriteAcked t ∨ run.Declined t

variable (run t) in
/-- Clock `u` presents the read of clock `t`, which was not acknowledged before. -/
structure SameRead (u : ℕ) : Prop where
  dataO : run.dataO u = run.dataO t
  requester : run.requester u = run.requester t
  waits : ∀ v, t ≤ v → v < u → (run.clk v).dbI.ack = false

variable (run t) in
/-- Clock `u` presents the write of the operation. -/
structure Writes (o : Operation) : Prop where
  presented : (run.dataO t).en = true
  wr : (run.dataO t).wr = true
  requester : run.requester t = some (o.atLine 2)

variable (run t) in
/-- The places that a locked operation passes through, with its read in clock `t`: its
lines wait for the read, its write is in the execute stage, or on the bus. -/
inductive Window (o : Operation) (u : ℕ) : Prop
  | reading (reading : run.Reading u o)
      (same : (run.dataO u).en = true → run.SameRead t u)
  | writing (here : run.executed u = some (o.atLine 2)) (idle : (run.dataO u).en = false)
  | written (writes : run.Writes u o)

variable {u : ℕ} {o : Operation}

theorem SameRead.step_of_not_slot (same : (run.dataO u).en = true → run.SameRead t u)
    (h : run.slot u = false) (presented : (run.dataO (u + 1)).en = true) :
    run.SameRead t (u + 1) := by
  obtain ⟨next, before, waiting⟩ := dataO_succ_of_presented h presented
  obtain ⟨dataO, requester, waits⟩ := same before
  refine ⟨next.trans dataO, (requester_succ_of_not_slot h).trans requester, ?_⟩
  intro v from_t hv
  rcases Nat.lt_succ_iff_lt_or_eq.mp hv with earlier | rfl
  · exact waits v from_t earlier
  · exact waiting

/-- Without a slot the lines stay where they are, and a write stays on the bus. -/
theorem Window.step_of_not_slot (window : run.Window t o u) (h : run.slot u = false)
    (more : ¬run.LockEnds u) : run.Window t o (u + 1) := by
  cases window with
  | reading reading same =>
    exact .reading (reading.step_of_not_slot h) (SameRead.step_of_not_slot same h)
  | writing here idle =>
    refine .writing ((executed_succ_of_not_slot h).trans here) ?_
    by_contra presented
    have before := (dataO_succ_of_presented h (Bool.eq_true_of_not_eq_false presented)).2.1
    exact Bool.false_ne_true (idle.symm.trans before)
  | written writes =>
    obtain ⟨presented, wr, requester⟩ := writes
    have waits : (run.clk u).dbI.ack = false :=
      Bool.eq_false_iff.mpr fun acked => more (.inl ⟨presented, wr, acked⟩)
    have next := dataO_succ_of_not_slot h
    rw [waits, Bool.and_false, if_neg Bool.false_ne_true] at next
    refine .written ⟨?_, ?_, (requester_succ_of_not_slot h).trans requester⟩
    · rw [next]
      exact presented
    · rw [next]
      exact wr

/-- A slot moves a line on that comes before the write. -/
theorem Reading.step_of_slot (read : lockedRead o.addr = true) (reading : run.Reading u o)
    (h : run.slot u = true) :
    run.Reading (u + 1) o ∨ run.executed (u + 1) = some (o.atLine 2) := by
  obtain ⟨inside, decode, -, -⟩ := reading
  have presented := op_of_not_boundary inside
  rcases decode with first | second
  · exact .inl (reading_of_first read h (presented.trans first))
  · have executed := executed_succ_of_slot h
    have op := op_succ_of_slot h
    have boundary := boundary_succ_of_slot h
    obtain ⟨lock, -, issue⟩ := mem_succ_of_slot h
    rw [presented.trans second] at op lock executed
    cases stall : run.stalled u with
    | false =>
      rw [stall] at executed
      exact .inr executed
    | true =>
      -- the line with the write is stalled and keeps the lock
      have write := ((lockedLine o.addr).after read).2.2.2.1
      rw [stall] at op boundary issue
      exact .inl ⟨boundary, .inr op, lock.trans ((lockedLine _).write write).1, issue⟩

/-- The write goes out, or the operation is a `CAS.L` that declines it. -/
theorem writes_succ (h : run.slot u = true) (here : run.executed u = some (o.atLine 2))
    (write : lockedWrite (o.atLine 2).addr = true) (more : ¬run.Declined u) :
    run.Writes (u + 1) o := by
  obtain ⟨placed, -, wr, s, issue⟩ := (staged u).line _ here
  have asks : (run.mem u).issue = true := by
    by_contra none
    have none := Bool.eq_false_iff.mpr none
    cases cas : casWrite (o.atLine 2).addr with
    | false => exact Bool.false_ne_true (none.symm.trans
        (issue.trans ((lockedLine _).always write cas s)))
    | true =>
      refine more ⟨h, _, here, ?_, cas, none⟩
      exact placed.cas.symm.trans (casAddr_of_casWrite cas)
  obtain ⟨en, wr'⟩ := dataO_succ_of_slot h
  refine ⟨en.trans asks, ?_, (requester_succ_of_issue h asks).trans here⟩
  rw [wr' asks, wr]
  exact ((lockedLine _).write write).2

/-- A slot keeps the window open until one of the ends, and the bus locked. -/
theorem Window.step_of_slot (read : lockedRead o.addr = true) (window : run.Window t o u)
    (h : run.slot u = true) (more : ¬run.LockEnds u) :
    run.Window t o (u + 1) ∧ run.dbLock (u + 1) = true := by
  have write := ((lockedLine o.addr).after read).2.2.2.1
  have lock : run.dbLock (u + 1) = _ := dbLock_succ u
  rw [h, if_pos rfl] at lock
  have en := (dataO_succ_of_slot h).1
  cases window with
  | reading reading same =>
    rw [reading.lock] at lock
    rw [reading.issue] at en
    rcases reading.step_of_slot read h with waits | here
    · exact ⟨.reading waits fun shown => absurd (en.symm.trans shown) Bool.false_ne_true, lock⟩
    · exact ⟨.writing here en, lock⟩
  | writing here idle =>
    refine ⟨.written (writes_succ h here write fun declined => more (.inr declined)), ?_⟩
    rw [lock, ((staged u).line _ here).2.1]
    exact ((lockedLine _).write write).1
  | written writes =>
    have acked := acked_of_slot h writes.presented
    exact absurd (.inl ⟨writes.presented, writes.wr, acked⟩) more

/-- The window stays open and the bus locked until one of the ends. -/
theorem Window.step (read : lockedRead o.addr = true) (window : run.Window t o u)
    (lock : run.dbLock u = true) (more : ¬run.LockEnds u) :
    run.Window t o (u + 1) ∧ run.dbLock (u + 1) = true := by
  cases h : run.slot u with
  | true => exact window.step_of_slot read h more
  | false =>
    refine ⟨window.step_of_not_slot h more, ?_⟩
    rw [dbLock_succ, h]
    exact lock

/-- From the clock that presents a locked read on, the window is open and the bus locked
as long as neither end has come. -/
theorem window_of_read (requested : run.Requested t o) (wr : (run.dataO t).wr = false)
    (locked : o.locked = true) (later : t ≤ u)
    (more : ∀ v, t ≤ v → v < u → ¬run.LockEnds v) :
    run.Window t o u ∧ run.dbLock u = true := by
  have read := requested.read locked wr
  induction u, later using Nat.le_induction with
  | base =>
    refine ⟨.reading (requested.reading read) fun _ => ⟨rfl, rfl, ?_⟩, ?_⟩
    · intro v from_t before
      exact absurd before (Nat.not_lt.mpr from_t)
    · rw [requested.dbLock_eq]
      exact locked
  | succ u later ih =>
    obtain ⟨window, lock⟩ := ih fun v from_t before => more v from_t (Nat.lt_succ_of_lt before)
    exact window.step read lock (more u later (Nat.lt_succ_self u))

/-! ### The comparison -/

/-- The line in the execute stage compares the words on the buses, and loads no register. -/
structure Compares (p : Pipeline) : Prop where
  srSel : p.ex1Stall.srSel = .selLogic
  logicSrFunc : p.ex1.logicSrFunc = .zero
  logicFunc : p.ex1.logicFunc = .logicXor
  aluinxSel : p.ex1.aluinxSel = .selXbus
  aluinySel : p.ex1.aluinySel = .selYbus
  wrregW : p.wb1Stall.wrregW = false

/-- The lines of a `CAS.L` that have left the decode stage load nothing into SR, and before
the write comes the comparison. -/
structure Comparing (this : DecoderReg) : Prop where
  wb1 : casFrom 1 this.core.op.addr = true → this.pipeline.wb1Stall.wrsrW = false
  wb2 : casFrom 2 this.core.op.addr = true → this.pipeline.wb2Stall.wrsrW = false
  wb3 : casFrom 3 this.core.op.addr = true → this.pipeline.wb3Stall.wrsrW = false
  compare : casFrom 3 this.core.op.addr = true → Compares this.pipeline

/-- An operation in the middle of a `CAS.L` is under way. -/
theorem op_of_casFrom (more : casFrom 1 (run.op t).addr = true) :
    run.op t = (run.state t).dec.core.op := by
  cases here : run.boundary t with
  | true =>
    have chosen : run.op t = _ := Decoder.romOp_of_boundary here
    rw [chosen, casFrom_nextOp] at more
    exact absurd more Bool.false_ne_true
  | false => exact op_of_not_boundary here

/-- A line that senses no multiplier is not stalled behind one that loads no register. -/
theorem stalled_eq_false (wrregW : (run.state t).dec.pipeline.wb1Stall.wrregW = false)
    (free : macStallSense (microcodeLine (run.op t).addr) = false) : run.stalled t = false := by
  have sense : (decodeTable (run.op t) (run.tBcc t) false).macStallSense = false := free
  show DecodeCore.nextIdStall (Decoder.coreI (run.state t).dec
    (Cpu.decoderI (run.state t) (run.clk t)) (decodeTable (run.op t) (run.tBcc t) false)) = false
  rw [DecodeCore.nextIdStall, DecodeCore.regConf, DecodeCore.macStall, Decoder.coreI, sense, wrregW]
  rfl

/-- The write of `CAS.L` follows the comparison without a stall. -/
theorem Comparing.compares (comparing : Comparing (run.state t).dec)
    (write : casFrom 3 (run.op t).addr = true) :
    Compares (run.state t).dec.pipeline ∧ (run.state t).dec.pipeline.wb3Stall.wrsrW = false ∧
      run.stalled t = false := by
  have here : casFrom 3 (run.state t).dec.core.op.addr = true := by
    rw [← op_of_casFrom (casFrom_mono (by decide) (by decide) write)]
    exact write
  have compares := comparing.compare here
  exact ⟨compares, comparing.wb3 here,
    stalled_eq_false compares.wrregW ((casLine _).ready (casWrite_eq.trans write))⟩

/-- A slot keeps the lines of a `CAS.L` in order. -/
theorem Comparing.step_of_slot (comparing : Comparing (run.state t).dec)
    (h : run.slot t = true) : Comparing (run.state (t + 1)).dec := by
  have op := op_succ_of_slot h
  have line := casLine (run.op t).addr
  have same : ∀ n, 1 ≤ n → n ≤ 3 → casFrom n (run.op t).addr = true →
      casFrom n (run.state t).dec.core.op.addr = true := by
    intro n one three here
    rw [← op_of_casFrom (casFrom_mono one three here)]
    exact here
  have wb1 := fun here => comparing.wb1 (same 1 (by decide) (by decide) here)
  have wb2 := fun here => comparing.wb2 (same 2 (by decide) (by decide) here)
  cases stall : run.stalled t with
  | true =>
    rw [stall, if_pos rfl] at op
    refine ⟨?_, ?_, ?_, ?_⟩ <;> rw [op, pipeline_succ_of_slot h, stall] <;> intro here
    · rfl
    · exact wb1 (casFrom_mono (by decide) (by decide) here)
    · exact wb2 (casFrom_mono (by decide) (by decide) here)
    · exact absurd (stall.symm.trans (comparing.compares here).2.2) Bool.noConfusion
  | false =>
    rw [stall, if_neg Bool.false_ne_true] at op
    refine ⟨?_, ?_, ?_, ?_⟩ <;> rw [op, pipeline_succ_of_slot h, stall] <;> intro here
    · exact line.noLoad (line.pred here)
    · exact wb1 (line.pred1 here)
    · exact wb2 (line.pred2 here)
    · obtain ⟨srSel, logicSrFunc, logicFunc, aluinxSel, aluinySel, wrregW⟩ := line.compare here
      exact ⟨srSel, logicSrFunc, logicFunc, aluinxSel, aluinySel, wrregW⟩

theorem comparing (t : ℕ) : Comparing (run.state t).dec := by
  induction t with
  | zero =>
    refine ⟨?_, ?_, ?_, ?_⟩ <;> intro here <;> exact absurd here Bool.false_ne_true
  | succ t ih =>
    cases h : run.slot t with
    | true => exact ih.step_of_slot h
    | false =>
      rw [dec_succ_of_not_slot h]
      exact ih

variable (run t) in
/-- The words on the internal buses are equal. -/
def busesEqual : Bool :=
  let v := Cpu.processI run.coproDecode (run.state t) (run.clk t)
  v.xbus == v.ybus

/-- T after the line that compares. -/
theorem tBcc_of_compares (h : run.slot t = true) (compares : Compares (run.state t).dec.pipeline)
    (noLoad : (run.state t).dec.pipeline.wb3Stall.wrsrW = false) :
    run.tBcc t = run.busesEqual t := by
  have slot : Cpu.slot (run.state t) (run.clk t) = true := h
  have sel : (Cpu.ctrl run.coproDecode (run.state t)).sr.sel = .selLogic := by
    rw [Cpu.ctrl, Cpu.srSel_stageCtrl, noLoad, if_neg Bool.false_ne_true]
    exact compares.srSel
  have logicSr : (Cpu.ctrl run.coproDecode (run.state t)).func.logicSr = .zero :=
    compares.logicSrFunc
  have out : (Cpu.processI run.coproDecode (run.state t) (run.clk t)).logicOut =
      (Cpu.processI run.coproDecode (run.state t) (run.clk t)).xbus ^^^
        (Cpu.processI run.coproDecode (run.state t) (run.clk t)).ybus := by
    show logicOut _ _ (Cpu.ctrl run.coproDecode (run.state t)) _ = _
    have inx : (Cpu.ctrl run.coproDecode (run.state t)).func.alu.inxSel = .selXbus :=
      compares.aluinxSel
    have iny : (Cpu.ctrl run.coproDecode (run.state t)).func.alu.inySel = .selYbus :=
      compares.aluinySel
    have func : (Cpu.ctrl run.coproDecode (run.state t)).func.logicFunc = .logicXor :=
      compares.logicFunc
    rw [logicOut, aluinx, inx, aluiny, iny, func]
    rfl
  rw [tBcc, Cpu.tBcc, Cpu.srC, slot, if_pos rfl, nextSr, sel]
  show (logicUpdateSr _ _ _ 8).t = _
  rw [logicSr, out, busesEqual]
  exact isZero_xor _ _

/-! ### A run -/

variable (run) in
/-- What the lock of the data bus keeps to over a run. -/
structure LockedBus : Prop where
  /-- every request comes from an operation, and the bus is locked for it if that is one of
  the two instructions, and only then -/
  locked : ∀ t, (run.dataO t).en = true →
    ∃ o, run.requester t = some o ∧ run.dbLock t = o.locked
  /-- from the read on the bus stays locked and carries no other request than the write of
  the same operation, until that is acknowledged or declined -/
  held : ∀ t o, (run.dataO t).en = true → (run.dataO t).wr = false →
    run.requester t = some o → o.locked = true →
    ∀ u, t ≤ u → (∀ v, t ≤ v → v < u → ¬run.LockEnds v) →
      run.dbLock u = true ∧ ((run.dataO u).en = true → run.SameRead t u ∨ run.Writes u o)
  /-- a `CAS.L` issues its write in the slot after it finds the words on the buses equal,
  and declines it in the slot after it does not -/
  compared : ∀ t, run.slot t = true → casWrite (run.op t).addr = true →
    (run.op t).casL = true ∧ run.executed (t + 1) = some (run.op t) ∧
      (run.mem (t + 1)).issue = run.busesEqual t

/-- In every run from the reset the bus is locked from the read of a `TAS.B` or `CAS.L` on
until its write is acknowledged or declined, and for the requests of no other instruction. -/
theorem lockedBus (run : CpuRun) : run.LockedBus where
  locked t presented := by
    obtain ⟨o, requested⟩ := requested t presented
    exact ⟨o, requested.requester, requested.dbLock_eq⟩
  held t o presented wr requester locked u later more := by
    obtain ⟨o', requested⟩ := requested t presented
    obtain rfl : o' = o := Option.some.inj (requested.requester.symm.trans requester)
    obtain ⟨window, lock⟩ := window_of_read requested wr locked later more
    refine ⟨lock, fun shown => ?_⟩
    cases window with
    | reading reading same => exact .inl (same shown)
    | writing here idle => exact absurd (idle.symm.trans shown) Bool.false_ne_true
    | written writes => exact .inr writes
  compared t h write := by
    obtain ⟨compares, noLoad, free⟩ := (comparing t).compares (casWrite_eq.symm.trans write)
    have executed := executed_succ_of_slot h
    have issue := (mem_succ_of_slot h).2.2
    rw [free] at executed issue
    refine ⟨?_, executed, ?_⟩
    · rw [← (staged t).placed_op.cas]
      exact casAddr_of_casWrite write
    · rw [issue, Bool.not_false, Bool.true_and, (lockedLine _).sense write,
        tBcc_of_compares h compares noLoad]

end CpuRun

end JCore
