import JCore.Core.Execute

/-!
# The data memory in program order

A memory answers the data bus, after any number of clocks. The line in the execute
stage starts its request in a slot; the next slot waits for the end of it. So the memory
changes in the order of the lines, and a load takes its datum from the memory that the
lines before it left, although it reaches its register two slots later.

## Main definitions

* `CpuRun.memory`, `CpuRun.Backed`: the memory behind the data bus
* `CpuRun.programMem`: the memory after the lines of the first slots

## Main results

* `CpuRun.settled_eq`: the memory with the request under way is that of program order
* `CpuRun.Executes.loaded`: what a load takes
-/

namespace JCore

open Datapath DecodeTable

namespace CpuRun

variable (run : CpuRun) (bytes : ByteMemory)

/-- The memory before clock `t`, if it holds `bytes` at the beginning. -/
def memory : ℕ → ByteMemory
  | 0 => bytes
  | t + 1 =>
    if (run.dataO t).en && (run.dataO t).wr && (run.clk t).dbI.ack then
      busWrite (memory t) (run.dataO t)
    else memory t

/-- The data bus is answered from the memory. -/
def Backed : Prop :=
  ∀ t, (run.dataO t).en = true → (run.dataO t).wr = false → (run.clk t).dbI.ack = true →
    (run.clk t).dbI.d = busRead (run.memory bytes t) (run.dataO t).a

/-- The memory with the request under way carried out. -/
def settled (t : ℕ) : ByteMemory :=
  if (run.dataO t).en && (run.dataO t).wr then busWrite (run.memory bytes t) (run.dataO t)
  else run.memory bytes t

/-- The address and the datum of the request that the line in the execute stage makes. -/
def memAd (t : ℕ) : BitVec 32 :=
  maAd (Cpu.ctrl run.coproDecode (run.state t)) (Cpu.processI run.coproDecode (run.state t) (run.clk t))

def memDw (t : ℕ) : BitVec 32 :=
  maDw (Cpu.ctrl run.coproDecode (run.state t)) (Cpu.processI run.coproDecode (run.state t) (run.clk t))

/-- The clock of slot `n`. -/
noncomputable def slotClock (n : ℕ) : ℕ := Nat.nth (fun t => run.slot t = true) n

/-- The memory after the lines of the first `n` slots, each of which makes its request in
the slot after its own. -/
noncomputable def programMem : ℕ → ByteMemory
  | 0 => bytes
  | n + 1 =>
    let t := run.slotClock (n + 1)
    if (run.mem t).issue && (run.mem t).wr then
      storeAt (programMem n) (run.mem t).size (run.memAd t) (run.memDw t)
    else programMem n

/-! ### Slots -/

section Slots

variable {run} {t n : ℕ}

theorem slotClock_slots (h : run.slot t = true) : run.slotClock (run.slots t) = t := Nat.nth_count h

/-- What a slot brings about and what stays until the next one. -/
theorem slots_induction {P : ℕ → Prop} (start : ∀ t, run.slot t = true → run.slots t = n → P (t + 1))
    (wait : ∀ t, run.slot t = false → run.slots t = n + 1 → P t → P (t + 1)) :
    ∀ t, run.slots t = n + 1 → P t := by
  intro t
  induction t with
  | zero =>
    intro h
    exact absurd h (Nat.succ_ne_zero n).symm
  | succ t ih =>
    intro h
    cases slot : run.slot t with
    | true =>
      rw [slots_succ_of_slot slot, Nat.add_right_cancel_iff] at h
      exact start t slot h
    | false =>
      rw [slots_succ_of_not_slot slot] at h
      exact wait t slot h (ih h)

/-- Every slot has its clock. -/
theorem exists_slot {u : ℕ} (h : n < run.slots u) : ∃ t < u, run.slot t = true ∧ run.slots t = n := by
  induction u with
  | zero => exact absurd h (Nat.not_lt_zero n)
  | succ u ih =>
    cases slot : run.slot u with
    | false =>
      rw [slots_succ_of_not_slot slot] at h
      obtain ⟨t, before, here⟩ := ih h
      exact ⟨t, Nat.lt_succ_of_lt before, here⟩
    | true =>
      rw [slots_succ_of_slot slot] at h
      rcases Nat.lt_succ_iff_lt_or_eq.mp h with earlier | rfl
      · obtain ⟨t, before, here⟩ := ih earlier
        exact ⟨t, Nat.lt_succ_of_lt before, here⟩
      · exact ⟨u, Nat.lt_succ_self u, slot, rfl⟩

/-- Before the first slot the pipeline is empty. -/
theorem issue_of_no_slot (h : run.slots t = 0) : (run.mem t).issue = false := by
  have start : (Cpu.regPath (run.state t)).p = run.regStart.p := by
    rw [regPath_state, h]
    rfl
  have empty : run.regStart.p = pipelineReset := rfl
  have here : (run.state t).dec.pipeline = pipelineReset := start.trans empty
  rw [mem, here]
  rfl

end Slots

/-! ### One clock -/

section Clock

variable {run bytes} {t n : ℕ}

theorem memory_succ_of_idle (h : (run.dataO t).en = false) :
    run.memory bytes (t + 1) = run.memory bytes t := by
  rw [memory, h, Bool.false_and, Bool.false_and, if_neg Bool.false_ne_true]

/-- A request that ends leaves the memory as it was to. -/
theorem memory_succ_of_ack (h : (run.clk t).dbI.ack = true) :
    run.memory bytes (t + 1) = run.settled bytes t := by
  rw [memory, h, Bool.and_true, settled]

theorem settled_succ_of_not_slot (h : run.slot t = false) :
    run.settled bytes (t + 1) = run.settled bytes t := by
  rw [settled, dataO_succ_of_not_slot h]
  cases en : (run.dataO t).en with
  | false =>
    rw [memory_succ_of_idle en, settled, en, Bool.false_and, if_neg Bool.false_ne_true, en,
      Bool.false_and, if_neg Bool.false_ne_true]
  | true =>
    cases ack : (run.clk t).dbI.ack with
    | true => rw [memory_succ_of_ack ack]; rfl
    | false =>
      rw [memory, ack, Bool.and_false, if_neg Bool.false_ne_true, Bool.and_false,
        if_neg Bool.false_ne_true, settled]

/-- At the end of a slot nothing is under way. -/
theorem memory_succ_of_slot (h : run.slot t = true) :
    run.memory bytes (t + 1) = run.settled bytes t := by
  cases en : (run.dataO t).en with
  | true => exact memory_succ_of_ack (acked_of_slot h en)
  | false => rw [memory_succ_of_idle en, settled, en, Bool.false_and, if_neg Bool.false_ne_true]

/-- The request that a slot starts. -/
theorem dataO_succ_of_issue (h : run.slot t = true) (issue : (run.mem t).issue = true) :
    run.dataO (t + 1) = toDataO (run.mem t) (Cpu.ctrl run.coproDecode (run.state t)).coproc
      (run.memAd t) (run.memDw t) := by
  have slot : Cpu.slot (run.state t) (run.clk t) = true := h
  have drives : drivesData (Cpu.ctrl run.coproDecode (run.state t)) = true := by
    have here : (Cpu.ctrl run.coproDecode (run.state t)).mem.issue = true := issue
    rw [drivesData, here, Bool.true_or]
  rw [dataO, state_succ, Cpu.dataO_step, slot, drives]
  rfl

theorem settled_succ_of_slot (h : run.slot t = true) : run.settled bytes (t + 1) =
    if (run.mem t).issue && (run.mem t).wr then
      storeAt (run.settled bytes t) (run.mem t).size (run.memAd t) (run.memDw t)
    else run.settled bytes t := by
  rw [settled, memory_succ_of_slot h]
  obtain ⟨en, wr⟩ := dataO_succ_of_slot h
  cases issue : (run.mem t).issue with
  | false =>
    rw [en, issue, Bool.false_and, Bool.false_and, if_neg Bool.false_ne_true,
      if_neg Bool.false_ne_true]
  | true =>
    rw [en, issue, wr issue]
    cases write : (run.mem t).wr with
    | false => rfl
    | true =>
      rw [dataO_succ_of_issue h issue]
      exact busWrite_toDataO _ issue write

end Clock

/-- The memory with the request under way is the one after all lines that made one. -/
theorem settled_eq (t : ℕ) : run.settled bytes t = run.programMem bytes (run.slots t - 1) := by
  induction t with
  | zero => rfl
  | succ t ih =>
    cases slot : run.slot t with
    | false => rw [settled_succ_of_not_slot slot, slots_succ_of_not_slot slot, ih]
    | true =>
      rw [settled_succ_of_slot slot, slots_succ_of_slot slot, ih, Nat.add_sub_cancel]
      rcases Nat.eq_zero_or_pos (run.slots t) with first | later
      · rw [issue_of_no_slot first, Bool.false_and, if_neg Bool.false_ne_true, first]
      · obtain ⟨n, hn⟩ := Nat.exists_eq_succ_of_ne_zero later.ne'
        have clock := slotClock_slots slot
        rw [hn] at clock
        rw [hn, Nat.succ_sub_one, programMem, clock]

/-! ### Lines -/

section Lines

variable {run bytes} {p t : ℕ}

/-- What a line does to the memory. -/
theorem Executes.programMem_eq {bankA bankB : Fin 21 → BitVec 32}
    (cleared : run.regs = RegisterFile.reset bankA bankB) (h : run.Executes p t)
    (seq : Sequential (microcodeLine (run.op p).addr)) :
    run.programMem bytes (run.slots p + 1) =
      match (run.lineAt p).request (run.codeAt p) (run.values p t) with
      | some (.store size addr data) => storeAt (run.programMem bytes (run.slots p)) size addr data
      | _ => run.programMem bytes (run.slots p) := by
  have noW : (run.lineAt p).zSel ≠ .selWbus := seq.zbus
  have clock := slotClock_slots h.slot
  rw [h.next] at clock
  have ad : run.memAd t = _ := h.maAd_eq cleared noW
  have dw : run.memDw t = _ := h.maDw_eq cleared noW
  rw [programMem, clock, h.mem_eq, ad, dw, Line.request]
  cases (run.lineAt p).maIssue with
  | false => rfl
  | true => cases (run.lineAt p).maWr <;> rfl

/-- Between its request and the next slot a load is under way, or its datum waits. -/
def LoadUnderWay (run : CpuRun) (bytes : ByteMemory) (size : MemSize) (addr value : BitVec 32) (t : ℕ) :
    Prop :=
  ((run.dataO t).en = true ∧ (run.dataO t).wr = false ∧ (run.dataO t).a = addr ∧
      (run.state t).data.this.dataOSize = size ∧ loadAt (run.memory bytes t) size addr = value) ∨
    ((run.dataO t).en = false ∧ (run.state t).data.this.mEn = true ∧
      (run.state t).data.this.mDrNext = value)

section UnderWay

variable {size : MemSize} {addr value : BitVec 32}

theorem datapath_succ (t : ℕ) : (run.state (t + 1)).data.this =
    process (run.state t).data.this (Cpu.ctrl run.coproDecode (run.state t))
      (Cpu.decodeCtrl run.coproDecode (run.state t) (run.clk t))
      (Cpu.processI run.coproDecode (run.state t) (run.clk t)) (run.clk t).datapathI := rfl

theorem dataAcked_eq : dataAcked (run.state t).data.this (run.clk t).datapathI =
    ((run.dataO t).en && (run.clk t).dbI.ack) := rfl

/-- The request of a load. -/
theorem loadUnderWay_of_slot (slot : run.slot t = true) (issue : (run.mem t).issue = true)
    (read : (run.mem t).wr = false) :
    run.LoadUnderWay bytes (run.mem t).size (run.memAd t)
      (loadAt (run.settled bytes t) (run.mem t).size (run.memAd t)) (t + 1) := by
  obtain ⟨en, wr⟩ := dataO_succ_of_slot slot
  have here : slotO (run.state t).data.this (run.clk t).datapathI = true := slot
  have drives : drivesData (Cpu.ctrl run.coproDecode (run.state t)) = true := by
    have here : (Cpu.ctrl run.coproDecode (run.state t)).mem.issue = true := issue
    rw [drivesData, here, Bool.true_or]
  refine .inl ⟨en.trans issue, (wr issue).trans read, ?_, ?_, ?_⟩
  · rw [dataO_succ_of_issue slot issue]
    exact a_toDataO issue
  · rw [datapath_succ, process_dataOSize, here, drives]
    rfl
  · rw [memory_succ_of_slot slot]

/-- The answer of the memory to a load. -/
theorem dataWord_of_load (backed : run.Backed bytes) (en : (run.dataO t).en = true)
    (wr : (run.dataO t).wr = false) (ack : (run.clk t).dbI.ack = true) :
    dataWord (run.state t).data.this (run.clk t).datapathI =
      some (loadAt (run.memory bytes t) (run.state t).data.this.dataOSize (run.dataO t).a) := by
  have acked : dataAcked (run.state t).data.this (run.clk t).datapathI = true := by
    rw [dataAcked_eq, en, ack]
    rfl
  have d : (run.clk t).datapathI.dbI.d = _ := backed t en wr ack
  rw [dataWord, acked, if_pos rfl, d]
  exact congrArg some (alignReadData_busRead _ (run.dataO t) _)

theorem LoadUnderWay.wait (backed : run.Backed bytes)
    (h : run.LoadUnderWay bytes size addr value t) (slot : run.slot t = false) :
    run.LoadUnderWay bytes size addr value (t + 1) := by
  have here : slotO (run.state t).data.this (run.clk t).datapathI = false := slot
  have dataO := dataO_succ_of_not_slot slot
  rw [LoadUnderWay, datapath_succ, process_mEn, process_dataOSize, here,
    process_mDrNext_of_not_slot _ _ _ _ _ here, dataAcked_eq, Bool.false_and,
    if_neg Bool.false_ne_true, Bool.not_false, Bool.and_true, dataO]
  rcases h with ⟨en, wr, a, hsize, word⟩ | ⟨en, waits, word⟩
  · cases ack : (run.clk t).dbI.ack with
    | false =>
      rw [Bool.and_false, if_neg Bool.false_ne_true]
      refine .inl ⟨en, wr, a, hsize, ?_⟩
      rw [memory, ack, Bool.and_false, if_neg Bool.false_ne_true, word]
    | true =>
      rw [en, dataWord_of_load backed en wr ack, hsize, a, word]
      exact .inr ⟨rfl, rfl, rfl⟩
  · have none : dataWord (run.state t).data.this (run.clk t).datapathI = none := by
      rw [dataWord, dataAcked_eq, en, Bool.false_and, if_neg Bool.false_ne_true]
    rw [en, none, Bool.false_and, if_neg Bool.false_ne_true, Bool.false_or]
    exact .inr ⟨en, waits, word⟩

/-- The slot behind it takes the datum. -/
theorem LoadUnderWay.slot (backed : run.Backed bytes)
    (h : run.LoadUnderWay bytes size addr value t) (slot : run.slot t = true) :
    (run.state (t + 1)).data.this.mDr = value := by
  have here : slotO (run.state t).data.this (run.clk t).datapathI = true := slot
  rw [datapath_succ, process_mDr, here, if_pos rfl, dataReady]
  rcases h with ⟨en, wr, a, hsize, word⟩ | ⟨en, waits, word⟩
  · rw [dataWord_of_load backed en wr (acked_of_slot slot en), hsize, a]
    exact word
  · have none : dataWord (run.state t).data.this (run.clk t).datapathI = none := by
      rw [dataWord, dataAcked_eq, en, Bool.false_and, if_neg Bool.false_ne_true]
    rw [none, waits, if_pos rfl]
    exact word

end UnderWay

/-- A load takes the datum of the memory that the lines before it left. -/
theorem Executes.loaded {bankA bankB : Fin 21 → BitVec 32}
    (cleared : run.regs = RegisterFile.reset bankA bankB) (backed : run.Backed bytes)
    (h : run.Executes p t) (seq : Sequential (microcodeLine (run.op p).addr))
    {size : MemSize} {addr : BitVec 32}
    (load : (run.lineAt p).request (run.codeAt p) (run.values p t) = some (.load size addr)) {u : ℕ}
    (later : run.slots u = run.slots p + 3) :
    (run.state u).data.this.mDr = loadAt (run.programMem bytes (run.slots p)) size addr := by
  have noW : (run.lineAt p).zSel ≠ .selWbus := seq.zbus
  have ad : run.memAd t = (run.lineAt p).addr (run.codeAt p) (run.values p t) := h.maAd_eq cleared noW
  have line : (run.lineAt p).maIssue = true ∧ (run.lineAt p).maWr = false ∧
      (run.lineAt p).size = size ∧ (run.lineAt p).addr (run.codeAt p) (run.values p t) = addr := by
    rw [Line.request] at load
    split_ifs at load with issue write
    · cases load
    · simp only [Option.some.injEq, MemOp.load.injEq] at load
      exact ⟨issue, Bool.eq_false_iff.mpr write, load⟩
  obtain ⟨issue, read, hsize, haddr⟩ := line
  -- the request, up to the slot that takes the datum
  have underWay : ∀ x, run.slots x = run.slots p + 1 + 1 → run.LoadUnderWay bytes size addr
      (loadAt (run.programMem bytes (run.slots p)) size addr) x := by
    refine slots_induction ?_ fun x wait _ under => under.wait backed wait
    intro x here before
    obtain rfl : x = t := by
      rw [← slotClock_slots here, before, ← h.next, slotClock_slots h.slot]
    have start : run.LoadUnderWay bytes _ _ _ _ :=
      loadUnderWay_of_slot here (by rw [h.mem_eq]; exact issue) (by rw [h.mem_eq]; exact read)
    rw [settled_eq, h.next, Nat.add_sub_cancel, ad, haddr, h.mem_eq] at start
    rw [← hsize]
    exact start
  have taken : ∀ x, run.slots x = run.slots p + 2 + 1 →
      (run.state x).data.this.mDr = loadAt (run.programMem bytes (run.slots p)) size addr := by
    refine slots_induction (fun x here before => (underWay x before).slot backed here) ?_
    intro x wait _ before
    have here : slotO (run.state x).data.this (run.clk x).datapathI = false := wait
    rw [datapath_succ, process_mDr, here, if_neg Bool.false_ne_true, before]
  exact taken u later

end Lines

end CpuRun

end JCore
