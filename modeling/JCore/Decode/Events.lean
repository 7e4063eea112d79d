import JCore.Decode.DelaySlot
import JCore.Decode.Entry

/-!
# Events

The operation of an event acknowledges it, in its first line for an interrupt and
an error, in its second for a reset and a break. Nothing stalls these lines, since
they use no register, do not wait for the multiplier, and the data path never asks
for a stall of the fetch. So each of them is presented in one slot.

## Main definitions

* `DecoderRun.Chosen`: the operation chosen in one slot is under way in a clock
* `RomRun.Taken`: an event's operation is chosen
* `RomRun.EventsHeld`: the source holds an event until it is acknowledged
* `RomRun.EventsOnce`: what then holds

## Main results

* `RomRun.line_of_event`: the operation that a line of an event belongs to
* `RomRun.eventsOnce`: `EventsOnce` in runs from the reset state
-/

namespace JCore

/-! ### The operation under way -/

namespace DecoderRun

variable (run : DecoderRun)

/-- The operation chosen in slot `m` is under way in clock `t`. -/
structure Chosen (m t : ℕ) : Prop where
  le : m ≤ t
  slot : (run.clk m).1.slot = true
  boundary : run.boundary m = true
  openFor : run.OpenFor m (t - m)

/-- The operation that the run starts within is under way in clock `t`. -/
structure Initial (t : ℕ) : Prop where
  inside : run.boundary 0 = false
  openFor : run.OpenFor 0 t

/-- Which line of the operation chosen in slot `m` is presented in clock `t`. -/
def lineNumber (m t : ℕ) : ℕ := run.issuedCount m (t - m)

variable {run} {m d s t : ℕ}

theorem OpenFor.succ (h : run.OpenFor m d)
    (last : run.issued (m + d) = true → (run.clk (m + d)).2.dispatch = false) :
    run.OpenFor m (d + 1) := by
  intro j hj
  rcases Nat.lt_succ_iff_lt_or_eq.mp hj with hlt | rfl
  · exact h j hlt
  · exact last

/-- Outside of a boundary no line that dispatches was issued last. -/
theorem dispatch_of_not_boundary_succ (h : run.boundary (t + 1) = false)
    (issued : run.issued t = true) : (run.clk t).2.dispatch = false := by
  have hslot : (run.clk t).1.slot = true := by
    rw [DecoderRun.issued, Bool.and_eq_true] at issued
    exact issued.1
  rwa [boundary_succ hslot, issued, Bool.true_and] at h

theorem boundary_of_not_boundary_succ (h : run.boundary (t + 1) = false)
    (slot : (run.clk t).1.slot = false) : run.boundary t = false := by
  rwa [DecoderRun.boundary, state_succ_of_not_slot slot, ← DecoderRun.boundary] at h

/-- What is presented outside of a boundary was chosen before, or the run started
with it. -/
theorem origin_of_not_boundary (h : run.boundary t = false) :
    (∃ m, run.Chosen m t) ∨ run.Initial t := by
  induction t with
  | zero => exact .inr ⟨h, fun j hj => absurd hj (Nat.not_lt_zero j)⟩
  | succ t ih =>
    have last := dispatch_of_not_boundary_succ h
    rcases hb : run.boundary t with _ | _
    · rcases ih hb with ⟨m, hm⟩ | hinit
      · refine .inl ⟨m, hm.le.trans (Nat.le_succ t), hm.slot, hm.boundary, ?_⟩
        rw [Nat.succ_sub hm.le]
        exact hm.openFor.succ (by rwa [Nat.add_sub_cancel' hm.le])
      · exact .inr ⟨hinit.inside, hinit.openFor.succ (by rwa [Nat.zero_add])⟩
    · have hslot : (run.clk t).1.slot = true := by
        by_contra hslot
        rw [boundary_of_not_boundary_succ h (Bool.eq_false_iff.mpr hslot)] at hb
        exact Bool.false_ne_true hb
      refine .inl ⟨t, Nat.le_succ t, hslot, hb, ?_⟩
      rw [Nat.add_sub_cancel_left]
      exact OpenFor.succ (fun j hj => absurd hj (Nat.not_lt_zero j)) last

theorem Chosen.refl (slot : (run.clk t).1.slot = true) (here : run.boundary t = true) :
    run.Chosen t t :=
  ⟨le_rfl, slot, here, by
    rw [Nat.sub_self]
    exact fun j hj => absurd hj (Nat.not_lt_zero j)⟩

/-- What is presented in a slot was chosen in it or before, or the run started
with it. -/
theorem origin_of_slot (slot : (run.clk t).1.slot = true) :
    (∃ m, run.Chosen m t) ∨ run.Initial t := by
  rcases hb : run.boundary t with _ | _
  · exact origin_of_not_boundary hb
  · exact .inl ⟨t, .refl slot hb⟩

theorem Chosen.mono (h : run.Chosen m t) (hms : m ≤ s) (hst : s ≤ t) : run.Chosen m s :=
  ⟨hms, h.slot, h.boundary, h.openFor.mono (Nat.sub_le_sub_right hst m)⟩

theorem Chosen.presented (h : run.Chosen m t) :
    run.presented t = (run.presented m).atLine (run.lineNumber m t) := by
  have hline := (presented_eq (.inl h.slot) h.openFor).1
  rwa [Nat.add_sub_cancel' h.le] at hline

theorem Chosen.not_boundary (h : run.Chosen m t) (hlt : m < t) : run.boundary t = false := by
  have hinside := (presented_eq (.inl h.slot) h.openFor).2 (Nat.sub_pos_of_lt hlt)
  rwa [Nat.add_sub_cancel' h.le] at hinside

theorem Initial.presented (h : run.Initial t) :
    run.presented t = run.start.core.op.atLine (run.lineNumber 0 t) := by
  have hline := (presented_eq (.inr h.inside) h.openFor).1
  rwa [Nat.zero_add, presented_of_not_boundary h.inside] at hline

theorem Chosen.extend (h : run.Chosen m t)
    (last : run.issued t = true → (run.clk t).2.dispatch = false) : run.Chosen m (t + 1) := by
  refine ⟨h.le.trans (Nat.le_succ t), h.slot, h.boundary, ?_⟩
  rw [Nat.succ_sub h.le]
  exact h.openFor.succ (by rwa [Nat.add_sub_cancel' h.le])

/-! ### Line numbers -/

@[simp] theorem lineNumber_self (m : ℕ) : run.lineNumber m m = 0 := by
  simp [lineNumber, issuedCount]

theorem lineNumber_succ (h : m ≤ t) :
    run.lineNumber m (t + 1) = run.lineNumber m t + (run.issued t).toNat := by
  rw [lineNumber, Nat.succ_sub h, issuedCount_succ, Nat.add_sub_cancel' h, lineNumber]

theorem lineNumber_mono (hst : s ≤ t) : run.lineNumber m s ≤ run.lineNumber m t :=
  Nat.count_monotone _ (Nat.sub_le_sub_right hst m)

/-- After an issue the line number is greater. -/
theorem lineNumber_lt (hms : m ≤ s) (hst : s < t) (issued : run.issued s = true) :
    run.lineNumber m s < run.lineNumber m t := by
  calc run.lineNumber m s < run.lineNumber m (s + 1) := by
        rw [lineNumber_succ hms, issued]
        exact Nat.lt_succ_self _
    _ ≤ run.lineNumber m t := lineNumber_mono hst

/-- Without a slot between the line number stays. -/
theorem lineNumber_eq_of_wait (hms : m ≤ s) (hst : s ≤ t)
    (wait : ∀ j, s ≤ j → j < t → (run.clk j).1.slot = false) :
    run.lineNumber m t = run.lineNumber m s := by
  induction t, hst using Nat.le_induction with
  | base => rfl
  | succ t hst ih =>
    rw [lineNumber_succ (hms.trans hst), ih fun j hj hjt => wait j hj (Nat.lt_succ_of_lt hjt),
      DecoderRun.issued, wait t hst (Nat.lt_succ_self t)]
    rfl

/-- The lines before the one presented were issued, and none of them dispatched. -/
theorem exists_issued_of_lt {k : ℕ} (hmt : m ≤ t) (hk : k < run.lineNumber m t) :
    ∃ j, m ≤ j ∧ j < t ∧ run.lineNumber m j = k ∧ run.issued j = true := by
  induction t, hmt using Nat.le_induction with
  | base => simp at hk
  | succ t hmt ih =>
    rcases Nat.lt_or_ge k (run.lineNumber m t) with hlt | hge
    · obtain ⟨j, hmj, hjt, hrest⟩ := ih hlt
      exact ⟨j, hmj, Nat.lt_succ_of_lt hjt, hrest⟩
    · rw [lineNumber_succ hmt] at hk
      rcases hi : run.issued t with _ | _
      · rw [hi] at hk
        exact absurd hk (Nat.not_lt.mpr hge)
      · rw [hi] at hk
        exact ⟨t, hmt, Nat.lt_succ_self t, le_antisymm hge (Nat.lt_succ_iff.mp hk), hi⟩

end DecoderRun

/-! ### The microcode of the events -/

section Microcode

open DecodeTable

/-- The first line of an event's operation. -/
def eventEntry (cmd : CpuEventCmd) : BitVec 8 := systemInstrRomAddrs (systemEventInstrs cmd)

/-- The number of its last line. -/
def lastLine : CpuEventCmd → ℕ
  | .interrupt => 8
  | .error => 8
  | .break => 3
  | .resetCpu => 6

/-- The number of the line that acknowledges the event. -/
def ackLine : CpuEventCmd → ℕ
  | .interrupt => 0
  | .error => 0
  | .break => 1
  | .resetCpu => 1

/-- The event whose operation a line belongs to. -/
def eventOfLine (addr : BitVec 8) : Option CpuEventCmd :=
  if addr < 0xe1 then none
  else if addr < 0xe8 then some .resetCpu
  else if addr < 0xf1 then some .interrupt
  else if addr < 0xfa then some .error
  else if addr < 0xfe then some .break
  else none

/-- The line uses no register and does not wait for the multiplier. -/
def prompt (line : BitVec 75) : Bool :=
  xbusSel line != .selReg && ybusSel line != .selReg && !wrregZ line && aluinySel line != .selR0 &&
    !macStallSense line

/-- What the microcode promises about line `n` of an event's operation. -/
structure EventLine (cmd : CpuEventCmd) (n : ℕ) (addr : BitVec 8) : Prop where
  dispatch : ∀ t, dispatch (microcodeLine addr) t = true ↔ n = lastLine cmd
  eventAck0 : eventAck0 (microcodeLine addr) = true ↔ cmd ≠ .break ∧ n = ackLine cmd
  debug : debug (microcodeLine addr) = true ↔ cmd = .break ∧ n = ackLine cmd
  ilevelCap : cmd = .interrupt → (ilevelCap (microcodeLine addr) = true ↔ n = 0)
  intMask : srSel (microcodeLine addr) = .selIntMask → cmd = .interrupt ∧ 0 < n
  prompt : n ≤ ackLine cmd → prompt (microcodeLine addr) = true
  event : eventOfLine addr = some cmd

instance (cmd : CpuEventCmd) (n : ℕ) (addr : BitVec 8) : Decidable (EventLine cmd n addr) :=
  decidable_of_iff
    ((∀ t, DecodeTable.dispatch (microcodeLine addr) t = true ↔ n = lastLine cmd) ∧
      (DecodeTable.eventAck0 (microcodeLine addr) = true ↔ cmd ≠ .break ∧ n = ackLine cmd) ∧
      (DecodeTable.debug (microcodeLine addr) = true ↔ cmd = .break ∧ n = ackLine cmd) ∧
      (cmd = .interrupt → (DecodeTable.ilevelCap (microcodeLine addr) = true ↔ n = 0)) ∧
      (srSel (microcodeLine addr) = .selIntMask → cmd = .interrupt ∧ 0 < n) ∧
      (n ≤ ackLine cmd → JCore.prompt (microcodeLine addr) = true) ∧ eventOfLine addr = some cmd)
    ⟨fun ⟨h1, h2, h3, h4, h5, h6, h7⟩ => ⟨h1, h2, h3, h4, h5, h6, h7⟩,
      fun ⟨h1, h2, h3, h4, h5, h6, h7⟩ => ⟨h1, h2, h3, h4, h5, h6, h7⟩⟩

theorem eventLine (cmd : CpuEventCmd) (n : ℕ) (h : n ≤ lastLine cmd) :
    EventLine cmd n (eventEntry cmd + BitVec.ofNat 8 n) := by
  have test : ∀ n < lastLine cmd + 1, EventLine cmd n (eventEntry cmd + BitVec.ofNat 8 n) := by
    cases cmd <;> decide +kernel
  exact test n (Nat.lt_succ_of_le h)

/-- Outside of the events no line acknowledges or sets the interrupt mask. -/
theorem silent_of_eventOfLine_none (addr : BitVec 8) (h : eventOfLine addr = none) :
    eventAck0 (microcodeLine addr) = false ∧ srSel (microcodeLine addr) ≠ .selIntMask := by
  have test := forall_addr
    (p := fun addr => eventOfLine addr != none ||
      (!eventAck0 (microcodeLine addr) && srSel (microcodeLine addr) != .selIntMask))
    (by decide +kernel) addr
  simpa [h] using test

/-- A line that need not dispatch is followed by one of the same operation. -/
theorem eventOfLine_succ (addr : BitVec 8) {t : Bool} (h : dispatch (microcodeLine addr) t = false) :
    eventOfLine (addr + 1) = eventOfLine addr := by
  have test := forall_addr
    (p := fun addr => (dispatch (microcodeLine addr) true && dispatch (microcodeLine addr) false) ||
      eventOfLine (addr + 1) == eventOfLine addr)
    (by decide +kernel) addr
  cases t <;> simpa [h] using test

/-- No line up to line `n` of an operation dispatches for certain. -/
def RunsTo (op : Operation) (n : ℕ) : Prop :=
  ∀ k < n, ∃ t, dispatch (microcodeLine (op.atLine k).addr) t = false

variable {op : Operation} {n : ℕ}

theorem RunsTo.eventOfLine_eq (h : RunsTo op n) :
    eventOfLine (op.atLine n).addr = eventOfLine op.addr := by
  induction n with
  | zero => rw [Operation.atLine_zero]
  | succ n ih =>
    obtain ⟨t, ht⟩ := h n (Nat.lt_succ_self n)
    rw [Operation.atLine_succ, ← ih fun k hk => h k (Nat.lt_succ_of_lt hk)]
    exact eventOfLine_succ _ ht

/-- An operation that begins within that of an event stays within. -/
theorem RunsTo.le_lastLine {cmd : CpuEventCmd} {i : ℕ} (h : RunsTo op n) (hi : i ≤ lastLine cmd)
    (entry : op.addr = eventEntry cmd + BitVec.ofNat 8 i) :
    i + n ≤ lastLine cmd ∧ (op.atLine n).addr = eventEntry cmd + BitVec.ofNat 8 (i + n) := by
  have haddr : ∀ k, (op.atLine k).addr = eventEntry cmd + BitVec.ofNat 8 (i + k) := by
    intro k
    rw [Operation.atLine, entry, BitVec.ofNat_add, BitVec.add_assoc]
  refine ⟨?_, haddr n⟩
  by_contra hn
  obtain ⟨t, ht⟩ := h (lastLine cmd - i) (by omega)
  rw [haddr, Nat.add_sub_cancel' hi] at ht
  rw [((eventLine cmd _ le_rfl).dispatch t).mpr rfl] at ht
  exact Bool.false_ne_true ht.symm

end Microcode

/-! ### Where the lines of an event come from -/

section Entry

variable {this : DecodeCoreReg} {front : DispatchI}

theorem eventAddr_of_eventOfLine {addr : BitVec 8} {cmd : CpuEventCmd}
    (h : eventOfLine addr = some cmd) : eventAddr addr = true := by
  have test := forall_addr (p := fun addr => eventOfLine addr == none || eventAddr addr)
    (by decide +kernel) addr
  simpa [h] using test

theorem eventOfLine_eventEntry (cmd : CpuEventCmd) : eventOfLine (eventEntry cmd) = some cmd := by
  cases cmd <;> rfl

/-- An operation chosen among the lines of an event begins with the first of them, and
but for a break the event is the one presented. -/
theorem nextOp_of_eventOfLine {cmd : CpuEventCmd}
    (h : eventOfLine (DecodeCore.nextOp .rom predecodeRomAddr this front).addr = some cmd) :
    (DecodeCore.nextOp .rom predecodeRomAddr this front).addr = eventEntry cmd ∧
      (cmd = .break ∨ DecodeCore.eventTaken this front = true ∧ front.eventI.cmd = cmd) := by
  rcases eventAddr_nextOp (eventAddr_of_eventOfLine h) with htaken | hbreak
  · rw [nextOp_of_eventTaken htaken] at h ⊢
    have hcmd : front.eventI.cmd = cmd := by
      have hentry := eventOfLine_eventEntry front.eventI.cmd
      exact Option.some.inj (hentry.symm.trans h)
    exact ⟨by rw [← hcmd]; rfl, .inr ⟨htaken, hcmd⟩⟩
  · rw [hbreak] at h ⊢
    obtain rfl : CpuEventCmd.break = cmd :=
      Option.some.inj ((eventOfLine_eventEntry .break).symm.trans h)
    exact ⟨rfl, .inl rfl⟩

end Entry

/-! ### Runs of the microcode decoder -/

namespace RomRun

variable (run : RomRun)

/-- The event presented. -/
def event (t : ℕ) : CpuEventI := (run.clk t).1.front.eventI

/-- The operation of the event presented is selected. -/
structure Taken (t : ℕ) : Prop where
  slot : (run.clk t).1.slot = true
  boundary : run.toRun.boundary t = true
  taken : DecodeCore.eventTaken (run.state t).core (run.clk t).1.front = true

/-- The output `event_ack`. -/
def eventAck (t : ℕ) : Bool :=
  DecodeCore.eventAck (run.clk t).1.front
    (Decoder.coreI (run.state t) (run.clk t).1 (run.line t)) (run.clk t).1.slot

/-- The source holds an event until it is acknowledged. -/
def EventsHeld : Prop :=
  ∀ t, (run.event t).en = true → run.eventAck t = false → run.event (t + 1) = run.event t

/-- The data path never asks for a stall of the fetch. -/
def NoIfStall : Prop := ∀ t, (run.clk t).1.ifStall = false

variable {run} {m s t u : ℕ}

theorem presented_toRun (t : ℕ) :
    run.toRun.presented t = Decoder.romOp (run.state t) (run.clk t).1 := by
  rw [DecoderRun.presented, state_toRun]
  rfl

theorem line_eq (t : ℕ) :
    run.line t = DecodeTable.decodeTable (run.toRun.presented t) (run.clk t).2
      (Decoder.romStall (run.state t) (run.clk t).1 (run.clk t).2) := by
  rw [presented_toRun]
  rfl

theorem eventAck_eq (t : ℕ) :
    run.eventAck t = ((run.clk t).1.slot &&
      (DecodeTable.eventAck0 (microcodeLine (run.toRun.presented t).addr) ||
        ((run.event t).en && (run.event t).cmd == .break &&
          DecodeTable.debug (microcodeLine (run.toRun.presented t).addr)))) := by
  rw [eventAck, DecodeCore.eventAck, Decoder.coreI, line_eq]
  rfl

theorem slot_of_eventAck (h : run.eventAck t = true) : (run.clk t).1.slot = true := by
  rw [eventAck_eq, Bool.and_eq_true] at h
  exact h.1

/-- Nothing stalls a prompt line. -/
theorem issued_of_prompt (noIfStall : run.NoIfStall)
    (h : prompt (microcodeLine (run.toRun.presented t).addr) = true) :
    run.toRun.issued t = (run.clk t).1.slot := by
  have hstalled : run.toRun.stalled t = false := by
    rw [DecoderRun.stalled, state_toRun]
    show Decoder.nextIdStall (run.state t) (run.clk t).1 (run.line t) = false
    rw [Decoder.nextIdStall, DecodeCore.nextIdStall, Decoder.coreI, line_eq]
    simp only [prompt, Bool.and_eq_true, bne_iff_ne, Bool.not_eq_true'] at h
    obtain ⟨⟨⟨⟨hx, hy⟩, hz⟩, h0⟩, hmac⟩ := h
    simp [DecodeCore.regConf, DecodeCore.macStall, DecodeTable.decodeTable, DecodeTable.decodeLine,
      hx, hy, hz, h0, hmac, noIfStall t]
  rw [DecoderRun.issued, hstalled]
  exact Bool.and_true _

theorem runsTo_of_openFor {op : Operation}
    (hmt : m ≤ t) (openFor : run.toRun.OpenFor m (t - m))
    (presented : ∀ j, m ≤ j → j ≤ t →
      run.toRun.presented j = op.atLine (run.toRun.lineNumber m j)) :
    RunsTo op (run.toRun.lineNumber m t) := by
  intro k hk
  obtain ⟨j, hmj, hjt, rfl, hissued⟩ := DecoderRun.exists_issued_of_lt hmt hk
  refine ⟨(run.clk j).2, ?_⟩
  have hlast := openFor (j - m) (by omega)
  rw [Nat.add_sub_cancel' hmj] at hlast
  have hdispatch : (run.line j).dispatch = false := hlast hissued
  rw [line_eq, presented j hmj hjt.le] at hdispatch
  exact hdispatch

theorem runsTo_of_chosen (h : run.toRun.Chosen m t) :
    RunsTo (run.toRun.presented m) (run.toRun.lineNumber m t) :=
  runsTo_of_openFor h.le h.openFor fun _ hmj hjt => (h.mono hmj hjt).presented

theorem runsTo_of_initial (h : run.toRun.Initial t) :
    RunsTo run.start.core.op (run.toRun.lineNumber 0 t) :=
  runsTo_of_openFor (Nat.zero_le t) h.openFor fun _ _ hjt =>
    DecoderRun.Initial.presented ⟨h.inside, h.openFor.mono hjt⟩

/-! ### The operation of an event -/

theorem Taken.presented (h : run.Taken m) :
    run.toRun.presented m = DecodeCore.systemOpEvent .rom (run.event m) := by
  rw [DecoderRun.presented_of_boundary h.boundary, state_toRun]
  exact nextOp_of_eventTaken h.taken

theorem Taken.en (h : run.Taken m) : (run.event m).en = true := by
  have htaken := h.taken
  simp only [DecodeCore.eventTaken, Bool.and_eq_true] at htaken
  exact htaken.1.2

theorem Taken.chosen (h : run.Taken m) : run.toRun.Chosen m m :=
  .refl h.slot h.boundary

/-- A line of an event that is presented belongs to an operation chosen for the event,
unless it is a break's. -/
theorem line_of_event {cmd : CpuEventCmd} (under : run.toRun.Chosen m t)
    (h : eventOfLine (run.toRun.presented t).addr = some cmd) :
    EventLine cmd (run.toRun.lineNumber m t) (run.toRun.presented t).addr ∧
      (cmd = .break ∨ run.Taken m ∧ (run.event m).cmd = cmd) := by
  have hruns := runsTo_of_chosen under
  have hnext := DecoderRun.presented_of_boundary under.boundary
  rw [state_toRun] at hnext
  rw [under.presented, hruns.eventOfLine_eq, hnext] at h
  obtain ⟨hentry, horigin⟩ := nextOp_of_eventOfLine h
  rw [← BitVec.add_zero (eventEntry cmd)] at hentry
  obtain ⟨hlast, haddr⟩ := hruns.le_lastLine (Nat.zero_le _) ((congrArg _ hnext).trans hentry)
  rw [Nat.zero_add] at hlast haddr
  refine ⟨?_, horigin.imp_right fun ⟨htaken, hcmd⟩ =>
    ⟨⟨under.slot, under.boundary, htaken⟩, hcmd⟩⟩
  rw [under.presented, haddr]
  exact eventLine cmd _ hlast

theorem Taken.eventLine (h : run.Taken m) (under : run.toRun.Chosen m t) :
    EventLine (run.event m).cmd (run.toRun.lineNumber m t) (run.toRun.presented t).addr := by
  refine (line_of_event under ?_).1
  rw [under.presented, (runsTo_of_chosen under).eventOfLine_eq, h.presented]
  exact eventOfLine_eventEntry _

/-- The operation of an event acknowledges in one of its lines only. -/
theorem Taken.eventAck_eq (h : run.Taken m) (under : run.toRun.Chosen m t)
    (held : (run.event m).cmd = .break → run.toRun.lineNumber m t = ackLine (run.event m).cmd →
      run.event t = run.event m) :
    run.eventAck t = ((run.clk t).1.slot &&
      decide (run.toRun.lineNumber m t = ackLine (run.event m).cmd)) := by
  have hline := h.eventLine under
  have hack := hline.eventAck0
  have hdebug := hline.debug
  rw [RomRun.eventAck_eq]
  congr 1
  by_cases hn : run.toRun.lineNumber m t = ackLine (run.event m).cmd
  · rw [decide_eq_true hn]
    by_cases hbreak : (run.event m).cmd = .break
    · rw [hdebug.mpr ⟨hbreak, hn⟩, held hbreak hn, h.en, hbreak]
      simp
    · rw [hack.mpr ⟨hbreak, hn⟩, Bool.true_or]
  · have hack0 : DecodeTable.eventAck0 (microcodeLine (run.toRun.presented t).addr) = false :=
      Bool.eq_false_iff.mpr fun hline => hn (hack.mp hline).2
    have hdebug0 : DecodeTable.debug (microcodeLine (run.toRun.presented t).addr) = false :=
      Bool.eq_false_iff.mpr fun hline => hn (hdebug.mp hline).2
    rw [hack0, hdebug0, decide_eq_false hn, Bool.and_false, Bool.or_false]

/-- In no other line. -/
theorem Taken.not_eventAck (h : run.Taken m) (under : run.toRun.Chosen m t)
    (hn : run.toRun.lineNumber m t ≠ ackLine (run.event m).cmd) : run.eventAck t = false := by
  rw [h.eventAck_eq under fun _ hsame => absurd hsame hn, decide_eq_false hn, Bool.and_false]

theorem Taken.issued (h : run.Taken m) (noIfStall : run.NoIfStall)
    (under : run.toRun.Chosen m t)
    (hn : run.toRun.lineNumber m t ≤ ackLine (run.event m).cmd) :
    run.toRun.issued t = (run.clk t).1.slot :=
  issued_of_prompt noIfStall ((h.eventLine under).prompt hn)

/-- The operation chosen in slot `m` is acknowledged in slot `b`, for the event it was
chosen for, and in no other. -/
structure AckedIn (run : RomRun) (m b : ℕ) : Prop where
  under : run.toRun.Chosen m b
  ack : run.eventAck b = true
  held : ∀ j, m ≤ j → j ≤ b → run.event j = run.event m
  once : ∀ u, run.toRun.Chosen m u → run.eventAck u = true → u = b

section Held

variable (held : run.EventsHeld) (noIfStall : run.NoIfStall)

include noIfStall in
/-- Before the line that acknowledges each slot issues a line. -/
theorem Taken.lineNumber_lt (h : run.Taken m) (under : run.toRun.Chosen m t) (hms : m ≤ s)
    (hst : s < t) (slot : (run.clk s).1.slot = true)
    (hn : run.toRun.lineNumber m t ≤ ackLine (run.event m).cmd) :
    run.toRun.lineNumber m s < run.toRun.lineNumber m t :=
  DecoderRun.lineNumber_lt hms hst <| by
    have hle : run.toRun.lineNumber m s ≤ run.toRun.lineNumber m t :=
      DecoderRun.lineNumber_mono hst.le
    rw [h.issued noIfStall (under.mono hms hst.le) (hle.trans hn), slot]

include held noIfStall

/-- The event stays until its operation comes to the line that acknowledges it. -/
theorem Taken.event_eq (h : run.Taken m) (under : run.toRun.Chosen m t)
    (hn : run.toRun.lineNumber m t ≤ ackLine (run.event m).cmd) :
    run.event t = run.event m := by
  have hmt := under.le
  induction t, hmt using Nat.le_induction with
  | base => rfl
  | succ t hmt ih =>
    have hprev := under.mono hmt (Nat.le_succ t)
    have hle : run.toRun.lineNumber m t ≤ run.toRun.lineNumber m (t + 1) :=
      DecoderRun.lineNumber_mono (Nat.le_succ t)
    have hsame := ih hprev (hle.trans hn)
    have hquiet : run.eventAck t = false := by
      rcases hs : (run.clk t).1.slot with _ | _
      · rw [RomRun.eventAck_eq, hs, Bool.false_and]
      · have hlt := h.lineNumber_lt noIfStall under hmt (Nat.lt_succ_self t) hs hn
        exact h.not_eventAck hprev (by omega)
    rw [held t (by rw [hsame]; exact h.en) hquiet, hsame]

/-- A slot with the line that acknowledges is the one slot that does. -/
theorem Taken.ackedIn (h : run.Taken m) (under : run.toRun.Chosen m t)
    (slot : (run.clk t).1.slot = true)
    (hn : run.toRun.lineNumber m t = ackLine (run.event m).cmd) : run.AckedIn m t where
  under := under
  ack := by
    rw [h.eventAck_eq under fun _ _ => h.event_eq held noIfStall under hn.le, slot,
      decide_eq_true hn]
    rfl
  held j hmj hjt := h.event_eq held noIfStall (under.mono hmj hjt)
    ((DecoderRun.lineNumber_mono hjt).trans hn.le)
  once u hu hack := by
    have hline : run.toRun.lineNumber m u = ackLine (run.event m).cmd := by
      by_contra hne
      rw [h.not_eventAck hu hne] at hack
      exact Bool.false_ne_true hack
    -- of two slots with one line the first would have issued it
    rcases Nat.lt_trichotomy u t with hlt | heq | hgt
    · have := h.lineNumber_lt noIfStall under hu.le hlt (slot_of_eventAck hack) hn.le
      omega
    · exact heq
    · have := h.lineNumber_lt noIfStall hu under.le hgt slot hline.le
      omega

/-- The acknowledgement comes with the slot after the one in which the operation was
chosen at the latest. -/
theorem Taken.exists_ackedIn (h : run.Taken m) (hmu : m < u) (slot : (run.clk u).1.slot = true) :
    ∃ b ≤ u, run.AckedIn m b := by
  rcases Nat.eq_zero_or_pos (ackLine (run.event m).cmd) with hzero | hpos
  · exact ⟨m, hmu.le, h.ackedIn held noIfStall h.chosen h.slot
      ((DecoderRun.lineNumber_self m).trans hzero.symm)⟩
  · have hone : ackLine (run.event m).cmd = 1 := by
      cases hcmd : (run.event m).cmd <;> simp_all [ackLine]
    -- the first slot after that of the choice
    have hex : ∃ b, m < b ∧ (run.clk b).1.slot = true := ⟨u, hmu, slot⟩
    obtain ⟨hmb, hslot⟩ := Nat.find_spec hex
    have hwait : ∀ j, m + 1 ≤ j → j < Nat.find hex → (run.clk j).1.slot = false := fun j hmj hj =>
      Bool.eq_false_iff.mpr fun hs => Nat.find_min hex hj ⟨hmj, hs⟩
    have hissued : run.toRun.issued m = true := by
      rw [h.issued noIfStall h.chosen (by rw [DecoderRun.lineNumber_self]; exact Nat.zero_le _),
        h.slot]
    have hfirst : run.toRun.Chosen m (m + 1) := by
      refine h.chosen.extend fun _ => ?_
      have hdispatch := ((h.eventLine h.chosen).dispatch (run.clk m).2).not.mpr (by
        rw [DecoderRun.lineNumber_self]
        cases (run.event m).cmd <;> decide)
      show (run.line m).dispatch = false
      rw [line_eq]
      exact Bool.eq_false_iff.mpr hdispatch
    have hunder : ∀ j, m + 1 ≤ j → j ≤ Nat.find hex → run.toRun.Chosen m j := by
      intro j hmj
      induction j, hmj using Nat.le_induction with
      | base => exact fun _ => hfirst
      | succ j hmj ih =>
        intro hj
        refine (ih (Nat.le_of_succ_le hj)).extend fun hi => ?_
        rw [DecoderRun.issued, Bool.and_eq_true] at hi
        exact absurd hi.1 (Bool.eq_false_iff.mp (hwait j hmj hj))
    have hline : run.toRun.lineNumber m (Nat.find hex) = 1 := by
      rw [DecoderRun.lineNumber_eq_of_wait (Nat.le_succ m) hmb hwait,
        DecoderRun.lineNumber_succ le_rfl, hissued, DecoderRun.lineNumber_self]
      rfl
    exact ⟨Nat.find hex, Nat.find_min' hex ⟨hmu, slot⟩,
      h.ackedIn held noIfStall (hunder _ hmb le_rfl) hslot (hline.trans hone.symm)⟩

end Held

/-! ### The operation that the run starts with -/

/-- The lines of the reset from the second one on. -/
theorem initial_eventLine (hstart : run.start = decoderReset) (h : run.toRun.Initial t) :
    EventLine .resetCpu (1 + run.toRun.lineNumber 0 t) (run.toRun.presented t).addr := by
  have hentry : run.start.core.op.addr = eventEntry .resetCpu + BitVec.ofNat 8 1 := by
    rw [hstart]
    rfl
  obtain ⟨hlast, haddr⟩ := (runsTo_of_initial h).le_lastLine (by decide) hentry
  rw [h.presented, show run.toRun.start = run.start from rfl, haddr]
  exact eventLine .resetCpu _ hlast

/-- It acknowledges in the first slot. -/
theorem not_slot_of_initial (hstart : run.start = decoderReset) (noIfStall : run.NoIfStall)
    (h : run.toRun.Initial t)
    (hack : DecodeTable.eventAck0 (microcodeLine (run.toRun.presented t).addr) = true) (hst : s < t) :
    (run.clk s).1.slot = false := by
  have hzero : 1 + run.toRun.lineNumber 0 t = 1 := ((initial_eventLine hstart h).eventAck0.mp hack).2
  by_contra hslot
  have hle : run.toRun.lineNumber 0 s ≤ run.toRun.lineNumber 0 t :=
    DecoderRun.lineNumber_mono hst.le
  have hprompt := (initial_eventLine hstart ⟨h.inside, h.openFor.mono hst.le⟩).prompt
    (by rw [show run.toRun.lineNumber 0 s = 0 by omega]; decide)
  have hlt := DecoderRun.lineNumber_lt (Nat.zero_le s) hst
    ((issued_of_prompt noIfStall hprompt).trans (Bool.not_eq_false _ ▸ hslot))
  omega

/-! ### The level of an interrupt -/

theorem state_succ_of_not_slot (h : (run.clk t).1.slot = false) :
    run.state (t + 1) = run.state t := Decoder.romStep_of_not_slot h

theorem ilevel_succ (h : (run.clk t).1.slot = true) : (run.state (t + 1)).core.ilevel =
    if (run.line t).ilevelCap then (run.event t).lvl else (run.state t).core.ilevel := by
  show (Decoder.romStep _ _ _).core.ilevel = _
  rw [Decoder.core_romStep h]
  rfl

/-- The level is captured in the first line and in no other. -/
theorem Taken.ilevel (h : run.Taken m) (noIfStall : run.NoIfStall)
    (hcmd : (run.event m).cmd = .interrupt) (under : run.toRun.Chosen m t) (hmt : m < t) :
    (run.state t).core.ilevel = (run.event m).lvl := by
  have hcap : ∀ {j}, run.toRun.Chosen m j →
      ((run.line j).ilevelCap = true ↔ run.toRun.lineNumber m j = 0) := fun {j} hj => by
    rw [line_eq]
    exact (h.eventLine hj).ilevelCap hcmd
  induction t, hmt using Nat.le_induction with
  | base =>
    rw [ilevel_succ h.slot, if_pos ((hcap h.chosen).mpr (DecoderRun.lineNumber_self m))]
  | succ t hmt ih =>
    have hprev := under.mono (Nat.le_of_succ_le hmt) (Nat.le_succ t)
    rcases hslot : (run.clk t).1.slot with _ | _
    · rw [state_succ_of_not_slot hslot, ih hprev]
    · have hissued : run.toRun.issued m = true := by
        rw [h.issued noIfStall h.chosen (by rw [DecoderRun.lineNumber_self]; exact Nat.zero_le _),
          h.slot]
      have hpos := DecoderRun.lineNumber_lt le_rfl hmt hissued
      rw [ilevel_succ hslot, if_neg ((hcap hprev).not.mpr (Nat.ne_zero_of_lt hpos)), ih hprev]

/-- The interrupt mask is set from `ilevel` by the line of an interrupt's operation that
entered the execute stage last. -/
theorem intMask_of_pipeline (hstart : run.start = decoderReset) (noIfStall : run.NoIfStall)
    (h : (run.state t).pipeline.ex1Stall.srSel = .selIntMask) :
    ∃ m u, u < t ∧ (∀ j, u < j → j < t → (run.clk j).1.slot = false) ∧ run.toRun.Chosen m u ∧
      run.Taken m ∧ (run.event m).cmd = .interrupt ∧
      (run.state t).core.ilevel = (run.event m).lvl := by
  induction t with
  | zero =>
    rw [show run.state 0 = decoderReset from hstart] at h
    exact absurd h (by decide)
  | succ t ih =>
    -- without a slot the line stays in the pipeline, at a slot it has just been issued
    rcases hslot : (run.clk t).1.slot with _ | _
    · rw [state_succ_of_not_slot hslot] at h ⊢
      obtain ⟨m, u, hut, hwait, hrest⟩ := ih h
      refine ⟨m, u, Nat.lt_succ_of_lt hut, fun j huj hjt => ?_, hrest⟩
      rcases Nat.lt_succ_iff_lt_or_eq.mp hjt with hlt | rfl
      · exact hwait j huj hlt
      · exact hslot
    · have hentered := (run.toRun.pipeline_succ_of_slot hslot).2.2.1
      rw [state_toRun] at hentered
      rw [hentered] at h
      split_ifs at h with hissued
      · have hmask : DecodeTable.srSel (microcodeLine (run.toRun.presented t).addr) =
            .selIntMask := by
          have hline : (run.line t).exStall.srSel = .selIntMask := h
          rwa [line_eq] at hline
        -- it is a line of an event that was taken, or of the reset
        rcases run.toRun.origin_of_slot hslot with ⟨m, under⟩ | hinit
        · rcases hevent : eventOfLine (run.toRun.presented t).addr with _ | cmd
          · exact absurd hmask (silent_of_eventOfLine_none _ hevent).2
          obtain ⟨hline, horigin⟩ := line_of_event under hevent
          obtain ⟨rfl, hpos⟩ := hline.intMask hmask
          obtain ⟨htaken, hcmd⟩ := horigin.resolve_left (by decide)
          -- the mask is not set by the first line, so the level is captured by now
          have hmt : m < t := by
            rcases Nat.lt_or_eq_of_le under.le with hlt | rfl
            · exact hlt
            · rw [DecoderRun.lineNumber_self] at hpos
              exact absurd hpos (Nat.lt_irrefl 0)
          have hcap : (run.line t).ilevelCap = false := by
            rw [line_eq]
            exact Bool.eq_false_iff.mpr ((hline.ilevelCap rfl).not.mpr hpos.ne')
          refine ⟨m, t, Nat.lt_succ_self t, fun j htj hjt => by omega, under, htaken, hcmd, ?_⟩
          rw [ilevel_succ hslot, hcap]
          exact htaken.ilevel noIfStall hcmd under hmt
        · exact absurd ((initial_eventLine hstart hinit).intMask hmask).1 (by decide)
      · exact absurd h (by decide)

/-! ### Every event once -/

/-- What the source of the events can rely on. In an excused slot an event may be
acknowledged that was not taken. -/
structure EventsOnce (run : RomRun) (excused : ℕ → Prop) : Prop where
  /-- an event that is taken is acknowledged in one slot of its operation -/
  once : ∀ m u, run.Taken m → m < u → (run.clk u).1.slot = true → ∃ b ≤ u, run.AckedIn m b
  /-- and it is not taken again before -/
  notAgain : ∀ m m', run.Taken m → run.Taken m' → m < m' → ∃ b < m', run.AckedIn m b
  /-- without an event the one operation of an event that may be selected is the
  break that the debugger asks for -/
  withdrawn : ∀ t cmd, run.toRun.boundary t = true → (run.event t).en = false →
    (run.toRun.presented t).Selects (systemEventInstrs cmd) →
    cmd = .break ∧ (run.clk t).1.front.enterDebug = true
  /-- no event is acknowledged that is not taken -/
  selected : ∀ b, run.eventAck b = true → (run.event b).en = true → (run.event b).cmd ≠ .break →
    excused b ∨ ∃ m, run.Taken m ∧ run.AckedIn m b
  /-- the operation has the vector of the event it was chosen for -/
  code : ∀ m t, run.Taken m → run.toRun.Chosen m t → (run.toRun.presented t).code =
    0x0#4 ++ systemEventCodes (run.event m).cmd ++ (run.event m).vec
  /-- the level that the interrupt mask is set to is that of the interrupt whose
  operation sets it -/
  level : ∀ t, ((run.state t).pipeline.sr (run.state t).core.ilevel).sel = .selIntMask →
    ∃ m u, u < t ∧ (∀ j, u < j → j < t → (run.clk j).1.slot = false) ∧ run.toRun.Chosen m u ∧
      run.Taken m ∧ (run.event m).cmd = .interrupt ∧
      ((run.state t).pipeline.sr (run.state t).core.ilevel).ilevel = (run.event m).lvl

theorem Taken.not_again (h : run.Taken m) (held : run.EventsHeld) (noIfStall : run.NoIfStall)
    (again : run.Taken s) (hms : m < s) : ∃ b < s, run.AckedIn m b := by
  obtain ⟨b, hbs, hack⟩ := h.exists_ackedIn held noIfStall hms again.slot
  refine ⟨b, lt_of_le_of_ne hbs ?_, hack⟩
  rintro rfl
  -- within an operation nothing is chosen
  have hinside := hack.under.not_boundary hms
  rw [again.boundary] at hinside
  exact Bool.false_ne_true hinside.symm

/-- Without an event, the operation of none is selected. -/
theorem not_selects_of_not_en (hb : run.toRun.boundary t = true) (hen : (run.event t).en = false)
    {cmd : CpuEventCmd} (h : (run.toRun.presented t).Selects (systemEventInstrs cmd)) :
    cmd = .break ∧ (run.clk t).1.front.enterDebug = true := by
  have hnot : DecodeCore.eventTaken (run.state t).core (run.clk t).1.front = false := by
    have hen' : (run.clk t).1.front.eventI.en = false := hen
    rw [DecodeCore.eventTaken, hen', Bool.and_false, Bool.false_and]
  rw [DecoderRun.presented_of_boundary hb, state_toRun, DecodeCore.nextOp, if_neg (by
    show ¬DecodeCore.eventTaken (run.state t).core (run.clk t).1.front = true
    rw [hnot]
    exact Bool.false_ne_true)] at h
  split_ifs at h with _ _ hdebug
  · cases cmd <;> exact absurd (selects_systemOpInstr.mp h) (by decide)
  · cases cmd <;> exact absurd (selects_systemOpInstr.mp h) (by decide)
  · rw [Bool.and_eq_true] at hdebug
    refine ⟨?_, hdebug.2⟩
    cases cmd
    case «break» => rfl
    all_goals exact absurd (selects_systemOpInstr.mp h) (by decide)
  · exact absurd h not_selects_normalOp

/-- What acknowledges an event other than a break is the operation taken for it, or in
the first slot the reset that the run starts with. -/
theorem taken_of_eventAck (hstart : run.start = decoderReset) (held : run.EventsHeld)
    (noIfStall : run.NoIfStall) (hack : run.eventAck t = true)
    (hcmd : (run.event t).cmd ≠ .break) :
    (∀ j < t, (run.clk j).1.slot = false) ∨ ∃ m, run.Taken m ∧ run.AckedIn m t := by
  have hslot := slot_of_eventAck hack
  have hline : DecodeTable.eventAck0 (microcodeLine (run.toRun.presented t).addr) = true := by
    rw [eventAck_eq, hslot] at hack
    simpa [hcmd] using hack
  rcases run.toRun.origin_of_slot hslot with ⟨m, under⟩ | hinit
  · rcases hevent : eventOfLine (run.toRun.presented t).addr with _ | cmd
    · rw [(silent_of_eventOfLine_none _ hevent).1] at hline
      exact absurd hline Bool.false_ne_true
    obtain ⟨hpromise, horigin⟩ := line_of_event under hevent
    obtain ⟨hne, hn⟩ := hpromise.eventAck0.mp hline
    obtain ⟨htaken, rfl⟩ := horigin.resolve_left hne
    exact .inr ⟨m, htaken, htaken.ackedIn held noIfStall under hslot hn⟩
  · exact .inl fun j hjt => not_slot_of_initial hstart noIfStall hinit hline hjt

/-- From the reset on every event is acknowledged once, if it is taken. In the first slot
the reset acknowledges whatever event is there. -/
theorem eventsOnce (hstart : run.start = decoderReset) (held : run.EventsHeld)
    (noIfStall : run.NoIfStall) :
    run.EventsOnce fun b => ∀ j < b, (run.clk j).1.slot = false where
  once _ _ h hmu slot := h.exists_ackedIn held noIfStall hmu slot
  notAgain _ _ h again hlt := h.not_again held noIfStall again hlt
  withdrawn _ _ hb hen h := not_selects_of_not_en hb hen h
  selected _ hack _ hcmd := taken_of_eventAck hstart held noIfStall hack hcmd
  code m t h under := by
    rw [under.presented, h.presented]
    rfl
  level t h := by
    refine intMask_of_pipeline hstart noIfStall ?_
    simp only [Pipeline.sr] at h
    split_ifs at h
    exact h

end RomRun

end JCore
