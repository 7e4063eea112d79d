import JCore.Core.Cpu
import JCore.Decode.Events

/-!
# Events of the CPU

The source of the events sees `event_o.ack` and, of what the acknowledged events lead
to, the operations with their vectors and the interrupt mask. The data path drives
`if_stall` low, on which the one acknowledgement of an event rests.

The lines of a reset acknowledge the event for which the reset is taken. After `rst`
the decoder begins with the same lines, and acknowledges what is there without having
taken it.

## Main results

* `Cpu.events_acknowledged_once`: what holds of every event after the first slot
* `Cpu.reset_acknowledges`: it does not hold of an event that is there at the reset
-/

namespace JCore

namespace Cpu

variable (coproDecode : Bool) (start : Cpu) (clk : ℕ → CpuI)

/-- The decoder's run within that of the CPU. -/
def romRun : RomRun where
  start := start.dec
  clk t :=
    (decoderI (run coproDecode start clk t) (clk t),
      tBcc coproDecode (run coproDecode start clk t) (clk t))

/-- The output `event_o.ack`. -/
def eventAck (t : ℕ) : Bool :=
  let this := run coproDecode start clk t
  DecodeCore.eventAck (decoderI this (clk t)).front
    (Decoder.coreI this.dec (decoderI this (clk t)) (line coproDecode this (clk t)))
    (slot this (clk t))

/-- The source holds an event until it is acknowledged. -/
def EventsHeld : Prop :=
  ∀ t, (clk t).eventI.en = true → eventAck coproDecode start clk t = false →
    (clk (t + 1)).eventI = (clk t).eventI

/-- The interrupt mask that `SEL_INT_MASK` writes is the level of an interrupt taken. -/
def LevelWritten : Prop :=
  ∀ t, slot (run coproDecode start clk t) (clk t) = true →
    (ctrl coproDecode (run coproDecode start clk t)).sr.sel = .selIntMask →
    ∃ m u, u < t ∧ (∀ j, u < j → j < t → slot (run coproDecode start clk j) (clk j) = false) ∧
      (romRun coproDecode start clk).toRun.Chosen m u ∧ (romRun coproDecode start clk).Taken m ∧
      (clk m).eventI.cmd = .interrupt ∧
      (srC coproDecode (run coproDecode start clk t) (clk t)).intMask = (clk m).eventI.lvl

variable {coproDecode start clk}

theorem state_romRun (t : ℕ) :
    (romRun coproDecode start clk).state t = (run coproDecode start clk t).dec := by
  induction t with
  | zero => rfl
  | succ t ih =>
    show Decoder.romStep ((romRun coproDecode start clk).state t) _ _ = _
    rw [ih]
    rfl

theorem eventAck_romRun (t : ℕ) :
    (romRun coproDecode start clk).eventAck t = eventAck coproDecode start clk t := by
  rw [RomRun.eventAck, RomRun.line, state_romRun]
  rfl

theorem eventsHeld_romRun (held : EventsHeld coproDecode start clk) :
    (romRun coproDecode start clk).EventsHeld := fun t hen hack =>
  held t hen ((eventAck_romRun t).symm.trans hack)

theorem levelWritten_of_eventsOnce {excused : ℕ → Prop}
    (h : (romRun coproDecode start clk).EventsOnce excused) :
    LevelWritten coproDecode start clk := by
  intro t hslot hsel
  have hlevel := h.level t
  rw [state_romRun] at hlevel
  obtain ⟨m, u, hut, hwait, under, htaken, hcmd, hlvl⟩ := hlevel hsel
  refine ⟨m, u, hut, hwait, under, htaken, hcmd, ?_⟩
  rw [srC, if_pos hslot, Datapath.nextSr, hsel]
  exact hlvl

variable (coproDecode clk)

/-- In every run from the reset whose source holds the events, each event taken is
acknowledged in one slot, no event other than a break is acknowledged that was not
taken, except by the reset itself in the first slot, and what was taken keeps vector
and level. -/
theorem events_acknowledged_once (regs : RegisterFile 5 21 32)
    (held : EventsHeld coproDecode (reset regs) clk) :
    ((romRun coproDecode (reset regs) clk).EventsOnce fun b =>
        ∀ j < b, slot (run coproDecode (reset regs) clk j) (clk j) = false) ∧
      LevelWritten coproDecode (reset regs) clk := by
  have honce := (romRun coproDecode (reset regs) clk).eventsOnce rfl
    (eventsHeld_romRun held) fun _ => rfl
  exact ⟨honce, levelWritten_of_eventsOnce honce⟩

/-- An interrupt that does not go away, on a bus without wait states. -/
def steadyInterrupt : CpuI where
  dbI := { d := 0, ack := true }
  instI := { d := 0x0009, ack := true }
  debugI := { en := false, cmd := .break, ir := 0, d := 0, dEn := false }
  copD := 0
  eventI := { en := true, cmd := .interrupt, vec := 0x12, msk := true, lvl := 0xf }
  macBusy := false
  mach := 0
  macl := 0

/-- Registers that are all zero. -/
def zeroRegs : RegisterFile 5 21 32 := RegisterFile.reset (fun _ => 0) fun _ => 0

theorem events_acknowledged_once_steady :
    ((romRun true (reset zeroRegs) fun _ => steadyInterrupt).EventsOnce fun b =>
        ∀ j < b, slot (run true (reset zeroRegs) (fun _ => steadyInterrupt) j) steadyInterrupt =
          false) ∧
      LevelWritten true (reset zeroRegs) fun _ => steadyInterrupt :=
  events_acknowledged_once true (fun _ => steadyInterrupt) zeroRegs fun _ _ _ => rfl

/-- The reset acknowledges an interrupt that is there in the first slot, and its
operation was not selected. -/
theorem reset_acknowledges :
    ¬∀ (coproDecode : Bool) (clk : ℕ → CpuI) (regs : RegisterFile 5 21 32),
      EventsHeld coproDecode (reset regs) clk →
        ((romRun coproDecode (reset regs) clk).EventsOnce fun _ => False) ∧
          LevelWritten coproDecode (reset regs) clk := by
  intro h
  have hsteady := (h true (fun _ => steadyInterrupt) zeroRegs fun _ _ _ => rfl).1
  have hack : (romRun true (reset zeroRegs) fun _ => steadyInterrupt).eventAck 0 = true := by
    decide +kernel
  obtain ⟨m, htaken, hacked⟩ := (hsteady.selected 0 hack rfl (by decide)).resolve_left id
  obtain rfl : m = 0 := Nat.le_zero.mp hacked.under.le
  exact absurd htaken.boundary (by decide +kernel)

end Cpu

end JCore
