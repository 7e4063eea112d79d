import JCore.Core.Cpu

/-!
# The status register in program order

SR has two writers: the line in the execute stage, and a load that reaches SR
over the W bus two slots later. The microcode keeps them apart: after a line
that loads SR two lines follow that neither touch SR nor depend on T. So the
updates happen in the order of the lines, and T as the decoder reads it, while
the line before is still in the execute stage, is the T of all lines before.

## Main definitions

* `SrPath.step`: one clock of the decoder and the status register
* `SrPath.programSr`: the status register after the first lines, each update made
  in the order of the lines

## Main results

* `sr_load_apart`: the lines after one that loads SR
* `SrPath.Pending.step`, `SrPath.InOrder.step`: what one slot keeps
* `Cpu.sr_program_order`: a run of decoder and data path
-/

namespace JCore

open Datapath DecodeTable

/-! ### The microcode -/

/-- No signal of the line depends on T. -/
def tFree (line : BitVec 75) : Bool :=
  wrpcZ line true == wrpcZ line false && maIssue line true == maIssue line false &&
    ifIssue line true == ifIssue line false && dispatch line true == dispatch line false

theorem decodeLine_of_tFree {line : BitVec 75} (h : tFree line = true) (op : Operation)
    (t t' stall : Bool) : decodeLine line op t stall = decodeLine line op t' stall := by
  simp only [tFree, Bool.and_eq_true, beq_iff_eq] at h
  obtain ⟨⟨⟨hpc, hmem⟩, hfetch⟩, hdisp⟩ := h
  cases t <;> cases t' <;> simp only [decodeLine, hpc, hmem, hfetch, hdisp]

/-- The line leaves SR alone. -/
def srFree (line : BitVec 75) : Bool := srSel line == .selPrev && !wrsrW line

/-- What a line that loads SR is like, and the two lines after it. -/
structure SrLoad (addr : BitVec 8) : Prop where
  srSel : srSel (microcodeLine addr) = .selPrev
  dispatch : ∀ t, dispatch (microcodeLine addr) t = false
  srFree1 : srFree (microcodeLine (addr + 1)) = true
  tFree1 : tFree (microcodeLine (addr + 1)) = true
  dispatch1 : ∀ t, DecodeTable.dispatch (microcodeLine (addr + 1)) t = false
  srFree2 : srFree (microcodeLine (addr + 2)) = true
  tFree2 : tFree (microcodeLine (addr + 2)) = true

/-- A line that loads SR is followed by two lines of its operation that neither
touch SR nor depend on T. -/
theorem srLoad_of_wrsrW (addr : BitVec 8) (h : wrsrW (microcodeLine addr) = true) :
    SrLoad addr := by
  have test := forall_addr (p := fun addr => !wrsrW (microcodeLine addr) ||
      (srSel (microcodeLine addr) == .selPrev &&
        !dispatch (microcodeLine addr) true && !dispatch (microcodeLine addr) false &&
        srFree (microcodeLine (addr + 1)) && tFree (microcodeLine (addr + 1)) &&
        !dispatch (microcodeLine (addr + 1)) true && !dispatch (microcodeLine (addr + 1)) false &&
        srFree (microcodeLine (addr + 2)) && tFree (microcodeLine (addr + 2))))
    (by decide +kernel) addr
  simp only [h, Bool.not_true, Bool.false_or, Bool.and_eq_true, Bool.not_eq_true', beq_iff_eq]
    at test
  obtain ⟨⟨⟨⟨⟨⟨⟨⟨hsel, ht⟩, hf⟩, hfree1⟩, htfree1⟩, ht1⟩, hf1⟩, hfree2⟩, htfree2⟩ := test
  refine ⟨hsel, fun t => ?_, hfree1, htfree1, fun t => ?_, hfree2, htfree2⟩
  · cases t
    · exact hf
    · exact ht
  · cases t
    · exact hf1
    · exact ht1

/-! ### The path of the status register -/

/-- The decoder and the status register behind it. -/
structure SrPath where
  dec : DecoderReg
  sr : Sr

/-- The inputs of a clock, with the values on the buses of the data path. -/
structure SrPathI where
  decI : DecoderI
  v : ProcessI

namespace SrPath

variable (coproDecode : Bool)

section Step

variable (this : SrPath) (i : SrPathI)

/-- SR as a slot leaves it. -/
def srC : Sr := nextSr (Cpu.stageCtrl coproDecode this.dec) i.v this.sr

/-- One slot. The decoder reads T as the slot leaves it. -/
def slotStep : SrPath :=
  { dec := Decoder.romStep this.dec { i.decI with slot := true } (srC coproDecode this i).t
    sr := srC coproDecode this i }

/-- One clock. -/
def step : SrPath := if i.decI.slot then slotStep coproDecode this i else this

end Step

section Slots

variable (s : SrPath) (u : ℕ → SrPathI)

/-- The state before slot `n`. -/
def atSlot : ℕ → SrPath := trace (slotStep coproDecode) s u

/-- T as the decoder reads it in slot `n`. -/
def tAt (n : ℕ) : Bool := (srC coproDecode (atSlot coproDecode s u n) (u n)).t

/-- The line presented in slot `n`. -/
def lineAt (n : ℕ) : TableLine :=
  Decoder.romLine (atSlot coproDecode s u n).dec (u n).decI (tAt coproDecode s u n)

/-- That line enters the pipeline. -/
def issued (n : ℕ) : Bool :=
  !Decoder.romStall (atSlot coproDecode s u n).dec (u n).decI (tAt coproDecode s u n)

/-- The control signals of a line in the execute stage, with empty write-back stages. -/
def alone (line : TableLine) (ilevel : BitVec 4) : StageCtrl :=
  Cpu.stageCtrl coproDecode
    { core := { decCoreRomReset with ilevel := ilevel }
      pipeline := pipelineReset.step true false line }

/-- What the line of slot `n` makes of SR: in the execute stage one slot later,
or as a load three slots later. -/
def lineSr (n : ℕ) (sr : Sr) : Sr :=
  if issued coproDecode s u n then
    if (lineAt coproDecode s u n).wbStall.wrsrW then toSr (u (n + 3)).v.wbus
    else
      nextSr (alone coproDecode (lineAt coproDecode s u n)
        (atSlot coproDecode s u (n + 1)).dec.core.ilevel) (u (n + 1)).v sr
  else sr

/-- SR after the lines of the first `n` slots. -/
def programSr : ℕ → Sr
  | 0 => s.sr
  | n + 1 => lineSr coproDecode s u n (programSr n)

end Slots

/-! ### Updates -/

theorem nextSr_of_prev {ctrl : StageCtrl} (h : ctrl.sr.sel = .selPrev) (v : ProcessI) (sr : Sr) :
    nextSr ctrl v sr = sr := by
  rw [nextSr, h]

theorem nextSr_of_wbus {ctrl : StageCtrl} (h : ctrl.sr.sel = .selWbus) (v : ProcessI) (sr : Sr) :
    nextSr ctrl v sr = toSr v.wbus := by
  rw [nextSr, h]

/-- An update reads only these signals. -/
theorem nextSr_congr {ctrl ctrl' : StageCtrl} (hsr : ctrl.sr = ctrl'.sr)
    (hfunc : ctrl.func = ctrl'.func) (v : ProcessI) (sr : Sr) :
    nextSr ctrl v sr = nextSr ctrl' v sr := by
  rw [nextSr, nextSr, hsr, hfunc]

theorem sr_alone {coproDecode : Bool} (line : TableLine) (ilevel : BitVec 4) :
    (alone coproDecode line ilevel).sr =
      { sel := line.exStall.srSel, t := line.exStall.tSel, ilevel := ilevel } := rfl

/-! ### Loads under way -/

/-- While a load of SR is under way the decoder is at one of the two lines after
it, nothing in the execute stage updates SR, and there is no other load. -/
structure Apart (dec : DecoderReg) : Prop where
  load1 : dec.pipeline.wb1Stall.wrsrW = true → ∃ addr, SrLoad addr ∧
    Decoder.boundary dec = false ∧ dec.core.op.addr = addr + 1 ∧
    dec.pipeline.ex1Stall.srSel = .selPrev ∧ dec.pipeline.wb2Stall.wrsrW = false ∧
    dec.pipeline.wb3Stall.wrsrW = false
  load2 : dec.pipeline.wb2Stall.wrsrW = true → ∃ addr, SrLoad addr ∧
    Decoder.boundary dec = false ∧ (dec.core.op.addr = addr + 1 ∨ dec.core.op.addr = addr + 2) ∧
    dec.pipeline.ex1Stall.srSel = .selPrev ∧ dec.pipeline.wb3Stall.wrsrW = false
  load3 : dec.pipeline.wb3Stall.wrsrW = true → dec.pipeline.ex1Stall.srSel = .selPrev

theorem srFree_iff {line : BitVec 75} :
    srFree line = true ↔ srSel line = .selPrev ∧ wrsrW line = false := by
  simp [srFree]

variable {dec : DecoderReg} {i : DecoderI} {t : Bool}

/-- The line presented while a load is in the first or second write-back stage. -/
theorem Apart.free (h : Apart dec)
    (load : dec.pipeline.wb1Stall.wrsrW = true ∨ dec.pipeline.wb2Stall.wrsrW = true) :
    srFree (microcodeLine (Decoder.romOp dec i).addr) = true ∧
      tFree (microcodeLine (Decoder.romOp dec i).addr) = true := by
  rcases load with load | load
  · obtain ⟨addr, hl, hb, ha, -⟩ := h.load1 load
    rw [Decoder.romOp_of_not_boundary hb, ha]
    exact ⟨hl.srFree1, hl.tFree1⟩
  · obtain ⟨addr, hl, hb, ha | ha, -⟩ := h.load2 load
    · rw [Decoder.romOp_of_not_boundary hb, ha]
      exact ⟨hl.srFree1, hl.tFree1⟩
    · rw [Decoder.romOp_of_not_boundary hb, ha]
      exact ⟨hl.srFree2, hl.tFree2⟩

theorem Apart.step (h : Apart dec) (slot : i.slot = true) : Apart (Decoder.romStep dec i t) := by
  have hdisp : (Decoder.romLine dec i t).dispatch =
    dispatch (microcodeLine (Decoder.romOp dec i).addr) t := rfl
  -- what a line that is free of SR leaves in the execute stage
  have hsel : srSel (microcodeLine (Decoder.romOp dec i).addr) = .selPrev →
      (Decoder.romStep dec i t).pipeline.ex1Stall.srSel = .selPrev := by
    intro hprev
    rw [Decoder.pipeline_romStep slot, Pipeline.step, if_pos rfl]
    cases Decoder.romStall dec i t
    · exact hprev
    · rfl
  have hw2 : (Decoder.romStep dec i t).pipeline.wb2Stall = dec.pipeline.wb1Stall := by
    rw [Decoder.pipeline_romStep slot, Pipeline.step, if_pos rfl]
  have hw3 : (Decoder.romStep dec i t).pipeline.wb3Stall = dec.pipeline.wb2Stall := by
    rw [Decoder.pipeline_romStep slot, Pipeline.step, if_pos rfl]
  constructor
  · intro load
    rw [Decoder.pipeline_romStep slot, Pipeline.step, if_pos rfl] at load
    rcases hstall : Decoder.romStall dec i t with _ | _
    · have hload : wrsrW (microcodeLine (Decoder.romOp dec i).addr) = true := by
        rw [hstall] at load
        exact load
      have hl := srLoad_of_wrsrW _ hload
      have alone : ¬(dec.pipeline.wb1Stall.wrsrW = true ∨ dec.pipeline.wb2Stall.wrsrW = true) := by
        intro other
        have hfree := (srFree_iff.mp (h.free (i := i) other).1).2
        rw [hfree] at hload
        exact Bool.false_ne_true hload
      rw [not_or, Bool.not_eq_true, Bool.not_eq_true] at alone
      refine ⟨_, hl, ?_, ?_, hsel hl.srSel, hw2 ▸ alone.1, hw3 ▸ alone.2⟩
      · rw [Decoder.boundary_romStep slot, hdisp, hl.dispatch, Bool.and_false]
      · rw [Decoder.core_romStep slot, hstall]
        rfl
    · simp [hstall, stageWbStallReset] at load
  · intro load
    rw [hw2] at load
    obtain ⟨addr, hl, hb, ha, -, hlast, -⟩ := h.load1 load
    have hop : (Decoder.romOp dec i).addr = addr + 1 := by rw [Decoder.romOp_of_not_boundary hb, ha]
    refine ⟨addr, hl, ?_, ?_, ?_, hw3 ▸ hlast⟩
    · rw [Decoder.boundary_romStep slot, hdisp, hop, hl.dispatch1, Bool.and_false]
    · rw [Decoder.core_romStep slot]
      cases Decoder.romStall dec i t
      · right
        simp only [Bool.false_eq_true, if_false, hop, BitVec.add_assoc]
        rfl
      · exact Or.inl hop
    · exact hsel (srFree_iff.mp (hop ▸ hl.srFree1)).1
  · intro load
    rw [hw3] at load
    exact hsel (srFree_iff.mp (h.free (i := i) (Or.inr load)).1).1

/-! ### Slots in order -/

section Order

variable {coproDecode : Bool} {s : SrPath} {u : ℕ → SrPathI} {n : ℕ}

/-- A load of SR in the two write-back stages before the last. -/
def load1 (coproDecode : Bool) (s : SrPath) (u : ℕ → SrPathI) (n : ℕ) : Bool :=
  (atSlot coproDecode s u n).dec.pipeline.wb1Stall.wrsrW

def load2 (coproDecode : Bool) (s : SrPath) (u : ℕ → SrPathI) (n : ℕ) : Bool :=
  (atSlot coproDecode s u n).dec.pipeline.wb2Stall.wrsrW

variable (coproDecode s u) in
theorem apart_atSlot (empty : s.dec.pipeline = pipelineReset) (n : ℕ) :
    Apart (atSlot coproDecode s u n).dec := by
  refine trace_invariant (P := fun x : SrPath => Apart x.dec) ?_ (fun n x h => h.step rfl) n
  constructor <;> simp [empty, pipelineReset, stageWbStallReset]

/-- A line that leaves SR alone, or is not issued, leaves it alone in program order. -/
theorem lineSr_of_free (sr : Sr)
    (free : srFree (microcodeLine
      (Decoder.romOp (atSlot coproDecode s u n).dec (u n).decI).addr) = true) :
    lineSr coproDecode s u n sr = sr := by
  obtain ⟨hsel, hw⟩ := srFree_iff.mp free
  have hlineW : (lineAt coproDecode s u n).wbStall.wrsrW = false := hw
  have hlineSel : (lineAt coproDecode s u n).exStall.srSel = .selPrev := hsel
  rw [lineSr, hlineW]
  cases issued coproDecode s u n
  · rfl
  · exact nextSr_of_prev hlineSel _ _

variable (coproDecode s u) in
/-- The pipeline after slot `n`. -/
theorem pipeline_atSlot_succ (n : ℕ) : (atSlot coproDecode s u (n + 1)).dec.pipeline =
    (atSlot coproDecode s u n).dec.pipeline.step true (!issued coproDecode s u n)
      (lineAt coproDecode s u n) := by
  rw [atSlot, trace_succ, ← atSlot, slotStep, Decoder.pipeline_romStep rfl, issued, Bool.not_not]
  rfl

theorem load1_succ : load1 coproDecode s u (n + 1) =
    (issued coproDecode s u n && (lineAt coproDecode s u n).wbStall.wrsrW) := by
  rw [load1, pipeline_atSlot_succ]
  cases issued coproDecode s u n <;> rfl

theorem load2_succ : load2 coproDecode s u (n + 1) = load1 coproDecode s u n := by
  rw [load2, load1, pipeline_atSlot_succ]
  rfl

variable (coproDecode s u) in
/-- The selection of SR in the slot after slot `n`. -/
theorem srSel_atSlot_succ (n : ℕ) :
    (Cpu.stageCtrl coproDecode (atSlot coproDecode s u (n + 1)).dec).sr.sel =
      if load2 coproDecode s u n then .selWbus
      else if issued coproDecode s u n then (lineAt coproDecode s u n).exStall.srSel
      else .selPrev := by
  rw [Cpu.srSel_stageCtrl, pipeline_atSlot_succ, load2]
  cases issued coproDecode s u n <;> rfl

/-- While a load is under way SR waits for it. -/
theorem programSr_succ_of_load (empty : s.dec.pipeline = pipelineReset)
    (load : load1 coproDecode s u n = true ∨ load2 coproDecode s u n = true) :
    programSr coproDecode s u (n + 1) = programSr coproDecode s u n :=
  lineSr_of_free _ ((apart_atSlot coproDecode s u empty n).free load).1

/-- The invariant: what SR is before slot `n + 1`, and what the load under way is
going to make of it. -/
structure InOrder (coproDecode : Bool) (s : SrPath) (u : ℕ → SrPathI) (n : ℕ) : Prop where
  idle : load1 coproDecode s u n = false → load2 coproDecode s u n = false →
    (atSlot coproDecode s u (n + 1)).sr = programSr coproDecode s u n
  load1 : load1 coproDecode s u n = true → programSr coproDecode s u n = toSr (u (n + 2)).v.wbus
  load2 : load2 coproDecode s u n = true → programSr coproDecode s u n = toSr (u (n + 1)).v.wbus

theorem InOrder.succ (empty : s.dec.pipeline = pipelineReset) (h : InOrder coproDecode s u n) :
    InOrder coproDecode s u (n + 1) where
  idle h1 h2 := by
    rw [load2_succ] at h2
    have hsr : (atSlot coproDecode s u (n + 2)).sr =
        nextSr (Cpu.stageCtrl coproDecode (atSlot coproDecode s u (n + 1)).dec) (u (n + 1)).v
          (atSlot coproDecode s u (n + 1)).sr := rfl
    have hsel := srSel_atSlot_succ coproDecode s u n
    rw [hsr]
    rcases hload : SrPath.load2 coproDecode s u n with _ | _
    · rw [hload, if_neg Bool.false_ne_true] at hsel
      rw [h.idle h2 hload, programSr, lineSr]
      rcases hissued : issued coproDecode s u n with _ | _
      · rw [hissued] at hsel
        exact nextSr_of_prev hsel _ _
      · rw [load1_succ, hissued, Bool.true_and] at h1
        rw [if_pos rfl, h1, if_neg Bool.false_ne_true]
        have hp := pipeline_atSlot_succ coproDecode s u n
        rw [hissued] at hp
        refine nextSr_congr ?_ ?_ _ _
        · rw [SrPath.load2] at hload
          rw [sr_alone, Cpu.stageCtrl, Pipeline.sr, hp]
          simp [Pipeline.step, hload]
        · rw [alone, Cpu.stageCtrl, Cpu.stageCtrl, hp]
          rfl
    · -- the load reaches SR now
      rw [hload, if_pos rfl] at hsel
      rw [nextSr_of_wbus hsel, programSr_succ_of_load empty (Or.inr hload), h.load2 hload]
  load1 h1 := by
    rw [load1_succ, Bool.and_eq_true] at h1
    rw [programSr, lineSr, h1.1, if_pos rfl, if_pos h1.2]
  load2 h2 := by
    rw [load2_succ] at h2
    rw [programSr_succ_of_load empty (Or.inl h2), h.load1 h2]

variable (coproDecode s u) in
theorem inOrder_atSlot (empty : s.dec.pipeline = pipelineReset) (n : ℕ) :
    InOrder coproDecode s u n := by
  induction n with
  | zero =>
    have hload1 : SrPath.load1 coproDecode s u 0 = false := by
      rw [SrPath.load1, atSlot, trace_zero, empty]
      rfl
    have hload2 : SrPath.load2 coproDecode s u 0 = false := by
      rw [SrPath.load2, atSlot, trace_zero, empty]
      rfl
    refine ⟨fun _ _ => ?_, fun h => ?_, fun h => ?_⟩
    · have hsel : (Cpu.stageCtrl coproDecode s.dec).sr.sel = .selPrev := by
        rw [Cpu.stageCtrl, empty]
        rfl
      exact nextSr_of_prev hsel _ _
    · rw [hload1] at h
      exact absurd h Bool.false_ne_true
    · rw [hload2] at h
      exact absurd h Bool.false_ne_true
  | succ n ih => exact ih.succ empty

/-- While a load is under way nothing else reaches SR. -/
theorem sr_atSlot_succ_of_load (empty : s.dec.pipeline = pipelineReset)
    (load : load1 coproDecode s u n = true ∨ load2 coproDecode s u n = true) :
    (atSlot coproDecode s u (n + 1)).sr = (atSlot coproDecode s u n).sr := by
  have apart := apart_atSlot coproDecode s u empty n
  have hfree : (atSlot coproDecode s u n).dec.pipeline.wb3Stall.wrsrW = false ∧
      (atSlot coproDecode s u n).dec.pipeline.ex1Stall.srSel = .selPrev := by
    rcases load with load | load
    · obtain ⟨_, -, -, -, hsel, -, hw⟩ := apart.load1 load
      exact ⟨hw, hsel⟩
    · obtain ⟨_, -, -, -, hsel, hw⟩ := apart.load2 load
      exact ⟨hw, hsel⟩
  refine nextSr_of_prev ((Cpu.srSel_stageCtrl _ _).trans ?_) _ _
  rw [← atSlot, hfree.1, hfree.2]
  rfl

theorem romLine_of_tFree {dec : DecoderReg} {i : DecoderI}
    (free : tFree (microcodeLine (Decoder.romOp dec i).addr) = true) (t t' : Bool) :
    Decoder.romLine dec i t = Decoder.romLine dec i t' := by
  have hline : ∀ stall, decodeTable (Decoder.romOp dec i) t stall =
      decodeTable (Decoder.romOp dec i) t' stall := fun stall => decodeLine_of_tFree free _ _ _ _
  rw [Decoder.romLine, Decoder.romLine, Decoder.romStall, Decoder.romStall, hline, hline]

variable (coproDecode s u) in
/-- The line of slot `n` is the one for T in program order. -/
theorem lineAt_eq (empty : s.dec.pipeline = pipelineReset) (n : ℕ) :
    lineAt coproDecode s u n =
      Decoder.romLine (atSlot coproDecode s u n).dec (u n).decI
        (programSr coproDecode s u n).t := by
  by_cases load : load1 coproDecode s u n = true ∨ load2 coproDecode s u n = true
  · exact romLine_of_tFree ((apart_atSlot coproDecode s u empty n).free load).2 _ _
  · rw [not_or, Bool.not_eq_true, Bool.not_eq_true] at load
    have hsr := (inOrder_atSlot coproDecode s u empty n).idle load.1 load.2
    rw [lineAt, ← hsr]
    rfl

end Order

end SrPath

/-! ### Decoder and data path -/

namespace Cpu

variable (coproDecode : Bool) (start : Cpu) (clk : ℕ → CpuI)

def srPath (this : Cpu) : SrPath := { dec := this.dec, sr := this.data.this.sr }

def srPathI (this : Cpu) (i : CpuI) : SrPathI :=
  { decI := decoderI this i, v := processI coproDecode this i }

/-- The status register's path is a part of the CPU. -/
theorem srPath_step (this : Cpu) (i : CpuI) : srPath (step coproDecode this i) =
    SrPath.step coproDecode (srPath this) (srPathI coproDecode this i) := by
  have hsr : (step coproDecode this i).data.this.sr = srC coproDecode this i :=
    combinatorial_sr _ _ _ _
  have hdec : (step coproDecode this i).dec =
    Decoder.romStep this.dec (decoderI this i) (tBcc coproDecode this i) := rfl
  have hin : (decoderI this i).slot = slot this i := rfl
  rw [SrPath.step, srPath, hsr, hdec]
  rcases hslot : slot this i with _ | _
  · rw [Decoder.romStep_of_not_slot (hin.trans hslot), srC, hslot]
    simp [srPath, srPathI, hin, hslot]
  · have hsrC : srC coproDecode this i =
        SrPath.srC coproDecode (srPath this) (srPathI coproDecode this i) := by
      rw [srC, hslot, if_pos rfl]
      rfl
    have hslotted : { decoderI this i with slot := true } = decoderI this i := by
      rw [← hslot, ← hin]
    simp [SrPath.slotStep, srPathI, hin, hslot, hslotted, tBcc, hsrC, srPath]

/-- The inputs of that path in the slots of a run. -/
noncomputable def srInputs : ℕ → SrPathI :=
  enabledInput (fun i => i.decI.slot)
    fun t => srPathI coproDecode (run coproDecode start clk t) (clk t)

/-- How many slots start in the first `t` clocks. -/
def slotCount (t : ℕ) : ℕ :=
  Nat.count (fun t => slot (run coproDecode start clk t) (clk t) = true) t

/-- SR after the lines of the first `n` slots. -/
noncomputable def programSr (n : ℕ) : Sr :=
  SrPath.programSr coproDecode (srPath start) (srInputs coproDecode start clk) n

variable {coproDecode start clk}

variable (coproDecode start clk) in
theorem srPath_run (t : ℕ) : srPath (run coproDecode start clk t) =
    SrPath.atSlot coproDecode (srPath start) (srInputs coproDecode start clk)
      (slotCount coproDecode start clk t) := by
  have hrun : srPath (run coproDecode start clk t) =
      trace (SrPath.step coproDecode) (srPath start)
        (fun t => srPathI coproDecode (run coproDecode start clk t) (clk t)) t := by
    induction t with
    | zero => rfl
    | succ t ih => rw [trace_succ, ← ih, ← srPath_step, run, trace_succ]
  rw [hrun]
  refine trace_eq_enabled (fun i : SrPathI => i.decI.slot) (fun x i h => ?_) (fun x i h => ?_) t
  · exact if_neg (Bool.eq_false_iff.mp h)
  · exact if_pos h

theorem srInputs_slotCount {t : ℕ} (h : slot (run coproDecode start clk t) (clk t) = true) :
    srInputs coproDecode start clk (slotCount coproDecode start clk t) =
      srPathI coproDecode (run coproDecode start clk t) (clk t) :=
  enabledInput_count (fun i : SrPathI => i.decI.slot) h

theorem slotCount_succ_of_slot {t : ℕ} (h : slot (run coproDecode start clk t) (clk t) = true) :
    slotCount coproDecode start clk (t + 1) = slotCount coproDecode start clk t + 1 := by
  rw [slotCount, Nat.count_succ, if_pos h, ← slotCount]

variable (coproDecode start clk)

/-- A load of SR is in one of the write-back stages before the last. -/
def srLoading (p : Pipeline) : Bool := p.wb1Stall.wrsrW || p.wb2Stall.wrsrW

/-- In every slot of a run: a load of SR does not meet an update by the line in
the execute stage; the line presented is the one for the T of all lines before
it; and SR is what all of them make of it, but for a load under way, which it
waits for. -/
def SrInOrder : Prop :=
  ∀ t, slot (run coproDecode start clk t) (clk t) = true →
    let state := run coproDecode start clk t
    let n := slotCount coproDecode start clk t
    (state.dec.pipeline.wb3Stall.wrsrW = true → state.dec.pipeline.ex1Stall.srSel = .selPrev) ∧
    line coproDecode state (clk t) =
      Decoder.romLine state.dec (decoderI state (clk t)) (programSr coproDecode start clk n).t ∧
    (run coproDecode start clk (t + 1)).data.this.sr =
      if srLoading state.dec.pipeline then state.data.this.sr else programSr coproDecode start clk n

theorem srInOrder_of_empty (empty : start.dec.pipeline = pipelineReset) :
    SrInOrder coproDecode start clk := by
  intro t hslot state n
  have hstate : srPath state = SrPath.atSlot coproDecode (srPath start)
    (srInputs coproDecode start clk) n := srPath_run _ _ _ t
  have hnext := srPath_run coproDecode start clk (t + 1)
  rw [slotCount_succ_of_slot hslot] at hnext
  have hdec : state.dec = _ := congrArg SrPath.dec hstate
  have hsr : state.data.this.sr = _ := congrArg SrPath.sr hstate
  have hsr' : (run coproDecode start clk (t + 1)).data.this.sr = _ := congrArg SrPath.sr hnext
  refine ⟨?_, ?_, ?_⟩
  · rw [hdec]
    exact (SrPath.apart_atSlot _ _ _ empty n).load3
  · have hin : srInputs coproDecode start clk n = srPathI coproDecode state (clk t) :=
      srInputs_slotCount hslot
    have hline := SrPath.lineAt_eq coproDecode (srPath start) (srInputs coproDecode start clk) empty n
    have htAt : tBcc coproDecode state (clk t) =
        SrPath.tAt coproDecode (srPath start) (srInputs coproDecode start clk) n := by
      rw [tBcc, srC, if_pos hslot, SrPath.tAt, hin, ← hstate]
      rfl
    rw [SrPath.lineAt, ← htAt, ← hdec, hin] at hline
    exact hline
  · have hload : srLoading state.dec.pipeline =
        (SrPath.load1 coproDecode (srPath start) (srInputs coproDecode start clk) n ||
          SrPath.load2 coproDecode (srPath start) (srInputs coproDecode start clk) n) := by
      rw [srLoading, hdec]
      rfl
    rw [hload, hsr', hsr]
    split_ifs with hor
    · exact SrPath.sr_atSlot_succ_of_load empty (by simpa using hor)
    · rw [Bool.or_eq_true, not_or, Bool.not_eq_true, Bool.not_eq_true] at hor
      exact (SrPath.inOrder_atSlot _ _ _ empty n).idle hor.1 hor.2

/-- SR and T are in program order, for every sequence of instructions, stall and
memory latency. -/
theorem sr_program_order (core : DecodeCoreReg) (data : Datapath.State) :
    SrInOrder coproDecode { dec := { core := core, pipeline := pipelineReset }, data := data } clk :=
  srInOrder_of_empty _ _ _ rfl

end Cpu

end JCore
