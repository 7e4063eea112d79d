import JCore.Core.Startup

/-!
# Instructions as the decoder takes them up

The order of the architecture, said of the clocks in which the decoder takes instructions
up. Behind an instruction at `a` comes the one at `a + 2`. Behind a branch that is taken
comes its target, at once if it has no delay slot, and otherwise after the instruction at
`a + 2`. Whatever has been fetched ahead, until then only lines of the branch itself are
presented.

## Main definitions

* `CpuRun.Follows`: one instruction is taken up behind another
* `CpuRun.jumps`: whether an instruction jumps, and where to
* `CpuRun.Dispatches`: an instruction and what comes behind it

## Main results

* `CpuRun.dispatched_in_order`: all instructions of a run, from the reset on
-/

namespace JCore

open Datapath

namespace CpuRun

section Definitions

variable (run : CpuRun) (memory : InstrMemory)

/-- In clock `u` the next instruction is taken up behind that of clock `t`. -/
structure Follows (t u : ℕ) : Prop where
  behind : t < u
  taken : run.selects u = true
  first : ∀ v, t < v → v < u → run.selects v = false

/-- The instruction at `a` jumps if it is a branch that is taken. T and the registers are
those that the instructions before it have left. -/
noncomputable def jumps (t : ℕ) (a : BitVec 32) : Option (Branch × BitVec 32) :=
  (Branch.ofCode (wordAt memory a)).bind fun b =>
    if b.taken (run.programSr (run.slots t)).t then
      some (b, b.target (wordAt memory a) a (run.programRegs .a (run.slots t))
        (run.programRegs .b (run.slots t)))
    else none

/-- The address of the instruction that is next before clock `t`. -/
noncomputable def address (entry : BitVec 32) (t : ℕ) : BitVec 32 :=
  (run.flow memory (Flow.start entry) t).pc

/-- The instruction of clock `t` lies in a delay slot, by the addresses `a` of the
instructions. -/
def InSlot (a : ℕ → BitVec 32) (t : ℕ) : Prop :=
  ∃ s b target, run.selects s = true ∧ run.Follows s t ∧
    run.jumps memory s (a s) = some (b, target) ∧ b.delayed = true

/-- The instruction that clock `t` takes up, and what comes behind it up to clock `n`. -/
structure Dispatches (a : ℕ → BitVec 32) (n t : ℕ) : Prop where
  op : run.op t = DecodeCore.normalOp .rom predecodeRomAddr (wordAt memory (a t))
  /-- every line belongs to it until another instruction is taken up -/
  lines : ∀ v, t ≤ v → run.slot v = true → (∀ u, t < u → u ≤ v → run.selects u = false) →
    (run.op v).code = wordAt memory (a t)
  sequential : ¬run.InSlot memory a t → run.jumps memory t (a t) = none →
    ∀ u ≤ n, run.Follows t u → a u = a t + 2
  target : ∀ b target, run.jumps memory t (a t) = some (b, target) → b.delayed = false →
    ∀ u ≤ n, run.Follows t u → a u = target
  slot : ∀ b target, run.jumps memory t (a t) = some (b, target) → b.delayed = true →
    ∀ u ≤ n, run.Follows t u → a u = a t + 2 ∧
      (b.links = true → ∀ port, port ≠ .zero →
        run.programRegs port (run.slots u) regPr = a t + 4) ∧
      ∀ v ≤ n, run.Follows u v → a v = target

end Definitions

variable {run : CpuRun} {memory : InstrMemory} {t u n : ℕ}

/-! ### One instruction and the next -/

theorem flow_of_follows (taken : run.selects t = true) (follows : run.Follows t u) (f : Flow) :
    run.flow memory f u = (run.flow memory f t).step (wordAt memory (run.flow memory f t).pc)
      (run.programSr (run.slots t)).t (run.programRegs .a (run.slots t))
      (run.programRegs .b (run.slots t)) := by
  obtain ⟨behind, -, first⟩ := follows
  induction u, behind using Nat.le_induction with
  | base => rw [flow, if_pos taken]
  | succ u le ih =>
    rw [flow, first u le (Nat.lt_succ_self u), if_neg Bool.false_ne_true]
    exact ih fun v after before => first v after (Nat.lt_succ_of_lt before)

/-- Before a clock either nothing was taken up or there is a last instruction. -/
theorem none_or_last (run : CpuRun) (t : ℕ) : (∀ u < t, run.selects u = false) ∨
    ∃ s < t, run.selects s = true ∧ ∀ v, s < v → v < t → run.selects v = false := by
  induction t with
  | zero => exact .inl fun u hu => absurd hu (Nat.not_lt_zero u)
  | succ t ih =>
    cases taken : run.selects t with
    | true => exact .inr ⟨t, Nat.lt_succ_self t, taken, fun v after before => by omega⟩
    | false =>
      rcases ih with none | ⟨s, before, selects, last⟩
      · refine .inl fun u hu => ?_
        rcases Nat.lt_succ_iff_lt_or_eq.mp hu with earlier | rfl
        · exact none u earlier
        · exact taken
      · refine .inr ⟨s, Nat.lt_succ_of_lt before, selects, fun v after hv => ?_⟩
        rcases Nat.lt_succ_iff_lt_or_eq.mp hv with earlier | rfl
        · exact last v after earlier
        · exact taken

/-- The decoder keeps the instruction that it has taken up. -/
theorem code_of_kept (taken : run.selects t = true) (behind : t < u)
    (none : ∀ v, t < v → v < u → run.selects v = false) :
    (run.state u).dec.core.op.code = (run.op t).code := by
  have latched : ∀ v, run.slot v = true →
      (run.state (v + 1)).dec.core.op.code = (run.op v).code := by
    intro v slot
    rw [op_succ_of_slot slot]
    split_ifs
    · rfl
    · rfl
  induction u, behind using Nat.le_induction with
  | base =>
    rw [selects, Bool.and_eq_true] at taken
    exact latched t taken.1
  | succ u le ih =>
    have kept := ih fun v after before => none v after (Nat.lt_succ_of_lt before)
    cases slot : run.slot u with
    | false => rw [dec_succ_of_not_slot slot, kept]
    | true =>
      have within : run.boundary u = false := by
        have idle := none u le (Nat.lt_succ_self u)
        rwa [selects, slot, Bool.true_and] at idle
      rw [latched u slot, op_of_not_boundary within, kept]

/-- Its lines are presented until the next one is taken up. -/
theorem code_of_slot (taken : run.selects t = true) (behind : t ≤ u) (slot : run.slot u = true)
    (none : ∀ v, t < v → v ≤ u → run.selects v = false) : (run.op u).code = (run.op t).code := by
  rcases Nat.eq_or_lt_of_le behind with rfl | later
  · rfl
  have within : run.boundary u = false := by
    have idle := none u later le_rfl
    rwa [selects, slot, Bool.true_and] at idle
  rw [op_of_not_boundary within]
  exact code_of_kept taken later fun v after before => none v after before.le

/-! ### The sequence -/

section Sequence

variable {f : Flow} {b : Branch} {target : BitVec 32}

/-- An instruction that does not jump leads on. -/
theorem step_of_stays (stays : run.jumps memory t f.pc = none) :
    f.step (wordAt memory f.pc) (run.programSr (run.slots t)).t (run.programRegs .a (run.slots t))
      (run.programRegs .b (run.slots t)) = f.goOn := by
  rw [jumps] at stays
  rw [Flow.step]
  cases branch : Branch.ofCode (wordAt memory f.pc) with
  | none => rfl
  | some b =>
    rw [branch, Option.bind_some] at stays
    split_ifs at stays with taken
    have unlinked : b.links = false := by
      by_contra links
      exact taken (taken_of_links (Bool.eq_true_of_not_eq_false links) _)
    show f.branch _ _ _ _ b = _
    rw [Flow.branch, if_neg taken, unlinked]
    rfl

/-- One that jumps leads to its target, or into its delay slot. -/
theorem step_of_jumps (jumps : run.jumps memory t f.pc = some (b, target)) :
    Branch.ofCode (wordAt memory f.pc) = some b ∧
      f.step (wordAt memory f.pc) (run.programSr (run.slots t)).t
          (run.programRegs .a (run.slots t)) (run.programRegs .b (run.slots t)) =
        { (if b.delayed then { f.goOn with next := target, inSlot := true }
          else Flow.start target) with link := if b.links then some (f.pc + 4) else none } := by
  rw [CpuRun.jumps, Option.bind_eq_some_iff] at jumps
  obtain ⟨b', branch, goes⟩ := jumps
  split_ifs at goes with taken
  obtain ⟨rfl, rfl⟩ := Prod.mk.inj (Option.some.inj goes)
  refine ⟨branch, ?_⟩
  rw [Flow.step, branch]
  show f.branch _ _ _ _ b' = _
  rw [Flow.branch, if_pos taken]

variable {entry : BitVec 32}

/-- The sequence is in a delay slot behind a branch with one only. -/
theorem inSlot_of_flow (taken : run.selects t = true)
    (slot : (run.flow memory (Flow.start entry) t).inSlot = true) :
    run.InSlot memory (run.address memory entry) t := by
  rcases none_or_last run t with none | ⟨s, before, selects, last⟩
  · rw [flow_of_none none] at slot
    exact absurd slot Bool.false_ne_true
  have follows : run.Follows s t := ⟨before, taken, last⟩
  rw [flow_of_follows selects follows] at slot
  cases goes : run.jumps memory s (run.flow memory (Flow.start entry) s).pc with
  | none =>
    rw [step_of_stays goes] at slot
    exact absurd slot Bool.false_ne_true
  | some jump =>
    obtain ⟨b, target⟩ := jump
    refine ⟨s, b, target, selects, follows, goes, ?_⟩
    rw [(step_of_jumps goes).2] at slot
    by_contra undelayed
    rw [if_neg undelayed] at slot
    exact Bool.false_ne_true slot

end Sequence

/-! ### Runs -/

section Runs

variable {bankA bankB : Fin 21 → BitVec 32} {entry : BitVec 32}

/-- From the reset on, for every stall and every latency of the memories: the instruction at
`entry` is taken up first, and each one is followed by the one that the architecture has
behind it. -/
theorem dispatched_in_order (run : CpuRun) (memory : InstrMemory) (entry : BitVec 32)
    (cleared : run.regs = RegisterFile.reset bankA bankB) (quiet : run.Undisturbed memory)
    (vector : run.Vector entry) (n : ℕ)
    (ordinary : ∀ t ≤ n, Ordinary (wordAt memory (run.address memory entry t))
      (run.flow memory (Flow.start entry) t).inSlot) :
    ∀ t ≤ n, run.selects t = true →
      ((∀ u < t, run.selects u = false) → run.address memory entry t = entry) ∧
        run.Dispatches memory (run.address memory entry) n t := by
  intro t le taken
  have boundary : ∀ u ≤ n, run.selects u = true →
      run.Boundary memory u (run.flow memory (Flow.start entry) u) := fun u small selects =>
    boundary_flow cleared quiet vector (fun v hv => ordinary v (hv.trans small)) selects
  have here := boundary t le taken
  have op := here.op_eq quiet (ordinary t le)
  refine ⟨fun none => congrArg Flow.pc (flow_of_none none), ?_⟩
  constructor
  case op => exact op
  case lines =>
    intro v behind slot none
    rw [code_of_slot taken behind slot none, op]
    rfl
  case sequential =>
    intro outside stays u small follows
    have notInSlot : (run.flow memory (Flow.start entry) t).inSlot = false := by
      by_contra slot
      exact outside (inSlot_of_flow taken (Bool.eq_true_of_not_eq_false slot))
    rw [address, flow_of_follows taken follows, step_of_stays stays]
    exact here.sequence notInSlot
  case target =>
    intro b target goes undelayed u small follows
    rw [address, flow_of_follows taken follows, (step_of_jumps goes).2, undelayed]
    rfl
  case slot =>
    intro b target goes delayed u small follows
    obtain ⟨branch, step⟩ := step_of_jumps goes
    rw [← flow_of_follows taken follows, delayed, if_pos rfl] at step
    refine ⟨?_, fun links port notZero => ?_, fun v small' follows' => ?_⟩
    · rw [address, step]
      exact here.sequence ((ordinary t le).not_inSlot branch)
    · refine (boundary u small follows.taken).link _ ?_ port notZero
      rw [step, if_pos links]
      rfl
    · -- the instruction in the slot does not jump itself
      have stays : run.jumps memory u (run.flow memory (Flow.start entry) u).pc = none := by
        cases goes' : run.jumps memory u (run.flow memory (Flow.start entry) u).pc with
        | none => rfl
        | some jump =>
          have outside := (ordinary u small).not_inSlot (step_of_jumps goes').1
          rw [step] at outside
          exact absurd outside.symm Bool.false_ne_true
      rw [address, flow_of_follows follows.taken follows', step_of_stays stays, step]
      rfl

end Runs

/-! ### A sample -/

section Sample

open Closed DecodeTable

theorem address_sample (small : t ≤ 18) : sampleRun.address sampleProgram 0x100 t =
    (sampleFlow (sampleRun.taken t)).pc := congrArg Flow.pc (flow_sample small)

/-- The call at `0x102` jumps to `0x10A`. -/
theorem jumps_call : sampleRun.jumps sampleProgram 7 0x102 = some (.bsr, 0x10A) := by
  have branch : Branch.ofCode (wordAt sampleProgram 0x102) = some .bsr := by decide +kernel
  have target : (0x102 : BitVec 32) + 4 + immS12_1 (wordAt sampleProgram 0x102) = 0x10A := by
    decide +kernel
  rw [jumps, branch, Option.bind_some, if_pos (show Branch.bsr.taken _ = true from rfl)]
  exact congrArg (fun x => some (Branch.bsr, x)) target

/-- The branch on T at `0x110` jumps to `0x106`. -/
theorem jumps_branch : sampleRun.jumps sampleProgram 14 0x110 = some (.bfs, 0x106) := by
  have branch : Branch.ofCode (wordAt sampleProgram 0x110) = some .bfs := by decide +kernel
  have target : (0x110 : BitVec 32) + 4 + immS8_1 (wordAt sampleProgram 0x110) = 0x106 := by
    decide +kernel
  have line : sampleRun.slot 14 = true ∧ (sampleRun.op 14).addr = Branch.bfs.startAddr ∧
      Branch.bfs.taken (sampleRun.tBcc 14) = true := by decide +kernel
  rw [jumps, branch, Option.bind_some, if_pos ((taken_tBcc line.1 line.2.1).symm.trans line.2.2)]
  exact congrArg (fun x => some (Branch.bfs, x)) target

/-- The slots of the call and of the branch, the targets behind them, and the return address. -/
theorem dispatched_in_order_sample :
    sampleRun.op 17 = DecodeCore.normalOp .rom predecodeRomAddr 0x032A ∧
      (sampleRun.address sampleProgram 0x100 9 = 0x104 ∧
        sampleRun.programRegs .a (sampleRun.slots 9) regPr = 0x106 ∧
        sampleRun.address sampleProgram 0x100 10 = 0x10A) ∧
      sampleRun.address sampleProgram 0x100 16 = 0x112 ∧
      sampleRun.address sampleProgram 0x100 17 = 0x106 := by
  have order := dispatched_in_order sampleRun sampleProgram 0x100 rfl undisturbed_run vector_sample
    18 fun t le => ordinary_sample le
  have taken : (sampleRun.selects 7 = true ∧ sampleRun.selects 8 = false) ∧
      (sampleRun.selects 9 = true ∧ sampleRun.selects 10 = true) ∧
      (sampleRun.selects 14 = true ∧ sampleRun.selects 15 = false) ∧
      sampleRun.selects 16 = true ∧ sampleRun.selects 17 = true := by decide +kernel
  obtain ⟨⟨seven, eight⟩, ⟨nine, ten⟩, ⟨fourteen, fifteen⟩, sixteen, seventeen⟩ := taken
  have places : (sampleFlow (sampleRun.taken 7)).pc = 0x102 ∧
      (sampleFlow (sampleRun.taken 14)).pc = 0x110 ∧
      (sampleFlow (sampleRun.taken 17)).pc = 0x106 := by decide +kernel
  have call := (order 7 (by decide) seven).2
  have branch := (order 14 (by decide) fourteen).2
  have back := (order 17 (by decide) seventeen).2.op
  rw [address_sample (show 17 ≤ 18 by decide), places.2.2] at back
  have behind : sampleRun.Follows 7 9 := ⟨by decide, nine, fun v after before => by
    obtain rfl : v = 8 := by omega
    exact eight⟩
  have behind' : sampleRun.Follows 14 16 := ⟨by decide, sixteen, fun v after before => by
    obtain rfl : v = 15 := by omega
    exact fifteen⟩
  obtain ⟨slot, link, target⟩ := call.slot .bsr 0x10A
    (by rw [address_sample (show 7 ≤ 18 by decide), places.1]; exact jumps_call) rfl 9
    (by decide) behind
  obtain ⟨slot', -, target'⟩ := branch.slot .bfs 0x106
    (by rw [address_sample (show 14 ≤ 18 by decide), places.2.1]; exact jumps_branch) rfl 16
    (by decide) behind'
  rw [address_sample (show 7 ≤ 18 by decide), places.1] at slot link
  rw [address_sample (show 14 ≤ 18 by decide), places.2.1] at slot'
  refine ⟨?_, ⟨slot, link rfl .a (by decide), ?_⟩, slot', ?_⟩
  · rw [back, show wordAt sampleProgram 0x106 = 0x032A by decide +kernel]
  · exact target 10 (by decide) ⟨by decide, ten, fun v after before => by omega⟩
  · exact target' 17 (by decide) ⟨by decide, seventeen, fun v after before => by omega⟩

end Sample

end CpuRun

end JCore
