import JCore.Testrom.Session
import JCore.Testrom.StepDest

/-!
# Single steps

A step puts a trap where the next instruction goes to, and lets the program run. Up to the
trap the program does what it would have done without it, unless the instruction reaches
into the word that the trap replaces; when the monitor is entered again the word is put
back, unless it was zero.

## Main definitions

* `Touches`: an access reaches into a word
* `MemInstr.accesses`, `Isa.accesses`: the accesses of an instruction
* `IsaState.patch`: another word in the memory

## Main results

* `stepOver_patch`: an instruction does not see a word that it does not reach
* `gdbStep_stepOver`: a step carries out one instruction
-/

namespace JCore

open Sim Gdb

/-! ### Words in the memory -/

/-- An access reaches into the half word at `d`. -/
def Touches (access : MemSize × BitVec 32) (d : BitVec 32) : Prop :=
  match access.1 with
  | .long => access.2.toNat / 4 = d.toNat / 4
  | _ => access.2.toNat / 2 = d.toNat / 2

instance (access : MemSize × BitVec 32) (d : BitVec 32) : Decidable (Touches access d) :=
  match access with
  | (.byte, _) => inferInstanceAs (Decidable (_ = _))
  | (.word, _) => inferInstanceAs (Decidable (_ = _))
  | (.long, _) => inferInstanceAs (Decidable (_ = _))

section Memory

variable {mem : ByteMemory} {size : MemSize} {a d x : BitVec 32}

/-- The bytes of an access that does not reach into a word are not in it. -/
theorem outside_of_not_touches (h : ¬Touches (size, a) d)
    (inside : x.toNat / sizeBytes size = a.toNat / sizeBytes size) : ¬x.toNat / 2 = d.toNat / 2 := by
  cases size <;> simp only [Touches, sizeBytes] at h inside <;> omega

theorem loadAt_storeShort (op : BitVec 16) (h : ¬Touches (size, a) d) :
    loadAt (storeShort mem d op) size a = loadAt mem size a := by
  refine loadAt_congr fun x inside => ?_
  rw [storeShort, storeAt_apply]
  exact if_neg (outside_of_not_touches h inside)

theorem storeAt_storeShort (op : BitVec 16) (data : BitVec 32) (h : ¬Touches (size, a) d) :
    storeAt (storeShort mem d op) size a data = storeShort (storeAt mem size a data) d op := by
  funext x
  rw [storeShort, storeShort, storeAt_apply, storeAt_apply, storeAt_apply, storeAt_apply]
  by_cases inside : x.toNat / sizeBytes size = a.toNat / sizeBytes size
  · have outside : ¬x.toNat / sizeBytes .word = d.toNat / sizeBytes .word :=
      outside_of_not_touches h inside
    rw [if_pos inside, if_neg outside, if_pos inside]
  · rw [if_neg inside, if_neg inside]

/-- The two bytes of a word. -/
theorem shortAt_bytes (mem : ByteMemory) (d : BitVec 32) :
    shortAt mem d = mem (alignTo .word d) ++ mem (alignTo .word d + 1) := by
  rw [shortAt, loadAt, flatLoad]
  apply BitVec.eq_of_getLsbD_eq
  intro i hi
  rw [BitVec.getLsbD_setWidth, BitVec.getLsbD_signExtend, if_pos hi, decide_eq_true hi,
    decide_eq_true (show i < 32 by omega), Bool.true_and, Bool.true_and]

theorem storeShort_apply (op : BitVec 16) :
    storeShort mem d op x =
      if x.toNat / 2 = d.toNat / 2 then op.extractLsb' (8 * (1 - x.toNat % 2)) 8 else mem x := by
  rw [storeShort, storeAt_apply, sizeBytes, bigEndian, extractLsb'_signExtend _ (by omega) (by decide)]

theorem shortAt_storeShort (op : BitVec 16) : shortAt (storeShort mem d op) d = op := by
  have first : (alignTo .word d).toNat = d.toNat / 2 * 2 := toNat_alignTo .word d
  have second : (alignTo .word d + 1).toNat = d.toNat / 2 * 2 + 1 := by
    have := d.isLt
    rw [BitVec.toNat_add, first]
    show (_ + 1) % _ = _
    omega
  rw [shortAt_bytes, storeShort_apply, storeShort_apply, first, second, if_pos (by omega),
    if_pos (by omega), show d.toNat / 2 * 2 % 2 = 0 by omega,
    show (d.toNat / 2 * 2 + 1) % 2 = 1 by omega]
  apply BitVec.eq_of_getLsbD_eq
  intro i hi
  interval_cases i <;> simp only [BitVec.getLsbD_append, BitVec.getLsbD_extractLsb'] <;> simp

/-- A word that is stored where it is. -/
theorem storeShort_self (mem : ByteMemory) (d : BitVec 32) : storeShort mem d (shortAt mem d) = mem := by
  have base : (alignTo .word d).toNat = d.toNat / 2 * 2 := toNat_alignTo .word d
  funext x
  rw [storeShort_apply, shortAt_bytes]
  split_ifs with here
  · rcases Nat.mod_two_eq_zero_or_one x.toNat with even | odd
    · have same : x = alignTo .word d := by
        apply BitVec.eq_of_toNat_eq
        rw [base]
        omega
      rw [even, same]
      apply BitVec.eq_of_getLsbD_eq
      intro i hi
      interval_cases i <;> simp only [BitVec.getLsbD_append, BitVec.getLsbD_extractLsb'] <;> simp
    · have same : x = alignTo .word d + 1 := by
        apply BitVec.eq_of_toNat_eq
        have := x.isLt
        rw [BitVec.toNat_add, base]
        show _ = (_ + 1) % _
        omega
      rw [odd, same]
      apply BitVec.eq_of_getLsbD_eq
      intro i hi
      interval_cases i <;> simp only [BitVec.getLsbD_append, BitVec.getLsbD_extractLsb'] <;> simp
  · rfl

/-- A word that is put back. -/
theorem storeShort_shortAt (op : BitVec 16) :
    storeShort (storeShort mem d op) d (shortAt mem d) = mem := by
  refine Eq.trans ?_ (storeShort_self mem d)
  funext x
  rw [storeShort_apply, storeShort_apply, storeShort_apply]
  split_ifs <;> rfl

end Memory

/-! ### Accesses -/

/-- The loads and stores of an instruction. -/
def MemInstr.accesses (instr : MemInstr) (code : BitVec 16) (pc : BitVec 32) (S : IsaState) :
    List (MemSize × BitVec 32) :=
  let n := Branch.regN code
  let m := regM code
  let rn := S.regs n
  let rm := S.regs m
  let r0 := S.regs 0
  let gbr := S.regs regGbr
  match instr with
  | .store size => [(size, rn)]
  | .storeDec size => [(size, rn - size.bytes)]
  | .storeIdx size => [(size, rn + r0)]
  | .storeDisp => [(.long, rn + MemSize.long.scale (disp4 code))]
  | .storeDispR0 word | .loadDispR0 word =>
    [(narrow word, rm + (narrow word).scale (disp4 code))]
  | .storeGbr size | .loadGbr size => [(size, gbr + size.scale (immU8 code))]
  | .load size | .loadInc size => [(size, rm)]
  | .loadIdx size => [(size, rm + r0)]
  | .loadDisp => [(.long, rm + MemSize.long.scale (disp4 code))]
  | .loadPcW => [(.word, pc + MemSize.word.scale (immU8 code))]
  | .loadPcL => [(.long, (pc.extractLsb' 2 30 ++ 0#2) + MemSize.long.scale (immU8 code))]
  | .push _ => [(.long, rn - 4)]
  | .pop _ => [(.long, rn)]
  | .tas => [(.byte, rn)]
  | .cas => [(.long, r0), (.long, (S.set n (loadAt S.mem .long r0)).regs 0)]
  | .tstB | .logicB _ => [(.byte, gbr + r0)]

def Instr.accesses : Instr → BitVec 16 → BitVec 32 → IsaState → List (MemSize × BitVec 32)
  | reg _, _, _, _ => []
  | mem instr, code, pc, S => instr.accesses code pc S

namespace Isa

/-- The fetch of the next instruction, and its loads and stores. -/
def accesses (i : Isa) : List (MemSize × BitVec 32) :=
  let code := shortAt i.state.mem i.flow.pc
  (.word, i.flow.pc) ::
    match Instr.ofCode code with
    | some instr => instr.accesses code (i.flow.next + 2) i.state
    | none => []

/-- Those of the next instruction and the one in its delay slot. -/
def stepAccesses (i : Isa) : List (MemSize × BitVec 32) :=
  i.accesses ++
    match i.live with
    | some i' => if i'.flow.inSlot then i'.accesses else []
    | none => []

end Isa

/-! ### Another word -/

/-- Another word in the memory. -/
def IsaState.patch (S : IsaState) (d : BitVec 32) (op : BitVec 16) : IsaState :=
  { S with mem := storeShort S.mem d op }

def Isa.patch (i : Isa) (d : BitVec 32) (op : BitVec 16) : Isa :=
  { i with state := i.state.patch d op }

section Patch

variable {S : IsaState} {d : BitVec 32} {op : BitVec 16}

@[simp] theorem patch_regs : (S.patch d op).regs = S.regs := rfl

@[simp] theorem patch_sr : (S.patch d op).sr = S.sr := rfl

@[simp] theorem patch_set (r : Regnum) (value : BitVec 32) :
    (S.patch d op).set r value = (S.set r value).patch d op := rfl

@[simp] theorem patch_setT (t : Bool) : (S.patch d op).setT t = (S.setT t).patch d op := rfl

@[simp] theorem patch_control (c : Control) : (S.patch d op).control c = S.control c := by
  cases c <;> rfl

@[simp] theorem patch_setControl (c : Control) (value : BitVec 32) :
    (S.patch d op).setControl c value = (S.setControl c value).patch d op := by
  cases c <;> rfl

theorem patch_store {size : MemSize} {a : BitVec 32} (data : BitVec 32) (h : ¬Touches (size, a) d) :
    (S.patch d op).store size a data = (S.store size a data).patch d op :=
  congrArg (fun mem => { S with mem := mem }) (storeAt_storeShort op data h)

theorem patch_load (op : BitVec 16) {size : MemSize} {a : BitVec 32} (h : ¬Touches (size, a) d) :
    loadAt (S.patch d op).mem size a = loadAt S.mem size a :=
  loadAt_storeShort op h

/-- An instruction does not see a word that it does not reach. -/
theorem MemInstr.exec_patch (instr : MemInstr) (op : BitVec 16) (code : BitVec 16) (pc : BitVec 32)
    (clear : ∀ access ∈ instr.accesses code pc S, ¬Touches access d) :
    instr.exec code pc (S.patch d op) = (instr.exec code pc S).patch d op := by
  cases instr with
  | store size => exact patch_store _ (clear _ List.mem_cons_self)
  | storeDec size =>
    exact patch_store (S := S.set (Branch.regN code) (S.regs (Branch.regN code) - size.bytes)) _
      (clear _ List.mem_cons_self)
  | storeIdx size => exact patch_store _ (clear _ List.mem_cons_self)
  | storeDisp => exact patch_store _ (clear _ List.mem_cons_self)
  | storeDispR0 word => exact patch_store _ (clear _ List.mem_cons_self)
  | storeGbr size => exact patch_store _ (clear _ List.mem_cons_self)
  | push c =>
    rw [exec, exec, patch_control]
    exact patch_store (S := S.set (Branch.regN code) (S.regs (Branch.regN code) - 4)) _
      (clear _ List.mem_cons_self)
  | load size | loadInc size | loadIdx size | loadDisp | loadDispR0 word | loadGbr size | loadPcW
  | loadPcL | pop c | tstB =>
    have same := patch_load (S := S) op (clear _ List.mem_cons_self)
    simp only [exec, patch_regs, same, patch_set, patch_setControl, patch_setT]
  | tas | logicB kind =>
    have free := clear _ List.mem_cons_self
    have same := patch_load (S := S) op free
    simp only [exec, patch_regs, same, patch_setT]
    exact patch_store _ free
  | cas =>
    have free := clear _ List.mem_cons_self
    have other := clear _ (List.mem_cons_of_mem _ List.mem_cons_self)
    have same := patch_load (S := S) op free
    simp only [exec, patch_regs, same, patch_set, patch_setT]
    split_ifs
    · exact patch_store _ other
    · rfl

theorem Instr.exec_patch (instr : Instr) (op : BitVec 16) (code : BitVec 16) (pc : BitVec 32)
    (clear : ∀ access ∈ instr.accesses code pc S, ¬Touches access d) :
    instr.exec code pc (S.patch d op) = (instr.exec code pc S).patch d op := by
  cases instr with
  | reg instr => rfl
  | mem instr => exact instr.exec_patch op code pc clear

variable {i : Isa}

theorem accesses_of_instr {instr : Instr}
    (word : Instr.ofCode (shortAt i.state.mem i.flow.pc) = some instr) :
    i.accesses = (.word, i.flow.pc) ::
      instr.accesses (shortAt i.state.mem i.flow.pc) (i.flow.next + 2) i.state := by
  rw [Isa.accesses]
  simp only [word]

/-- The next instruction, with another word somewhere else. -/
theorem live_patch (op : BitVec 16) (clear : ∀ access ∈ i.accesses, ¬Touches access d) {i' : Isa}
    (h : i.live = some i') : (i.patch d op).live = some (i'.patch d op) := by
  have fetched : shortAt (i.patch d op).state.mem i.flow.pc = shortAt i.state.mem i.flow.pc :=
    congrArg (BitVec.setWidth 16) (loadAt_storeShort op (clear _ List.mem_cons_self))
  rcases live_eq_some_iff.mp h with ⟨b, branch, outside, rfl⟩ | ⟨instr, word, rfl⟩
  · rw [← fetched] at branch
    refine live_eq_some_iff.mpr (.inl ⟨b, branch, outside, ?_⟩)
    show _ = Isa.mk (i.flow.branch (shortAt (i.patch d op).state.mem i.flow.pc) i.state.sr.t
      i.state.regs i.state.regs b)
      (if b.links then (i.state.patch d op).set regPr (i.flow.pc + 4) else i.state.patch d op)
    rw [fetched]
    cases b.links with
    | true => rfl
    | false => rfl
  · have later := instr.exec_patch op (shortAt i.state.mem i.flow.pc) (i.flow.next + 2)
      fun access mem => clear access (by
        rw [accesses_of_instr word]
        exact List.mem_cons_of_mem _ mem)
    have same : instr.exec (shortAt (i.patch d op).state.mem i.flow.pc) (i.flow.next + 2)
        (i.state.patch d op) =
          (instr.exec (shortAt i.state.mem i.flow.pc) (i.flow.next + 2) i.state).patch d op := by
      rw [fetched, later]
    rw [← fetched] at word
    exact live_eq_some_iff.mpr (.inr ⟨instr, word, congrArg (Isa.mk i.flow.goOn) same.symm⟩)

/-- The next instruction with its delay slot. -/
theorem stepOver_patch (op : BitVec 16) (clear : ∀ access ∈ i.stepAccesses, ¬Touches access d)
    {i' : Isa} (h : i.stepOver = some i') : (i.patch d op).stepOver = some (i'.patch d op) := by
  rw [Isa.stepOver, Option.bind_eq_some_iff] at h
  obtain ⟨between, first, h⟩ := h
  rw [Isa.stepAccesses, first] at clear
  rw [Isa.stepOver, live_patch op (fun access mem => clear access (List.mem_append_left _ mem)) first,
    Option.bind_some]
  show (if between.flow.inSlot = true then (between.patch d op).live
    else some (between.patch d op)) = _
  by_cases slot : between.flow.inSlot = true
  · rw [if_pos slot] at h ⊢
    refine live_patch op (fun access mem => clear access (List.mem_append_right _ ?_)) h
    show access ∈ if between.flow.inSlot = true then between.accesses else []
    rwa [if_pos slot]
  · rw [if_neg slot, Option.some.injEq] at h
    rw [if_neg slot, h]

/-- What an instruction does not reach stays as it is. -/
theorem shortAt_stepOver (clear : ∀ access ∈ i.stepAccesses, ¬Touches access d) {i' : Isa}
    (h : i.stepOver = some i') : shortAt i'.state.mem d = shortAt i.state.mem d := by
  -- the word that is there is put there again
  have same : i.patch d (shortAt i.state.mem d) = i :=
    congrArg (fun mem => Isa.mk i.flow { i.state with mem := mem }) (storeShort_self _ _)
  have ran := stepOver_patch (shortAt i.state.mem d) clear h
  rw [same, h, Option.some.injEq] at ran
  rw [ran]
  exact shortAt_storeShort _

end Patch

namespace Gdb

/-- A step of the debugger carries out one instruction of the program, with the one in its
delay slot: the program with the trap in it arrives there with the registers and the memory
that it would have had, and finds the trap. When the monitor is entered again, the memory is
that of the program, if and only if the word below the trap was not zero. -/
theorem gdbStep_stepOver (stub : Stub) (addr : BitVec 32) {S : IsaState} {i' : Isa}
    (rep : Represents (stub.registerFile.startAt addr) S) (mem : S.mem = stub.mem)
    (ran : Isa.stepOver { flow := .start (stub.registerFile.startAt addr).pc, state := S } = some i')
    (clear : ∀ access ∈ Isa.stepAccesses
      { flow := .start (stub.registerFile.startAt addr).pc, state := S }, ¬Touches access i'.flow.pc) :
    Isa.stepOver
        { flow := .start (gdbStep stub addr).registerFile.pc
          state := { S with mem := (gdbStep stub addr).mem } } =
      some (i'.patch i'.flow.pc stepOpcode) ∧
    shortAt (i'.patch i'.flow.pc stepOpcode).state.mem i'.flow.pc = stepOpcode ∧
    ∀ rf : RegisterFileS, rf.pc = i'.flow.pc →
      ((gdbMonitorOnentry
          { registerFile := rf
            mem := (i'.patch i'.flow.pc stepOpcode).state.mem
            steppedOpcode := (gdbStep stub addr).steppedOpcode }).mem = i'.state.mem ↔
        shortAt stub.mem i'.flow.pc ≠ 0) := by
  have dest : i'.flow.pc = getStepiDest (stub.registerFile.startAt addr) stub.mem := by
    rw [getStepiDest_eq rep ran, mem]
    rfl
  have word : shortAt i'.state.mem i'.flow.pc = shortAt stub.mem i'.flow.pc := by
    rw [shortAt_stepOver clear ran]
    exact congrArg (fun m => shortAt m i'.flow.pc) mem
  refine ⟨?_, shortAt_storeShort _, fun rf pc => ?_⟩
  · have patched := stepOver_patch stepOpcode clear ran
    rw [dest] at patched ⊢
    refine Eq.trans ?_ patched
    rw [gdbStep, ← mem]
    rfl
  · have stepped : (gdbStep stub addr).steppedOpcode = shortAt stub.mem i'.flow.pc := by
      rw [dest]
      rfl
    rw [gdbMonitorOnentry, stepped]
    by_cases zero : shortAt stub.mem i'.flow.pc ≠ 0
    · rw [if_pos zero]
      refine ⟨fun _ => zero, fun _ => ?_⟩
      show storeShort (storeShort i'.state.mem i'.flow.pc stepOpcode) rf.pc _ = _
      rw [pc, ← word, storeShort_shortAt]
    · rw [if_neg zero]
      refine ⟨fun same => ?_, fun h => absurd h zero⟩
      have trap := @shortAt_storeShort i'.state.mem i'.flow.pc stepOpcode
      rw [show storeShort i'.state.mem i'.flow.pc stepOpcode = i'.state.mem from same, word,
        not_not.mp zero] at trap
      exact absurd trap (by decide)

/-- A branch, the instruction in its delay slot, and the one that it goes to. -/
def sampleCode : Stub :=
  { Stub.zero with mem := storeRegion (fun _ => 0) 0x100 [0xa0, 0x00, 0x71, 0x01, 0x00, 0x09] }

def sampleState : IsaState where
  regs := fun _ => 0
  sr := Datapath.toSr 0
  mem := sampleCode.mem

/-- The step goes over the delay slot. -/
theorem gdbStep_stepOver_sample :
    ∃ i' : Isa, (i'.flow.pc = 0x104 ∧ i'.state.regs 1 = 1) ∧
      Isa.stepOver
          { flow := .start (gdbStep sampleCode 0x100).registerFile.pc
            state := { sampleState with mem := (gdbStep sampleCode 0x100).mem } } =
        some (i'.patch i'.flow.pc stepOpcode) := by
  have runs : (Isa.stepOver { flow := .start 0x100, state := sampleState }).any (fun i =>
      i.flow.pc == 0x104 && i.state.regs 1 == 1) = true := by decide +kernel
  rw [Option.any_eq_true] at runs
  obtain ⟨i', ran, ends⟩ := runs
  rw [Bool.and_eq_true, beq_iff_eq, beq_iff_eq] at ends
  have clear : ∀ access ∈ Isa.stepAccesses { flow := .start 0x100, state := sampleState },
      ¬Touches access i'.flow.pc := by
    rw [ends.1]
    decide +kernel
  have rep : Represents (sampleCode.registerFile.startAt 0x100) sampleState :=
    ⟨fun _ => rfl, rfl, rfl, rfl, rfl⟩
  exact ⟨i', ends, (gdbStep_stepOver sampleCode 0x100 rep rfl ran clear).1⟩

end Gdb

end JCore
