import JCore.Isa.Moves

/-!
# The instruction set

The instructions on registers and those on the memory together: the words that stand for
them, where their microcode starts, and that its lines do what the instruction is to do.

## Main definitions

* `Instr`, `Instr.ofCode`: the instructions, and the words that stand for them
* `Instr.exec`: what an instruction does

## Main results

* `Instr.start_of_code`: where the microcode of a word starts
* `Instr.finish_agrees`: what the microcode does
-/

namespace JCore

open DecodeTable

/-! ### Register instructions -/

namespace RegInstr

/-- What the instruction `code` does at a PC four bytes behind it. -/
def execIsa (instr : RegInstr) (code : BitVec 16) (pc : BitVec 32) (S : IsaState) : IsaState where
  regs := applyWrite S.regs (instr.exec code pc (fun _ => S.regs) S.sr).1
  sr := (instr.exec code pc (fun _ => S.regs) S.sr).2
  mem := S.mem

def lines (instr : RegInstr) : List (Bool → Line) := [fun _ => instr.line]

theorem incpc_startAddr (instr : RegInstr) : incpc (microcodeLine instr.startAddr) = true := by
  cases instr <;> decide +kernel

theorem coded_lines (instr : RegInstr) : coded instr.lines instr.startAddr = true := by
  rw [lines, coded, ofRom_startAddr, ofRom_startAddr, incpc_startAddr, beq_self_eq_true]
  rfl

/-- The lines neither load nor store. -/
theorem quiet_line (instr : RegInstr) : instr.line.wrregW = false ∧ instr.line.wrsrW = false ∧
    instr.line.maIssue = false := by
  cases instr <;> decide

/-- The registers that they write have numbers. -/
theorem exec_congr (instr : RegInstr) {code : BitVec 16} {pc : BitVec 32} {M : Machine} {S : IsaState}
    (h : M.Agrees S) : instr.exec code pc M.regs M.sr = instr.exec code pc (fun _ => S.regs) S.sr := by
  have gbr : M.regs .b 0x10 = S.regs 0x10 := h.b (by decide)
  have vbr : M.regs .b 0x11 = S.regs 0x11 := h.b (by decide)
  have pr : M.regs .b regPr = S.regs regPr := h.b (by decide)
  have r0 : M.regs .a 0 = S.regs 0 := h.a (by decide)
  have n : M.regs .a (Branch.regN code) = S.regs (Branch.regN code) := h.aN
  have n' : M.regs .b (Branch.regN code) = S.regs (Branch.regN code) := h.bN
  have m : M.regs .b (regM code) = S.regs (regM code) := h.bM
  cases instr <;> simp only [exec, gbr, vbr, pr, r0, n, n', m, h.sr]

theorem agrees (instr : RegInstr) (code : BitVec 16) (pc : BitVec 32) {M : Machine} {S : IsaState}
    (h : M.Agrees S) : (instr.line.exec code pc M).Agrees (instr.execIsa code pc S) := by
  obtain ⟨w, ws, issue⟩ := instr.quiet_line
  have value : (instr.line.write code (M.values pc), instr.line.sr code (M.values pc)) =
      instr.exec code pc (fun _ => S.regs) S.sr :=
    (instr.computes code (M.values pc)).trans (instr.exec_congr h)
  have target : instr.line.target code = none := by
    rw [Line.target]
    exact if_neg (Bool.eq_false_iff.mp w)
  have request : instr.line.request code (M.values pc) = none := by
    rw [Line.request]
    exact if_neg (Bool.eq_false_iff.mp issue)
  have write : instr.line.write code (M.values pc) = _ := congrArg Prod.fst value
  have sr : instr.line.sr code (M.values pc) = _ := congrArg Prod.snd value
  rw [Line.exec, target, request, ws, if_neg Bool.false_ne_true, sr]
  refine ⟨fun port r visible => ?_, rfl, h.mem⟩
  show applyWrite (M.regs port) (instr.line.write code (M.values pc)) r = applyWrite S.regs _ r
  rw [write]
  cases instr.exec code pc (fun _ => S.regs) S.sr with
  | mk written sr' =>
    cases written with
    | none => exact h.regs port r visible
    | some write =>
      obtain ⟨key, value⟩ := write
      rw [applyWrite_some, applyWrite_some, h.regs port r visible]

end RegInstr

/-! ### Instructions -/

/-- The instructions that work on the registers, SR and the memory. -/
inductive Instr where
  | reg (instr : RegInstr)
  | mem (instr : MemInstr)
  deriving DecidableEq, Repr

namespace Instr

def ofCode (code : BitVec 16) : Option Instr :=
  match RegInstr.ofCode code with
  | some instr => some (.reg instr)
  | none => (MemInstr.ofCode code).map .mem

def exec : Instr → BitVec 16 → BitVec 32 → IsaState → IsaState
  | reg instr => instr.execIsa
  | mem instr => instr.exec

def startAddr : Instr → BitVec 8
  | reg instr => instr.startAddr
  | mem instr => instr.startAddr

def lines : Instr → List (Bool → Line)
  | reg instr => instr.lines
  | mem instr => instr.lines

theorem coded_lines (instr : Instr) : coded instr.lines instr.startAddr = true := by
  cases instr with
  | reg instr => exact instr.coded_lines
  | mem instr => exact instr.coded_lines

theorem length_lines (instr : Instr) : instr.lines.length ≤ 4 := by
  cases instr with
  | reg instr => exact Nat.le_of_ble_eq_true rfl
  | mem instr =>
    rcases instr with _ | _ | _ | _ | _ | _ | _ | _ | _ | _ | _ | _ | _ | _ | ⟨⟨⟩⟩ | ⟨⟨⟩⟩ | _ | _ | _ | _ <;>
      exact Nat.le_of_ble_eq_true rfl

/-- The microcode does what the instruction is to do. -/
theorem finish_agrees (instr : Instr) (code : BitVec 16) (counter : BitVec 32) {M : Machine}
    {S : IsaState} (h : M.Agrees S) :
    (M.finish code counter 4 instr.startAddr).Agrees (instr.exec code (counter + 2) S) := by
  rw [Machine.finish_eq_runLines instr.coded_lines instr.length_lines]
  cases instr with
  | reg instr => exact instr.agrees code (counter + 2) h
  | mem instr => exact instr.computes code counter M S h

end Instr

/-! ### Words -/

section Digits

/-- A test of words that only looks at the digits which tell instructions apart. -/
structure ByDigits (p : BitVec 16 → Bool) : Prop where
  low : ∀ code code', codeLow code = codeLow code' → codeGroup code = codeGroup code' →
    (codeGroup code' = 0 → (codeHigh code == 0) = (codeHigh code' == 0)) →
    codeGroup code' ∈ [0x0, 0x2, 0x3, 0x4, 0x6, 0xf] → p code = p code'
  high : ∀ code code', codeHigh code = codeHigh code' → codeGroup code = codeGroup code' →
    codeGroup code' ∈ [0x8, 0xc] → p code = p code'
  group : ∀ code code', codeGroup code = codeGroup code' →
    codeGroup code' ∈ [0x1, 0x5, 0x7, 0x9, 0xa, 0xb, 0xd, 0xe] → p code = p code'

/-- The first two digits of the words whose low byte is tried. -/
def lowDigits : List (BitVec 4 × BitVec 4) :=
  [(0x0, 0x0), (0x0, 0x1), (0x2, 0x0), (0x3, 0x0), (0x4, 0x0), (0x6, 0x0), (0xf, 0x0)]

/-- One word for each value of the digits. -/
def digitWords : List (BitVec 16) :=
  lowDigits.flatMap (fun digits =>
      (List.range 256).map fun low => ofDigits digits.1 digits.2 (BitVec.ofNat 8 low)) ++
    [0x8#4, 0xc].flatMap (fun group =>
      (List.range 16).map fun high => ofDigits group (BitVec.ofNat 4 high) 0) ++
    [0x1#4, 0x5, 0x7, 0x9, 0xa, 0xb, 0xd, 0xe].map fun group => ofDigits group 0 0

theorem ByDigits.forall {p : BitVec 16 → Bool} (h : ByDigits p) (test : digitWords.all p = true)
    (code : BitVec 16) : p code = true := by
  rw [digitWords, List.all_append, List.all_append, Bool.and_eq_true, Bool.and_eq_true] at test
  obtain ⟨⟨low, high⟩, group⟩ := test
  simp only [List.all_eq_true, List.mem_flatMap, List.mem_map, List.mem_range] at low high group
  have groups : ∀ g : BitVec 4, g ∈ [0x0#4, 0x2, 0x3, 0x4, 0x6, 0xf] ∨ g ∈ [0x8#4, 0xc] ∨
      g ∈ [0x1#4, 0x5, 0x7, 0x9, 0xa, 0xb, 0xd, 0xe] := by decide
  have second : ∀ g x : BitVec 4, g ∈ [0x0#4, 0x2, 0x3, 0x4, 0x6, 0xf] →
      ∃ y, (g, y) ∈ lowDigits ∧ (g = 0 → (x == 0) = (y == 0)) := by decide
  rcases groups (codeGroup code) with mem | mem | mem
  · obtain ⟨y, digits, zero⟩ := second _ (codeHigh code) mem
    rw [h.low code (ofDigits (codeGroup code) y (codeLow code))]
    · refine low _ ⟨_, digits, (codeLow code).toNat, (codeLow code).isLt, ?_⟩
      rw [BitVec.ofNat_toNat, BitVec.setWidth_eq]
    · rw [codeLow_ofDigits]
    · rw [codeGroup_ofDigits]
    · rw [codeHigh_ofDigits, codeGroup_ofDigits]
      exact zero
    · rwa [codeGroup_ofDigits]
  · rw [h.high code (ofDigits (codeGroup code) (codeHigh code) 0)]
    · refine high _ ⟨_, mem, (codeHigh code).toNat, (codeHigh code).isLt, ?_⟩
      rw [BitVec.ofNat_toNat, BitVec.setWidth_eq]
    · rw [codeHigh_ofDigits]
    · rw [codeGroup_ofDigits]
    · rwa [codeGroup_ofDigits]
  · rw [h.group code (ofDigits (codeGroup code) 0 0)]
    · exact group _ ⟨_, mem, rfl⟩
    · rw [codeGroup_ofDigits]
    · rwa [codeGroup_ofDigits]

end Digits

/-- What the microcode and the checks have to be like for an instruction. -/
def instrOk (code : BitVec 16) : Bool :=
  match Branch.ofCode code, Instr.ofCode code with
  | none, none => true
  | none, some instr =>
    predecodeRomAddr code == instr.startAddr && isInstruction code && !isSystem code &&
      !checkIllegalDelaySlot code && codeGroup code != 0xf
  | some _, none => isInstruction code && !isSystem code && codeGroup code != 0xf
  | some _, some _ => false

theorem byDigits_instrOk : ByDigits instrOk where
  low := by
    intro code code' low group zero h
    have predecode := predecodeRomAddr_congr_low low group zero h
    simp only [List.mem_cons, List.not_mem_nil, or_false] at h
    rcases h with h | h | h | h | h | h
    · simp only [instrOk, Instr.ofCode, RegInstr.ofCode, MemInstr.ofCode, isInstruction, isSystem,
        Branch.ofCode, checkIllegalDelaySlot_eq, group, h, low, zero h, predecode]
      rfl
    all_goals
      simp only [instrOk, Instr.ofCode, RegInstr.ofCode, MemInstr.ofCode, isInstruction, isSystem,
        Branch.ofCode, checkIllegalDelaySlot_eq, group, h, low, predecode]
      rfl
  high := by
    intro code code' high group h
    have predecode := predecodeRomAddr_congr_high high group h
    simp only [List.mem_cons, List.not_mem_nil, or_false] at h
    rcases h with h | h <;>
      simp only [instrOk, Instr.ofCode, RegInstr.ofCode, MemInstr.ofCode, isInstruction, isSystem,
        Branch.ofCode, checkIllegalDelaySlot_eq, group, h, high, predecode] <;> rfl
  group := by
    intro code code' group h
    have digit : code.extractLsb 15 12 = codeGroup code := rfl
    have digit' : code'.extractLsb 15 12 = codeGroup code' := rfl
    simp only [List.mem_cons, List.not_mem_nil, or_false] at h
    rcases h with h | h | h | h | h | h | h | h <;>
      simp only [instrOk, Instr.ofCode, RegInstr.ofCode, MemInstr.ofCode, isInstruction, isSystem,
        Branch.ofCode, checkIllegalDelaySlot_eq, predecodeRomAddr, digit, digit', group, h] <;> rfl

/-- The microcode of an instruction starts where it should. -/
theorem instrOk_eq_true (code : BitVec 16) : instrOk code = true :=
  byDigits_instrOk.forall (by decide +kernel) code

/-- A word of the last group is none of them. -/
theorem checkIllegalInstruction_of_group {code : BitVec 16} (h : codeGroup code ≠ 0xf) :
    checkIllegalInstruction code = false := by
  rw [checkIllegalInstruction, beq_eq_false_iff_ne]
  intro ff
  have digit : codeGroup code = (code.extractLsb 15 8).extractLsb' 4 4 := by
    apply BitVec.eq_of_getLsbD_eq
    intro i hi
    interval_cases i <;> simp [codeGroup]
  rw [digit, ff] at h
  exact h (by decide)

/-- Where the microcode of an instruction starts, and that it may stand in a delay slot. -/
theorem Instr.start_of_code {code : BitVec 16} {instr : Instr} (h : Instr.ofCode code = some instr) :
    Branch.ofCode code = none ∧ predecodeRomAddr code = instr.startAddr ∧
      ∀ inSlot, Ordinary code inSlot := by
  have ok := instrOk_eq_true code
  rw [instrOk, h] at ok
  cases branch : Branch.ofCode code with
  | some b =>
    rw [branch] at ok
    exact absurd ok Bool.false_ne_true
  | none =>
    rw [branch] at ok
    simp only [Bool.and_eq_true, beq_iff_eq, Bool.not_eq_true', bne_iff_ne] at ok
    obtain ⟨⟨⟨⟨start, legal⟩, ordinary⟩, slot⟩, group⟩ := ok
    exact ⟨rfl, start, fun _ => ⟨legal, ordinary, checkIllegalInstruction_of_group group, fun _ => slot⟩⟩

/-- A branch may stand anywhere but in a delay slot. -/
theorem ordinary_of_branch {code : BitVec 16} {b : Branch} (h : Branch.ofCode code = some b) :
    Ordinary code false := by
  have ok := instrOk_eq_true code
  rw [instrOk, h] at ok
  cases other : Instr.ofCode code with
  | some instr =>
    rw [other] at ok
    exact absurd ok Bool.false_ne_true
  | none =>
    rw [other] at ok
    simp only [Bool.and_eq_true, Bool.not_eq_true', bne_iff_ne] at ok
    obtain ⟨⟨legal, ordinary⟩, group⟩ := ok
    exact ⟨legal, ordinary, checkIllegalInstruction_of_group group, nofun⟩

end JCore
