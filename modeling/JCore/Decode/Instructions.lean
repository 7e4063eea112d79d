import JCore.Decode.Digits
import JCore.Decode.Table

/-!
# The instructions

Which words are instructions, from the patterns of the architecture `simple` of
the table, and which of them branch. The microcode knows only start addresses:
here the words are related to the lines at which `predecode_rom_addr` lets them
start.

## Main definitions

* `isInstruction`: the words that some pattern matches
* `Branch.ofCode`: the branches among them
* `Plain`: from this address on the lines fetch the next instruction in sequence

## Main results

* `start_of_instruction`: where an instruction starts
-/

namespace JCore

/-! ### Instruction words -/

section Words

variable (code : BitVec 16)

/-- The patterns of the table, by the first digit. -/
def isInstruction : Bool :=
  match codeGroup code with
  | 0x0 =>
    (codeHigh code == 0 &&
      [0x08, 0x09, 0x0b, 0x18, 0x19, 0x1b, 0x28, 0x2b, 0x3b].contains (codeLow code)) ||
    [0x02, 0x03, 0x0a, 0x12, 0x1a, 0x22, 0x23, 0x29, 0x2a, 0x5a].contains (codeLow code) ||
    [0x4, 0x5, 0x6, 0x7, 0xc, 0xd, 0xe, 0xf].contains ((codeLow code).extractLsb 3 0)
  | 0x3 => !([0x1, 0x9].contains ((codeLow code).extractLsb 3 0))
  | 0x4 =>
    [0x00, 0x01, 0x02, 0x03, 0x04, 0x05, 0x06, 0x07, 0x08, 0x09, 0x0a, 0x0b, 0x0e, 0x10, 0x11, 0x12,
      0x13, 0x15, 0x16, 0x17, 0x18, 0x19, 0x1a, 0x1b, 0x1e, 0x20, 0x21, 0x22, 0x23, 0x24, 0x25, 0x26,
      0x27, 0x28, 0x29, 0x2a, 0x2b, 0x2e, 0x5a, 0x88, 0x89, 0xc8, 0xc9].contains (codeLow code) ||
    [0xc, 0xd, 0xf].contains ((codeLow code).extractLsb 3 0)
  | 0x8 => [0x0, 0x1, 0x4, 0x5, 0x8, 0x9, 0xb, 0xd, 0xf].contains (codeHigh code)
  | 0xf => [0x0d, 0x1d].contains (codeLow code)
  -- every word of the other groups is one
  | _ => true

/-- `RTE`, `SLEEP`, `BGND` and `TRAPA`. -/
def isSystem : Bool :=
  match codeGroup code with
  | 0x0 => codeHigh code == 0 && [0x1b, 0x2b, 0x3b].contains (codeLow code)
  | 0xc => codeHigh code == 0x3
  | _ => false

end Words

/-- The instructions that assign to PC and are not system instructions. -/
inductive Branch where
  | bra | bsr | braf | bsrf | jmp | jsr | rts | bt | bf | bts | bfs
  deriving DecidableEq, Repr

namespace Branch

def ofCode (code : BitVec 16) : Option Branch :=
  match codeGroup code with
  | 0x0 =>
    if codeHigh code == 0 && codeLow code == 0x0b then some .rts
    else if codeLow code == 0x23 then some .braf
    else if codeLow code == 0x03 then some .bsrf
    else none
  | 0x4 =>
    if codeLow code == 0x2b then some .jmp
    else if codeLow code == 0x0b then some .jsr
    else none
  | 0x8 =>
    match codeHigh code with
    | 0x9 => some .bt
    | 0xb => some .bf
    | 0xd => some .bts
    | 0xf => some .bfs
    | _ => none
  | 0xa => some .bra
  | 0xb => some .bsr
  | _ => none

/-- The address of the first microcode line. -/
def startAddr : Branch → BitVec 8
  | bra => 177
  | bsr => 179
  | braf => 84
  | bsrf => 86
  | jmp => 63
  | jsr => 65
  | rts => 8
  | bt => 172
  | bf => 167
  | bts => 175
  | bfs => 170

end Branch

/-! ### Microcode lines -/

open DecodeTable

/-- A line that leaves PC to the fetch: it fetches the next instruction, moves PC
and dispatches, or it does none of these. -/
def plainLine (line : BitVec 75) : Bool :=
  !debug line && !delayJump line && !ifadsel line && !wrpcZ line true && !wrpcZ line false &&
    ifIssue line true == incpc line && ifIssue line false == incpc line &&
    dispatch line true == incpc line && dispatch line false == incpc line

/-- Lines of this kind up to one that dispatches, at most `n` of them. -/
def plainFor : ℕ → BitVec 8 → Bool
  | 0, _ => false
  | n + 1, addr =>
    plainLine (microcodeLine addr) && (incpc (microcodeLine addr) || plainFor n (addr + 1))

/-- From this address on the operation leaves PC to the fetch. -/
def Plain (addr : BitVec 8) : Prop := ∃ n, plainFor n addr = true

theorem Plain.line {addr : BitVec 8} (h : Plain addr) : plainLine (microcodeLine addr) = true := by
  obtain ⟨n, h⟩ := h
  cases n with
  | zero => exact absurd h Bool.false_ne_true
  | succ n => exact ((Bool.and_eq_true _ _).mp h).1

theorem Plain.succ {addr : BitVec 8} (h : Plain addr)
    (more : incpc (microcodeLine addr) = false) : Plain (addr + 1) := by
  obtain ⟨n, h⟩ := h
  cases n with
  | zero => exact absurd h Bool.false_ne_true
  | succ n =>
    rw [plainFor, more, Bool.false_or, Bool.and_eq_true] at h
    exact ⟨n, h.2⟩

/-! ### The digits of a word -/

section Fields

variable {code code' : BitVec 16}

/-- The check for delay slots by the digits. -/
theorem checkIllegalDelaySlot_eq : checkIllegalDelaySlot code =
    ((codeGroup code == 0x0 && (codeLow code).extractLsb 3 2 == 0b00 && (codeLow code).getLsbD 0) ||
      ((codeGroup code == 0x8 || codeGroup code == 0xa) && (codeHigh code).getLsbD 3 &&
        (codeHigh code).getLsbD 0) ||
      (codeGroup code == 0xa || codeGroup code == 0xb) ||
      ((codeGroup code == 0x8 || codeGroup code == 0xc) && codeHigh code == 0x3) ||
      ((codeGroup code == 0x0 || codeGroup code == 0x4) &&
        (codeLow code).extractLsb 4 0 == 0b01011)) := by
  -- each slice of the word as slices of its digits
  have h32 : code.extractLsb 3 2 = (codeLow code).extractLsb 3 2 := by
    apply BitVec.eq_of_getLsbD_eq
    intro i hi
    interval_cases i <;> simp [codeLow]
  have h40 : code.extractLsb 4 0 = (codeLow code).extractLsb 4 0 := by
    apply BitVec.eq_of_getLsbD_eq
    intro i hi
    interval_cases i <;> simp [codeLow]
  have h1514 : code.extractLsb 15 14 = (codeGroup code).extractLsb 3 2 := by
    apply BitVec.eq_of_getLsbD_eq
    intro i hi
    interval_cases i <;> simp [codeGroup]
  have h1513 : code.extractLsb 15 13 = (codeGroup code).extractLsb 3 1 := by
    apply BitVec.eq_of_getLsbD_eq
    intro i hi
    interval_cases i <;> simp [codeGroup]
  have h1312 : code.extractLsb 13 12 = (codeGroup code).extractLsb 1 0 := by
    apply BitVec.eq_of_getLsbD_eq
    intro i hi
    interval_cases i <;> simp [codeGroup]
  have h1211 : code.extractLsb 12 11 =
      (codeGroup code).extractLsb 0 0 ++ (codeHigh code).extractLsb 3 3 := by
    apply BitVec.eq_of_getLsbD_eq
    intro i hi
    interval_cases i <;>
      simp only [codeGroup, codeHigh, BitVec.getLsbD_append, BitVec.getLsbD_extractLsb] <;> simp
  have h138 : code.extractLsb 13 8 = (codeGroup code).extractLsb 1 0 ++ codeHigh code := by
    apply BitVec.eq_of_getLsbD_eq
    intro i hi
    interval_cases i <;>
      simp only [codeGroup, codeHigh, BitVec.getLsbD_append, BitVec.getLsbD_extractLsb] <;> simp
  have h15 : code.getLsbD 15 = (codeGroup code).getLsbD 3 := by simp [codeGroup]
  have h8 : code.getLsbD 8 = (codeHigh code).getLsbD 0 := by simp [codeHigh]
  have h0 : code.getLsbD 0 = (codeLow code).getLsbD 0 := (getLsbD_codeLow (by decide)).symm
  have hgroup : code.extractLsb 15 12 = codeGroup code := rfl
  have digits : ∀ (g h : BitVec 4) (b c d : Bool),
      ((g == 0b0000 && b && c) ||
        (g.extractLsb 3 2 == 0b10 && (g.extractLsb 0 0 ++ h.extractLsb 3 3) == 0b01#2 &&
          h.getLsbD 0) ||
        g.extractLsb 3 1 == 0b101 ||
        (g.getLsbD 3 && (g.extractLsb 1 0 ++ h) == 0b000011#6) ||
        (!g.getLsbD 3 && g.extractLsb 1 0 == 0b00 && d)) =
      ((g == 0x0 && b && c) || ((g == 0x8 || g == 0xa) && h.getLsbD 3 && h.getLsbD 0) ||
        (g == 0xa || g == 0xb) || ((g == 0x8 || g == 0xc) && h == 0x3) ||
        ((g == 0x0 || g == 0x4) && d)) := by decide +kernel
  rw [← digits, checkIllegalDelaySlot, hgroup, h32, h0, h1514, h1211, h8, h1513, h15, h138, h1312,
    h40]
  rfl

/-! ### Start addresses -/

/-- What the microcode has to be like at the start of a word, if it is an
instruction. -/
def startOk (code : BitVec 16) : Bool :=
  !isInstruction code || isSystem code ||
    match Branch.ofCode code with
    | some b => predecodeRomAddr code == b.startAddr
    | none => plainFor 4 (predecodeRomAddr code) && !checkIllegalDelaySlot code

/-- In these groups only the low digits tell the instructions apart, in the first
also whether the second digit is zero. -/
theorem startOk_congr_low (low : codeLow code = codeLow code') (group : codeGroup code = codeGroup code')
    (high : codeGroup code' = 0 → (codeHigh code == 0) = (codeHigh code' == 0))
    (h : codeGroup code' ∈ [0x0, 0x2, 0x3, 0x4, 0x6, 0xf]) : startOk code = startOk code' := by
  have predecode := predecodeRomAddr_congr_low low group high h
  simp only [List.mem_cons, List.not_mem_nil, or_false] at h
  rcases h with h | h | h | h | h | h
  · simp only [startOk, isInstruction, isSystem, Branch.ofCode, checkIllegalDelaySlot_eq, group, h,
      low, high h, predecode]
    rfl
  all_goals
    simp only [startOk, isInstruction, isSystem, Branch.ofCode, checkIllegalDelaySlot_eq, group, h,
      low, predecode]
    rfl

/-- In these groups the second digit does. -/
theorem startOk_congr_high (high : codeHigh code = codeHigh code')
    (group : codeGroup code = codeGroup code') (h : codeGroup code' ∈ [0x8, 0xc]) :
    startOk code = startOk code' := by
  have predecode := predecodeRomAddr_congr_high high group h
  simp only [List.mem_cons, List.not_mem_nil, or_false] at h
  rcases h with h | h <;>
    simp only [startOk, isInstruction, isSystem, Branch.ofCode, checkIllegalDelaySlot_eq, group, h,
      high, predecode] <;> rfl

/-- A group is tested by its low digits. -/
theorem startOk_of_low {group : BitVec 4} (h : codeGroup code = group)
    (mem : group ∈ [0x2, 0x3, 0x4, 0x6, 0xf])
    (test : ((List.range 256).all fun k => startOk (ofDigits group 0 (BitVec.ofNat 8 k))) = true) :
    startOk code = true := by
  rw [startOk_congr_low (codeLow_ofDigits group 0 (codeLow code)).symm]
  · exact forall_addr (p := fun low => startOk (ofDigits group 0 low)) test _
  · rw [h, codeGroup_ofDigits]
  · rw [codeGroup_ofDigits]
    rintro rfl
    exact absurd mem (by decide)
  · rw [codeGroup_ofDigits]
    exact List.mem_cons_of_mem _ mem

theorem startOk_of_high {group : BitVec 4} (h : codeGroup code = group) (mem : group ∈ [0x8, 0xc])
    (test : ∀ high, startOk (ofDigits group high 0) = true) : startOk code = true := by
  rw [startOk_congr_high (codeHigh_ofDigits group (codeHigh code) 0).symm]
  · exact test _
  · rw [h, codeGroup_ofDigits]
  · rw [codeGroup_ofDigits]
    exact mem

theorem startOk_group0 (h : codeGroup code = 0x0) : startOk code = true := by
  have test : ∀ high ∈ [0x0#4, 0x1#4], ∀ low, startOk (ofDigits 0x0 high low) = true := by
    simp only [List.mem_cons, List.not_mem_nil, or_false]
    rintro high (rfl | rfl)
    · exact forall_addr (p := fun low => startOk (ofDigits 0x0 0x0 low)) (by decide +kernel)
    · exact forall_addr (p := fun low => startOk (ofDigits 0x0 0x1 low)) (by decide +kernel)
  have same : ∀ high, (codeHigh code == 0) = (high == 0) →
      startOk code = startOk (ofDigits 0x0 high (codeLow code)) := by
    intro high hhigh
    refine startOk_congr_low (codeLow_ofDigits _ _ _).symm ?_ ?_ ?_
    · rw [h, codeGroup_ofDigits]
    · rw [codeHigh_ofDigits]
      exact fun _ => hhigh
    · rw [codeGroup_ofDigits]
      decide
  rcases hzero : codeHigh code == 0 with _ | _
  · rw [same 0x1 (hzero.trans (by decide))]
    exact test _ (by decide) _
  · rw [same 0x0 (hzero.trans (by decide))]
    exact test _ (by decide) _

/-- The microcode of every instruction starts where it should. -/
theorem startOk_eq_true (code : BitVec 16) : startOk code = true := by
  have whole : ∀ group ∈ [0x1#4, 0x5, 0x7, 0x9, 0xa, 0xb, 0xd, 0xe], codeGroup code = group →
      startOk code = true := by
    simp only [List.mem_cons, List.not_mem_nil, or_false]
    have hgroup : code.extractLsb 15 12 = codeGroup code := rfl
    -- what remains after the digits are filled in is about one line
    rintro group (rfl | rfl | rfl | rfl | rfl | rfl | rfl | rfl) h <;>
      simp [startOk, isInstruction, isSystem, Branch.ofCode, Branch.startAddr,
        checkIllegalDelaySlot_eq, predecodeRomAddr, hgroup, h] <;>
      decide +kernel
  have groups : ∀ group : BitVec 4, group ∈ [0x1#4, 0x5, 0x7, 0x9, 0xa, 0xb, 0xd, 0xe] ∨ group = 0x0 ∨
      group ∈ [0x2#4, 0x3, 0x4, 0x6, 0xf] ∨ group ∈ [0x8#4, 0xc] := by decide
  rcases groups (codeGroup code) with h | h | h | h
  · exact whole _ h rfl
  · exact startOk_group0 h
  · refine startOk_of_low rfl h ?_
    simp only [List.mem_cons, List.not_mem_nil, or_false] at h
    rcases h with h | h | h | h | h <;> rw [h] <;> decide +kernel
  · refine startOk_of_high rfl h ?_
    simp only [List.mem_cons, List.not_mem_nil, or_false] at h
    rcases h with h | h <;> rw [h] <;> decide +kernel

/-- Where an instruction starts that is no system instruction. A branch has its own
lines; what is none leaves PC to the fetch and may stand in a delay slot. -/
theorem start_of_instruction (code : BitVec 16) (legal : isInstruction code = true)
    (ordinary : isSystem code = false) :
    match Branch.ofCode code with
    | some b => predecodeRomAddr code = b.startAddr
    | none => Plain (predecodeRomAddr code) ∧ checkIllegalDelaySlot code = false := by
  have h := startOk_eq_true code
  rw [startOk, legal, ordinary, Bool.not_true, Bool.false_or, Bool.false_or] at h
  cases hb : Branch.ofCode code with
  | some b =>
    rw [hb] at h
    exact beq_iff_eq.mp h
  | none =>
    rw [hb] at h
    simp only [Bool.and_eq_true, Bool.not_eq_true'] at h
    exact ⟨⟨4, h.1⟩, h.2⟩

end Fields

end JCore
