import JCore.Decode.Instructions

/-!
# Branches

What a branch is for: `Flow` holds the addresses of the next two instructions, and an
instruction moves it on. This is the sequence of instructions of the architecture, which
knows of no pipeline. Below it stand the microcode lines of the branches: one that
computes the target and assigns it to PC, one that fetches from there, and for a branch
without a delay slot a third one that drops the instruction fetched in between.

## Main definitions

* `Branch.target`, `Branch.taken`: where a branch goes to, and whether it does
* `Flow`, `Flow.step`: the next two instructions, and what an instruction does to them

## Main results

* `branchLine`, `jumpLine`, `refillLine`: the microcode lines of a branch
-/

namespace JCore

open DecodeTable

/-- PR among the registers of the file. -/
def regPr : Regnum := 0b10010#5

namespace Branch

/-- The instruction behind the branch is executed before it takes effect. -/
def delayed : Branch → Bool
  | bt | bf => false
  | _ => true

/-- Whether the branch is taken, by T. -/
def taken (t : Bool) : Branch → Bool
  | bt | bts => t
  | bf | bfs => !t
  | _ => true

/-- The branch leaves a return address in PR. -/
def links : Branch → Bool
  | bsr | bsrf | jsr => true
  | _ => false

/-- The register that a word names in its second digit. -/
def regN (code : BitVec 16) : Regnum := 0#1 ++ code.extractLsb 11 8

/-- Where a branch at `pc` goes to. A register is read through one of the two ports
of the register file. -/
def target (b : Branch) (code : BitVec 16) (pc : BitVec 32) (portA portB : Regnum → BitVec 32) :
    BitVec 32 :=
  match b with
  | bra | bsr => pc + 4 + immS12_1 code
  | braf | bsrf => pc + 4 + portB (regN code)
  | jmp | jsr => portA (regN code)
  | rts => portB regPr
  | bt | bf | bts | bfs => pc + 4 + immS8_1 code

end Branch

/-! ### The sequence of instructions -/

/-- The next instruction and the one behind it; whether the next one lies in a delay
slot; and the return address, if the one before was a call. -/
@[ext] structure Flow where
  pc : BitVec 32
  next : BitVec 32
  inSlot : Bool
  link : Option (BitVec 32)
  deriving DecidableEq, Repr

namespace Flow

/-- From an address on. -/
def start (pc : BitVec 32) : Flow := { pc := pc, next := pc + 2, inSlot := false, link := none }

variable (f : Flow) (code : BitVec 16) (t : Bool) (portA portB : Regnum → BitVec 32)

/-- On to the instruction behind. -/
def goOn : Flow := { start f.next with link := none }

/-- A branch is carried out. -/
def branch (b : Branch) : Flow :=
  { (if b.taken t then
      if b.delayed then
        { f.goOn with next := b.target code f.pc portA portB, inSlot := true }
      else start (b.target code f.pc portA portB)
    else f.goOn) with
    link := if b.links then some (f.pc + 4) else none }

/-- The instruction `code` at `f.pc` is carried out, with T and the registers before it. -/
def step : Flow :=
  match Branch.ofCode code with
  | none => f.goOn
  | some b => f.branch code t portA portB b

variable {f code t portA portB}

/-- Nothing but whether a branch is taken, and where it goes to, depends on T and on the
registers. -/
theorem step_congr {t' : Bool} {portA' portB' : Regnum → BitVec 32}
    (same : ∀ b, Branch.ofCode code = some b → b.taken t = b.taken t' ∧
      b.target code f.pc portA portB = b.target code f.pc portA' portB') :
    f.step code t portA portB = f.step code t' portA' portB' := by
  rw [step, step]
  cases branch : Branch.ofCode code with
  | none => rfl
  | some b =>
    obtain ⟨taken, target⟩ := same b branch
    show f.branch _ _ _ _ b = f.branch _ _ _ _ b
    rw [Flow.branch, Flow.branch, taken, target]

end Flow

/-- A word that is no system instruction and may stand where it does. -/
structure Ordinary (code : BitVec 16) (inSlot : Bool) : Prop where
  instruction : isInstruction code = true
  notSystem : isSystem code = false
  legal : checkIllegalInstruction code = false
  legalInSlot : inSlot = true → checkIllegalDelaySlot code = false

/-- A branch may not stand in a delay slot. -/
theorem checkIllegalDelaySlot_of_branch {code : BitVec 16} {b : Branch}
    (h : Branch.ofCode code = some b) : checkIllegalDelaySlot code = true := by
  have low : ∀ x : BitVec 8, x = 0x0b ∨ x = 0x2b → x.extractLsb 4 0 = 0b01011 := by decide
  have far : ∀ x : BitVec 8, x = 0x23 ∨ x = 0x03 →
      x.extractLsb 3 2 = 0b00 ∧ x.getLsbD 0 = true := by decide
  have high : ∀ x : BitVec 4, x = 0x9 ∨ x = 0xb ∨ x = 0xd ∨ x = 0xf →
      x.getLsbD 3 = true ∧ x.getLsbD 0 = true := by decide
  rw [checkIllegalDelaySlot_eq]
  rw [Branch.ofCode] at h
  split at h
  case h_1 group =>
    split_ifs at h with rts braf bsrf
    · rw [Bool.and_eq_true, beq_iff_eq, beq_iff_eq] at rts
      simp [group, low _ (.inl rts.2)]
    · simp [group, far _ (.inl (beq_iff_eq.mp braf))]
    · simp [group, far _ (.inr (beq_iff_eq.mp bsrf))]
  case h_2 group =>
    split_ifs at h with jmp jsr
    · simp [group, low _ (.inr (beq_iff_eq.mp jmp))]
    · simp [group, low _ (.inl (beq_iff_eq.mp jsr))]
  case h_3 group =>
    have other : codeHigh code = 0x9 ∨ codeHigh code = 0xb ∨ codeHigh code = 0xd ∨
        codeHigh code = 0xf := by
      split at h
      case h_1 at9 => exact .inl at9
      case h_2 atb => exact .inr (.inl atb)
      case h_3 atd => exact .inr (.inr (.inl atd))
      case h_4 atf => exact .inr (.inr (.inr atf))
      case h_5 => cases h
    simp [group, high _ other]
  case h_4 group => simp [group]
  case h_5 group => simp [group]
  case h_6 => cases h

theorem Ordinary.not_inSlot {code : BitVec 16} {inSlot : Bool} {b : Branch}
    (ordinary : Ordinary code inSlot) (branch : Branch.ofCode code = some b) : inSlot = false := by
  by_contra slot
  have legal := ordinary.legalInSlot (Bool.eq_true_of_not_eq_false slot)
  exact Bool.false_ne_true (legal.symm.trans (checkIllegalDelaySlot_of_branch branch))

/-! ### Microcode lines -/

theorem debug_of_plainLine {line : BitVec 75} (h : plainLine line = true) : debug line = false := by
  simp only [plainLine, Bool.and_eq_true, Bool.not_eq_true'] at h
  exact h.1.1.1.1.1.1.1.1

theorem Plain.debug {addr : BitVec 8} (h : Plain addr) : debug (microcodeLine addr) = false :=
  debug_of_plainLine h.line

/-- A line that can not be stalled: it reads and writes no register and does not wait
for the multiplier. -/
def unstallable (line : BitVec 75) : Bool :=
  xbusSel line != .selReg && ybusSel line != .selReg && !wrregZ line && aluinySel line != .selR0 &&
    !macStallSense line

/-- The first line of a branch: it assigns to PC if the branch is taken, and ends the
instruction if it is not. -/
structure BranchLine (b : Branch) : Prop where
  debug : debug (microcodeLine b.startAddr) = false
  delayJump : delayJump (microcodeLine b.startAddr) = false
  ifadsel : ifadsel (microcodeLine b.startAddr) = false
  wrpcZ : ∀ t, wrpcZ (microcodeLine b.startAddr) t = b.taken t
  dispatch : ∀ t, dispatch (microcodeLine b.startAddr) t = !b.taken t
  /-- A branch that may not be taken fetches on, and one without a delay slot in any case. -/
  ifIssue : ∀ t, ifIssue (microcodeLine b.startAddr) t = (!b.delayed || !b.taken t)
  /-- `RTS` does not refer to PC. -/
  incpc : incpc (microcodeLine b.startAddr) = (b != .rts)
  wrregW : wrregW (microcodeLine b.startAddr) = false
  wrregZ : wrregZ (microcodeLine b.startAddr) = b.links
  wrprPc : wrprPc (microcodeLine b.startAddr) = b.links

theorem branchLine (b : Branch) : BranchLine b := by
  cases b <;> constructor <;> decide +kernel

theorem regnumZ_of_pr {line : BitVec 75} (h : line.extractLsb 38 36 = 0b100) (code : BitVec 16) :
    regnumZ line code = regPr := by
  rw [regnumZ, h]
  rfl

/-- A call writes PR. -/
theorem regnumZ_of_links (b : Branch) (h : b.links = true) (code : BitVec 16) :
    regnumZ (microcodeLine b.startAddr) code = regPr := by
  cases b
  case bsr => exact regnumZ_of_pr (by decide +kernel) code
  case bsrf => exact regnumZ_of_pr (by decide +kernel) code
  case jsr => exact regnumZ_of_pr (by decide +kernel) code
  all_goals cases h

theorem delayed_of_links {b : Branch} (h : b.links = true) : b.delayed = true ∧ b ≠ .rts := by
  cases b
  case bsr => exact ⟨rfl, nofun⟩
  case bsrf => exact ⟨rfl, nofun⟩
  case jsr => exact ⟨rfl, nofun⟩
  all_goals cases h

theorem taken_of_links {b : Branch} (h : b.links = true) (t : Bool) : b.taken t = true := by
  cases b
  case bsr => rfl
  case bsrf => rfl
  case jsr => rfl
  all_goals cases h

/-- The line behind it fetches from the Z bus. -/
structure JumpLine (b : Branch) : Prop where
  debug : debug (microcodeLine (b.startAddr + 1)) = false
  incpc : incpc (microcodeLine (b.startAddr + 1)) = false
  ifIssue : ∀ t, ifIssue (microcodeLine (b.startAddr + 1)) t = true
  ifadsel : ifadsel (microcodeLine (b.startAddr + 1)) = true
  wrpcZ : ∀ t, wrpcZ (microcodeLine (b.startAddr + 1)) t = false
  dispatch : ∀ t, dispatch (microcodeLine (b.startAddr + 1)) t = b.delayed
  delayJump : delayJump (microcodeLine (b.startAddr + 1)) = b.delayed
  unstallable : unstallable (microcodeLine (b.startAddr + 1)) = true
  wrregW : wrregW (microcodeLine (b.startAddr + 1)) = false

theorem jumpLine (b : Branch) : JumpLine b := by
  cases b <;> constructor <;> decide +kernel

/-- Without a delay slot a third line fetches the instruction behind the target. -/
structure RefillLine (b : Branch) : Prop where
  plain : plainLine (microcodeLine (b.startAddr + 2)) = true
  incpc : incpc (microcodeLine (b.startAddr + 2)) = true
  unstallable : unstallable (microcodeLine (b.startAddr + 2)) = true
  wrregW : wrregW (microcodeLine (b.startAddr + 2)) = false

theorem refillLine (b : Branch) (h : b.delayed = false) : RefillLine b := by
  cases b
  case bt => constructor <;> decide +kernel
  case bf => constructor <;> decide +kernel
  all_goals cases h

/-! ### The operands of the target -/

/-- Every target but that of `RTS` is a sum. -/
structure SumLine (b : Branch) : Prop where
  zbusSel : zbusSel (microcodeLine b.startAddr) = .selArith
  aluinxSel : aluinxSel (microcodeLine b.startAddr) = .selXbus
  arithFunc : arithFunc (microcodeLine b.startAddr) = .add
  arithSrFunc : arithSrFunc (microcodeLine b.startAddr) = .zero
  arithCiEn : arithCiEn (microcodeLine b.startAddr) = false

theorem sumLine (b : Branch) (h : b ≠ .rts) : SumLine b := by
  cases b
  case rts => exact absurd rfl h
  all_goals constructor <;> decide +kernel

/-- What the two operands of the sum are. -/
inductive Operands (b : Branch) (code : BitVec 16) : Prop where
  /-- a displacement from PC -/
  | displacement (d : BitVec 32) (x : xbusSel (microcodeLine b.startAddr) = .selPc)
      (y : ybusSel (microcodeLine b.startAddr) = .selImm)
      (iny : aluinySel (microcodeLine b.startAddr) = .selYbus)
      (imm : immVal (microcodeLine b.startAddr) code = d)
      (target : ∀ pc portA portB, b.target code pc portA portB = pc + 4 + d)
  /-- a register's distance from PC -/
  | distance (x : xbusSel (microcodeLine b.startAddr) = .selPc)
      (y : ybusSel (microcodeLine b.startAddr) = .selReg)
      (iny : aluinySel (microcodeLine b.startAddr) = .selYbus)
      (num : regnumY (microcodeLine b.startAddr) code = Branch.regN code)
      (target : ∀ pc portA portB, b.target code pc portA portB = pc + 4 + portB (Branch.regN code))
  /-- a register -/
  | register (x : xbusSel (microcodeLine b.startAddr) = .selReg)
      (iny : aluinySel (microcodeLine b.startAddr) = .selImm)
      (imm : immVal (microcodeLine b.startAddr) code = 0)
      (num : regnumX (microcodeLine b.startAddr) code = Branch.regN code)
      (target : ∀ pc portA portB, b.target code pc portA portB = portA (Branch.regN code))

theorem immVal_of_signed12 {line : BitVec 75} (h : line.extractLsb 59 55 = 0b10001)
    (code : BitVec 16) : immVal line code = immS12_1 code := by
  rw [immVal, h]
  rfl

theorem immVal_of_signed8 {line : BitVec 75} (h : line.extractLsb 59 55 = 0b10000)
    (code : BitVec 16) : immVal line code = immS8_1 code := by
  rw [immVal, h]
  rfl

theorem immVal_of_none {line : BitVec 75} (h : line.extractLsb 59 55 = 0b00001)
    (code : BitVec 16) : immVal line code = 0 := by
  rw [immVal, h]
  rfl

theorem regnumY_of_regN {line : BitVec 75} (h : line.extractLsb 17 13 = 0b10001)
    (code : BitVec 16) : regnumY line code = Branch.regN code := by
  rw [regnumY, h]
  rfl

theorem regnumX_of_regN {line : BitVec 75} (h : line.extractLsb 41 39 = 0b010)
    (code : BitVec 16) : regnumX line code = Branch.regN code := by
  rw [regnumX, h]
  rfl

theorem operands (b : Branch) (h : b ≠ .rts) (code : BitVec 16) : Operands b code := by
  cases b
  case rts => exact absurd rfl h
  case bra | bsr =>
    exact .displacement (immS12_1 code) (by decide +kernel) (by decide +kernel) (by decide +kernel)
      (immVal_of_signed12 (by decide +kernel) code) fun _ _ _ => rfl
  case bt | bf | bts | bfs =>
    exact .displacement (immS8_1 code) (by decide +kernel) (by decide +kernel) (by decide +kernel)
      (immVal_of_signed8 (by decide +kernel) code) fun _ _ _ => rfl
  case braf | bsrf =>
    exact .distance (by decide +kernel) (by decide +kernel) (by decide +kernel)
      (regnumY_of_regN (by decide +kernel) code) fun _ _ _ => rfl
  case jmp | jsr =>
    exact .register (by decide +kernel) (by decide +kernel)
      (immVal_of_none (by decide +kernel) code) (regnumX_of_regN (by decide +kernel) code) fun _ _ _ => rfl

/-- `RTS` passes PR on over the Y bus. -/
structure ReturnLine : Prop where
  zbusSel : zbusSel (microcodeLine Branch.rts.startAddr) = .selYbus
  ybusSel : ybusSel (microcodeLine Branch.rts.startAddr) = .selReg
  regnumY : ∀ code, regnumY (microcodeLine Branch.rts.startAddr) code = regPr

theorem regnumY_of_pr {line : BitVec 75} (h : line.extractLsb 17 13 = 0b00011) (code : BitVec 16) :
    regnumY line code = regPr := by
  rw [regnumY, h]
  rfl

theorem returnLine : ReturnLine :=
  ⟨by decide +kernel, by decide +kernel, regnumY_of_pr (by decide +kernel)⟩

end JCore
