import JCore.Decode.Digits
import JCore.Decode.Sequencing

/-!
# The microcode of the locked instructions

`TAS.B` and `CAS.L` read a datum and write one back while the data bus is locked.
Each has four lines. One of them starts the read and the one after the next the
write, these three lock the bus, and no other line of the memory does.

## Main definitions

* `isTasB`, `isCasL`: the words of the two instructions
* `tasAddr`, `casAddr`: the addresses of their lines
* `Operation.Placed`: an operation is at a line of its own instruction
* `LockedLine`: what the microcode promises about the line at an address

## Main results

* `placed_nextOp`, `Operation.Placed.succ`: operations begin and stay in their place
* `lockedLine`: every line keeps the promise
-/

namespace JCore

open DecodeTable

/-- `TAS.B @Rn`. -/
def isTasB (code : BitVec 16) : Bool := codeGroup code == 0x4 && codeLow code == 0x1b

/-- `CAS.L Rm, Rn, @R0`. -/
def isCasL (code : BitVec 16) : Bool :=
  codeGroup code == 0x2 && (codeLow code).extractLsb 3 0 == 0x3

def tasAddr (addr : BitVec 8) : Bool := 40#8 ≤ addr && addr ≤ 43#8

/-- The lines of `CAS.L` from number `n` on. -/
def casFrom (n addr : BitVec 8) : Bool := 98 + n ≤ addr && addr ≤ 101#8

def casAddr (addr : BitVec 8) : Bool := casFrom 0 addr

/-- The lines that start the read. -/
def lockedRead (addr : BitVec 8) : Bool := addr == 40 || addr == 99

/-- The lines that start the write. -/
def lockedWrite (addr : BitVec 8) : Bool := addr == 42 || addr == 101

/-- The write of `CAS.L`, which depends on T. -/
def casWrite (addr : BitVec 8) : Bool := addr == 101

theorem casFrom_mono {m n addr : BitVec 8} (hm : m ≤ n) (hn : n ≤ 3) (h : casFrom n addr = true) :
    casFrom m addr = true := by
  simp only [casFrom, Bool.and_eq_true, decide_eq_true_eq, BitVec.le_def,
    BitVec.toNat_add, BitVec.reduceToNat] at hm hn h ⊢
  omega

theorem casWrite_eq {addr : BitVec 8} : casWrite addr = casFrom 3 addr := by
  have test := forall_addr (p := fun addr => casWrite addr == casFrom 3 addr) (by decide +kernel)
  exact beq_iff_eq.mp (test addr)

theorem casAddr_of_casWrite {addr : BitVec 8} (h : casWrite addr = true) : casAddr addr = true := by
  rw [casWrite_eq] at h
  exact casFrom_mono (by decide) (by decide) h

namespace Operation

variable (o : Operation)

def tasB : Bool := o.plane == .normalInstr && isTasB o.code

def casL : Bool := o.plane == .normalInstr && isCasL o.code

/-- The operation is a locked read and write. -/
def locked : Bool := o.tasB || o.casL

/-- The operation is at a line of its own instruction. -/
structure Placed : Prop where
  tas : tasAddr o.addr = o.tasB
  cas : casAddr o.addr = o.casL

end Operation

/-! ### Start addresses -/

/-- Where a word may start. -/
def lockedStart (code : BitVec 16) : Bool :=
  tasAddr (predecodeRomAddr code) == isTasB code && casAddr (predecodeRomAddr code) == isCasL code &&
    !casFrom 1 (predecodeRomAddr code)

section Words

variable {code : BitVec 16}

/-- In these groups the low digits decide, in the first also whether the second
digit is zero. -/
theorem lockedStart_ofDigits {group : BitVec 4} (high : BitVec 4) (here : codeGroup code = group)
    (zero : group = 0 → (codeHigh code == 0) = (high == 0))
    (h : group ∈ [0x0#4, 0x2, 0x3, 0x4, 0x6, 0xf]) :
    lockedStart code = lockedStart (ofDigits group high (codeLow code)) := by
  have hlow := codeLow_ofDigits group high (codeLow code)
  have hgroup := codeGroup_ofDigits group high (codeLow code)
  have predecode : predecodeRomAddr code =
      predecodeRomAddr (ofDigits group high (codeLow code)) := by
    apply predecodeRomAddr_congr_low hlow.symm (here.trans hgroup.symm)
    · rw [hgroup, codeHigh_ofDigits]
      exact zero
    · rw [hgroup]
      exact h
  simp only [lockedStart, isTasB, isCasL, predecode, hlow, hgroup, here]

theorem lockedStart_group0 (h : codeGroup code = 0x0) : lockedStart code = true := by
  have test : ∀ high ∈ [0x0#4, 0x1#4], ∀ low, lockedStart (ofDigits 0x0 high low) = true := by
    simp only [List.mem_cons, List.not_mem_nil, or_false]
    rintro high (rfl | rfl)
    · exact forall_addr (p := fun low => lockedStart (ofDigits 0x0 0x0 low)) (by decide +kernel)
    · exact forall_addr (p := fun low => lockedStart (ofDigits 0x0 0x1 low)) (by decide +kernel)
  rcases hzero : codeHigh code == 0 with _ | _
  · rw [lockedStart_ofDigits 0x1 h (fun _ => hzero.trans (by decide)) (by decide)]
    exact test _ (by decide) _
  · rw [lockedStart_ofDigits 0x0 h (fun _ => hzero.trans (by decide)) (by decide)]
    exact test _ (by decide) _

theorem lockedStart_of_low {group : BitVec 4} (h : codeGroup code = group)
    (mem : group ∈ [0x2#4, 0x3, 0x4, 0x6, 0xf])
    (test : ((List.range 256).all fun k => lockedStart (ofDigits group 0 (BitVec.ofNat 8 k))) =
      true) : lockedStart code = true := by
  rw [lockedStart_ofDigits 0 h _ (List.mem_cons_of_mem _ mem)]
  · exact forall_addr (p := fun low => lockedStart (ofDigits group 0 low)) test _
  · rintro rfl
    exact absurd mem (by decide)

theorem lockedStart_of_high {group : BitVec 4} (h : codeGroup code = group)
    (mem : group ∈ [0x8#4, 0xc]) (test : ∀ high,
      (tasAddr (predecodeRomAddr (ofDigits group high 0)) ||
        casAddr (predecodeRomAddr (ofDigits group high 0))) = false) : lockedStart code = true := by
  have predecode : predecodeRomAddr code = predecodeRomAddr (ofDigits group (codeHigh code) 0) := by
    apply predecodeRomAddr_congr_high (codeHigh_ofDigits _ _ _).symm
    · rw [h, codeGroup_ofDigits]
    · rw [codeGroup_ofDigits]
      exact mem
  have neither : isTasB code = false ∧ isCasL code = false := by
    simp only [List.mem_cons, List.not_mem_nil, or_false] at mem
    rw [isTasB, isCasL, h]
    rcases mem with rfl | rfl <;> exact ⟨rfl, rfl⟩
  obtain ⟨htas, hcas⟩ := Bool.or_eq_false_iff.mp (test (codeHigh code))
  have middle : casFrom 1 (predecodeRomAddr (ofDigits group (codeHigh code) 0)) = false := by
    by_contra h
    rw [casAddr, casFrom_mono (by decide) (by decide) (Bool.eq_true_of_not_eq_false h)] at hcas
    exact Bool.false_ne_true hcas.symm
  rw [lockedStart, neither.1, neither.2, predecode, htas, hcas, middle]
  rfl

/-- The two instructions start at their first lines, no other word leads to one of
their lines, and none to the last. -/
theorem lockedStart_eq_true (code : BitVec 16) : lockedStart code = true := by
  have whole : ∀ group ∈ [0x1#4, 0x5, 0x7, 0x9, 0xa, 0xb, 0xd, 0xe], codeGroup code = group →
      lockedStart code = true := by
    simp only [List.mem_cons, List.not_mem_nil, or_false]
    have hgroup : code.extractLsb 15 12 = codeGroup code := rfl
    rintro group (rfl | rfl | rfl | rfl | rfl | rfl | rfl | rfl) h <;>
      simp [lockedStart, isTasB, isCasL, predecodeRomAddr, hgroup, h] <;> decide
  have groups : ∀ group : BitVec 4, group ∈ [0x1#4, 0x5, 0x7, 0x9, 0xa, 0xb, 0xd, 0xe] ∨ group = 0x0 ∨
      group ∈ [0x2#4, 0x3, 0x4, 0x6, 0xf] ∨ group ∈ [0x8#4, 0xc] := by decide
  rcases groups (codeGroup code) with h | h | h | h
  · exact whole _ h rfl
  · exact lockedStart_group0 h
  · refine lockedStart_of_low rfl h ?_
    simp only [List.mem_cons, List.not_mem_nil, or_false] at h
    rcases h with h | h | h | h | h <;> rw [h] <;> decide +kernel
  · refine lockedStart_of_high rfl h ?_
    simp only [List.mem_cons, List.not_mem_nil, or_false] at h
    rcases h with h | h <;> rw [h] <;> decide +kernel

end Words

/-! ### Operations -/

theorem placed_normalOp (code : BitVec 16) :
    (DecodeCore.normalOp .rom predecodeRomAddr code).Placed := by
  have h := lockedStart_eq_true code
  rw [lockedStart, Bool.and_eq_true, Bool.and_eq_true, beq_iff_eq, beq_iff_eq] at h
  exact ⟨h.1.1, h.1.2⟩

theorem placed_systemOp (code : BitVec 16) (instr : SystemInstr) :
    (DecodeCore.systemOp .rom code instr).Placed := by
  cases instr <;> exact ⟨rfl, rfl⟩

/-- An operation begins at a line of its own instruction. -/
theorem placed_nextOp (this : DecodeCoreReg) (front : DispatchI) :
    (DecodeCore.nextOp .rom predecodeRomAddr this front).Placed := by
  rw [DecodeCore.nextOp]
  split_ifs
  · exact placed_systemOp _ _
  · exact placed_systemOp _ _
  · exact placed_systemOp _ _
  · exact placed_systemOp _ _
  · exact placed_normalOp _

/-- No operation begins in the middle of `CAS.L`. -/
theorem casFrom_nextOp (this : DecodeCoreReg) (front : DispatchI) :
    casFrom 1 (DecodeCore.nextOp .rom predecodeRomAddr this front).addr = false := by
  have system : ∀ code instr, casFrom 1 (DecodeCore.systemOp .rom code instr).addr = false := by
    intro code instr
    cases instr <;> rfl
  have normal := lockedStart_eq_true front.ifDr
  rw [lockedStart, Bool.and_eq_true, Bool.not_eq_true'] at normal
  rw [DecodeCore.nextOp]
  split_ifs
  · exact system _ _
  · exact system _ _
  · exact system _ _
  · exact system _ _
  · exact normal.2

/-! ### Lines -/

/-- What the microcode promises about the line at an address. -/
structure LockedLine (addr : BitVec 8) : Prop where
  /-- the next line of an operation is one of the same instruction -/
  stays : ∀ t, dispatch (microcodeLine addr) t = false →
    tasAddr (addr + 1) = tasAddr addr ∧ casAddr (addr + 1) = casAddr addr
  /-- a line that starts a request locks the bus if it is one of the two instructions -/
  lock : ∀ t, maIssue (microcodeLine addr) t = true →
    memLock (microcodeLine addr) = (tasAddr addr || casAddr addr)
  /-- such a line is the one with the read or the one with the write -/
  read : ∀ t, maIssue (microcodeLine addr) t = true → (tasAddr addr || casAddr addr) = true →
    maWr (microcodeLine addr) = false → lockedRead addr = true
  /-- the read is followed by a line without a request and that by the write -/
  after : lockedRead addr = true → (∀ t, dispatch (microcodeLine addr) t = false) ∧
    (∀ t, dispatch (microcodeLine (addr + 1)) t = false) ∧
    (∀ t, maIssue (microcodeLine (addr + 1)) t = false) ∧ lockedWrite (addr + 2) = true ∧
    memLock (microcodeLine addr) = true ∧ memLock (microcodeLine (addr + 1)) = true
  write : lockedWrite addr = true → memLock (microcodeLine addr) = true ∧
    maWr (microcodeLine addr) = true
  /-- `TAS.B` always writes -/
  always : lockedWrite addr = true → casWrite addr = false → ∀ t,
    maIssue (microcodeLine addr) t = true
  /-- `CAS.L` writes if T is set -/
  sense : casWrite addr = true → ∀ t, maIssue (microcodeLine addr) t = t

theorem lockedLine (addr : BitVec 8) : LockedLine addr := by
  have test := forall_addr (p := fun addr =>
      decide (∀ t, dispatch (microcodeLine addr) t = false →
        tasAddr (addr + 1) = tasAddr addr ∧ casAddr (addr + 1) = casAddr addr) &&
      decide (∀ t, maIssue (microcodeLine addr) t = true →
        memLock (microcodeLine addr) = (tasAddr addr || casAddr addr)) &&
      decide (∀ t, maIssue (microcodeLine addr) t = true → (tasAddr addr || casAddr addr) = true →
        maWr (microcodeLine addr) = false → lockedRead addr = true) &&
      decide (lockedRead addr = true → (∀ t, dispatch (microcodeLine addr) t = false) ∧
        (∀ t, dispatch (microcodeLine (addr + 1)) t = false) ∧
        (∀ t, maIssue (microcodeLine (addr + 1)) t = false) ∧ lockedWrite (addr + 2) = true ∧
        memLock (microcodeLine addr) = true ∧ memLock (microcodeLine (addr + 1)) = true) &&
      decide (lockedWrite addr = true → memLock (microcodeLine addr) = true ∧
        maWr (microcodeLine addr) = true) &&
      decide (lockedWrite addr = true → casWrite addr = false → ∀ t,
        maIssue (microcodeLine addr) t = true) &&
      decide (casWrite addr = true → ∀ t, maIssue (microcodeLine addr) t = t))
    (by decide +kernel) addr
  simp only [Bool.and_eq_true, decide_eq_true_eq] at test
  obtain ⟨⟨⟨⟨⟨⟨stays, lock⟩, read⟩, after⟩, write⟩, always⟩, sense⟩ := test
  exact ⟨stays, lock, read, after, write, always, sense⟩

/-- What the microcode promises about the comparison of `CAS.L`. -/
structure CasLine (addr : BitVec 8) : Prop where
  /-- the line before in the sequence -/
  pred : casFrom 1 (addr + 1) = true → casAddr addr = true
  pred1 : casFrom 2 (addr + 1) = true → casFrom 1 addr = true
  pred2 : casFrom 3 (addr + 1) = true → casFrom 2 addr = true
  /-- no line loads SR -/
  noLoad : casAddr addr = true → wrsrW (microcodeLine addr) = false
  /-- the line before the write compares, and loads no register -/
  compare : casFrom 3 (addr + 1) = true →
    srSel (microcodeLine addr) = .selLogic ∧ logicSrFunc (microcodeLine addr) = .zero ∧
    logicFunc (microcodeLine addr) = .logicXor ∧ aluinxSel (microcodeLine addr) = .selXbus ∧
    aluinySel (microcodeLine addr) = .selYbus ∧ wrregW (microcodeLine addr) = false
  ready : casWrite addr = true → macStallSense (microcodeLine addr) = false

theorem casLine (addr : BitVec 8) : CasLine addr := by
  have test := forall_addr (p := fun addr =>
      decide (casFrom 1 (addr + 1) = true → casAddr addr = true) &&
      decide (casFrom 2 (addr + 1) = true → casFrom 1 addr = true) &&
      decide (casFrom 3 (addr + 1) = true → casFrom 2 addr = true) &&
      decide (casAddr addr = true → wrsrW (microcodeLine addr) = false) &&
      decide (casFrom 3 (addr + 1) = true →
        srSel (microcodeLine addr) = .selLogic ∧ logicSrFunc (microcodeLine addr) = .zero ∧
        logicFunc (microcodeLine addr) = .logicXor ∧ aluinxSel (microcodeLine addr) = .selXbus ∧
        aluinySel (microcodeLine addr) = .selYbus ∧ wrregW (microcodeLine addr) = false) &&
      decide (casWrite addr = true → macStallSense (microcodeLine addr) = false))
    (by decide +kernel) addr
  simp only [Bool.and_eq_true, decide_eq_true_eq] at test
  obtain ⟨⟨⟨⟨⟨pred, pred1⟩, pred2⟩, noLoad⟩, compare⟩, ready⟩ := test
  exact ⟨pred, pred1, pred2, noLoad, compare, ready⟩

/-- The next line of an operation is in its place too. -/
theorem Operation.Placed.succ {o : Operation} (placed : o.Placed) {t : Bool}
    (more : dispatch (microcodeLine o.addr) t = false) : (o.atLine 1).Placed := by
  obtain ⟨tas, cas⟩ := (lockedLine o.addr).stays t more
  exact ⟨tas.trans placed.tas, cas.trans placed.cas⟩

end JCore
