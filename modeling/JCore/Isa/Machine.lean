import JCore.Isa.Line
import JCore.Isa.Memory

/-!
# The sequential machine

The microcode carried out one line at a time, each with its whole effect before the next
one: no pipeline, no stalls and no bus. What a program sees of the CPU is a state of this
machine.

## Main definitions

* `Machine`: registers, SR and memory
* `Line.exec`: one line
* `Machine.finish`: the lines of an operation up to its end
-/

namespace JCore

open DecodeTable

/-- The state that lines of microcode work on. -/
@[ext] structure Machine where
  regs : Regs
  sr : Sr
  mem : ByteMemory

/-- What a line reads of it. -/
def Machine.values (M : Machine) (pc : BitVec 32) : Values :=
  { pc := pc, regs := M.regs, sr := M.sr, mach := 0, macl := 0 }

/-! ### Lines -/

/-- The line works on the registers, SR and the memory alone. -/
def sequential (line : BitVec 75) : Bool :=
  ybusSel line != .selMach && ybusSel line != .selMacl && zbusSel line != .selWbus &&
    srSel line != .selWbus && srSel line != .selIntMask &&
    (!(wrregW line || wrsrW line) || (maIssue line true && maIssue line false && !maWr line))

structure Sequential (line : BitVec 75) : Prop where
  mach : ybusSel line ≠ .selMach
  macl : ybusSel line ≠ .selMacl
  zbus : zbusSel line ≠ .selWbus
  srWbus : srSel line ≠ .selWbus
  srMask : srSel line ≠ .selIntMask
  /-- what it takes from the W bus is a load of its own -/
  load : wrregW line = true ∨ wrsrW line = true → (∀ t, maIssue line t = true) ∧ maWr line = false

theorem sequential_of_test {line : BitVec 75} (h : sequential line = true) : Sequential line := by
  simp only [sequential, Bool.and_eq_true, bne_iff_ne, ne_eq] at h
  obtain ⟨⟨⟨⟨⟨mach, macl⟩, zbus⟩, srWbus⟩, srMask⟩, load⟩ := h
  refine ⟨mach, macl, zbus, srWbus, srMask, fun w => ?_⟩
  have issues : (maIssue line true && maIssue line false && !maWr line) = true := by
    rcases w with w | w
    · rw [w] at load
      exact load
    · rw [w, Bool.or_true] at load
      exact load
  simp only [Bool.and_eq_true, Bool.not_eq_true'] at issues
  refine ⟨fun t => ?_, issues.2⟩
  cases t
  · exact issues.1.2
  · exact issues.1.1

/-- The line writes no register, leaves SR alone and makes no request. -/
def idle (line : BitVec 75) : Bool :=
  !wrregZ line && !wrregW line && !wrsrW line && srSel line == .selPrev && !maIssue line true &&
    !maIssue line false

namespace Line

variable (line : Line) (code : BitVec 16) (pc : BitVec 32) (M : Machine)

/-- What it loads. -/
def datum : BitVec 32 :=
  match line.request code (M.values pc) with
  | some (.load size addr) => loadAt M.mem size addr
  | _ => 0

/-- The line is carried out, with PC as it stands in the execute stage. -/
def exec : Machine where
  regs :=
    M.regs.write
      (match line.target code with
      | some r => some (r, line.datum code pc M)
      | none => line.write code (M.values pc))
  sr := if line.wrsrW then Datapath.toSr (line.datum code pc M) else line.sr code (M.values pc)
  mem :=
    match line.request code (M.values pc) with
    | some (.store size addr data) => storeAt M.mem size addr data
    | _ => M.mem

/-- Only lines that select them read the results of the multiplier. -/
theorem withoutMac {line : BitVec 75} (seq : Sequential line) (t : Bool) (code : BitVec 16) (v : Values)
    (mach macl : BitVec 32) :
    (ofRom line t).write code { v with mach := mach, macl := macl } = (ofRom line t).write code v ∧
      (ofRom line t).sr code { v with mach := mach, macl := macl } = (ofRom line t).sr code v ∧
      (ofRom line t).request code { v with mach := mach, macl := macl } =
        (ofRom line t).request code v := by
  have y : (ofRom line t).y code { v with mach := mach, macl := macl } = (ofRom line t).y code v := by
    have noMach : (ofRom line t).ySel ≠ .selMach := seq.mach
    have noMacl : (ofRom line t).ySel ≠ .selMacl := seq.macl
    rw [Line.y, Line.y]
    cases here : (ofRom line t).ySel with
    | selMach => exact absurd here noMach
    | selMacl => exact absurd here noMacl
    | _ => rfl
  have z : (ofRom line t).z code { v with mach := mach, macl := macl } = (ofRom line t).z code v := by
    simp only [z, arithOut, logicOut, aluinx, aluiny, func, x, y]
  refine ⟨?_, ?_, ?_⟩
  · simp only [write, z]
  · simp only [sr, shifted, arithOut, logicOut, aluinx, aluiny, func, x, y, z]
  · simp only [request, addr, wdata, x, y, z]

end Line

/-! ### Operations -/

namespace Machine

/-- The lines of an operation from the address on, up to the one that moves PC on; at most
`n` of them. -/
def finish (code : BitVec 16) (counter : BitVec 32) : ℕ → BitVec 8 → Machine → Machine
  | 0, _, M => M
  | n + 1, addr, M =>
    let line := microcodeLine addr
    if incpc line then (Line.ofRom line M.sr.t).exec code (counter + 2) M
    else finish code counter n (addr + 1) ((Line.ofRom line M.sr.t).exec code counter M)

end Machine

end JCore
