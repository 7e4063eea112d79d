import JCore.Decode.Entry

/-!
# The microcode of the multiplier

A line uses the multiplier in the execute stage or in the last write-back stage,
never in both. All lines that use it wait until it is free, except those of `MAC.L`
and `MAC.W`, whose two loads and one command keep their distance by the number of
lines between them.

## Main definitions

* `exUse`, `wbUse`, `macRead`: what a line does with the multiplier
* `MacLine`: what the microcode promises about such a line

## Main results

* `macLine`: every line keeps the promise
-/

namespace JCore

open DecodeTable

/-! ### What a line does -/

section Line

variable (line : BitVec 75)

/-- The line loads an operand, sends a command or writes `MACH` or `MACL` from the
execute stage. -/
def exUse : Bool := exMulcom1 line || exMulcom2 line != .nop || exWrmach line || exWrmacl line

/-- The line writes `MACH` or `MACL` from the last write-back stage. -/
def wbWrite : Bool := wbWrmach line || wbWrmacl line

/-- The line uses the multiplier from the last write-back stage. -/
def wbUse : Bool := wbMulcom1 line || wbMulcom2 line != .nop || wbWrite line

/-- The line reads `MACH` or `MACL` and keeps what it makes of it. -/
def macRead : Bool := wrregZ line && (ybusSel line == .selMach || ybusSel line == .selMacl)

end Line

/-- What the microcode promises about the line at an address. -/
structure MacLine (addr : BitVec 8) : Prop where
  /-- what is no part of a multiply-accumulate waits for the multiplier -/
  sense : exUse (microcodeLine addr) = true ∨ macRead (microcodeLine addr) = true ∨
    wbWrite (microcodeLine addr) = true → macStallSense (microcodeLine addr) = true
  one : exUse (microcodeLine addr) = true ∨ macRead (microcodeLine addr) = true →
    wbUse (microcodeLine addr) = false
  read : macRead (microcodeLine addr) = true → exUse (microcodeLine addr) = false
  exBusy : exMulcom2 (microcodeLine addr) ≠ .nop → macBusy (microcodeLine addr) = .exNotStall
  writeBusy : wbWrite (microcodeLine addr) = true → macBusy (microcodeLine addr) = .wbNotStall
  /-- after the first load comes the line with the command -/
  load : wbMulcom1 (microcodeLine addr) = true → commandAddr (addr + 1) = true ∧
    ∀ t, dispatch (microcodeLine addr) t = false
  /-- that line does not wait for the multiplier, which counts as busy all the same -/
  command : commandAddr addr = true → macStallSense (microcodeLine addr) = false ∧
    macBusy (microcodeLine addr) = .wbBusy
  /-- the command of `MAC.L` is followed by another line, that of `MAC.W` is the last -/
  only : wbMulcom2 (microcodeLine addr) ≠ .nop → commandAddr addr = true ∧
    (wbMulcom2 (microcodeLine addr) = .macw ∨
      addr + 1 = 136 ∧ ∀ t, dispatch (microcodeLine addr) t = false)
  /-- no line leads to the commands but those with the first load -/
  first : commandAddr (addr + 1) = true → wbMulcom2 (microcodeLine addr) = .nop ∧ addr ≠ 136

theorem macLine (addr : BitVec 8) : MacLine addr := by
  -- all the lines of the ROM are gone through once
  have test := forall_addr (p := fun addr =>
      (!(exUse (microcodeLine addr) || macRead (microcodeLine addr) ||
        wbWrite (microcodeLine addr)) || macStallSense (microcodeLine addr)) &&
      (!(exUse (microcodeLine addr) || macRead (microcodeLine addr)) ||
        !wbUse (microcodeLine addr)) &&
      (!macRead (microcodeLine addr) || !exUse (microcodeLine addr)) &&
      (exMulcom2 (microcodeLine addr) == .nop || macBusy (microcodeLine addr) == .exNotStall) &&
      (!wbWrite (microcodeLine addr) || macBusy (microcodeLine addr) == .wbNotStall) &&
      (!wbMulcom1 (microcodeLine addr) || (commandAddr (addr + 1) &&
        !dispatch (microcodeLine addr) true && !dispatch (microcodeLine addr) false)) &&
      (!commandAddr addr || (!macStallSense (microcodeLine addr) &&
        macBusy (microcodeLine addr) == .wbBusy)) &&
      (wbMulcom2 (microcodeLine addr) == .nop || (commandAddr addr &&
        (wbMulcom2 (microcodeLine addr) == .macw || (addr + 1 == 136 &&
          !dispatch (microcodeLine addr) true && !dispatch (microcodeLine addr) false)))) &&
      (!commandAddr (addr + 1) || (wbMulcom2 (microcodeLine addr) == .nop && addr != 136)))
    (by decide +kernel) addr
  simp only [Bool.and_eq_true, Bool.or_eq_true, Bool.not_eq_true', beq_iff_eq, bne_iff_ne,
    Bool.or_eq_false_iff] at test
  obtain ⟨⟨⟨⟨⟨⟨⟨⟨sense, one⟩, read⟩, exBusy⟩, writeBusy⟩, load⟩, command⟩, only⟩, first⟩ := test
  refine ⟨?_, ?_, ?_, ?_, ?_, ?_, ?_, ?_, ?_⟩
  · rintro (h | h | h)
    · exact sense.resolve_left fun none => by simp [h] at none
    · exact sense.resolve_left fun none => by simp [h] at none
    · exact sense.resolve_left fun none => by simp [h] at none
  · rintro (h | h)
    · exact one.resolve_left fun none => by simp [h] at none
    · exact one.resolve_left fun none => by simp [h] at none
  · exact fun h => read.resolve_left (by simp [h])
  · exact exBusy.resolve_left
  · exact fun h => writeBusy.resolve_left (by simp [h])
  · intro h
    obtain ⟨⟨here, ht⟩, hf⟩ := load.resolve_left (by simp [h])
    exact ⟨here, fun t => by cases t <;> assumption⟩
  · exact fun h => command.resolve_left (by simp [h])
  · intro h
    obtain ⟨here, short | ⟨⟨next, ht⟩, hf⟩⟩ := only.resolve_left h
    · exact ⟨here, .inl short⟩
    · exact ⟨here, .inr ⟨next, fun t => by cases t <;> assumption⟩⟩
  · exact fun h => first.resolve_left (by rw [h]; decide)

end JCore
