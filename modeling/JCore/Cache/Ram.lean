import JCore.Cache.Pack
import Mathlib.Logic.Function.Basic

/-!
# The tag RAMs of the data cache

The tag half of the entity `dcache_ram`: one copy for the CPU and one for the
snoop, written together. The RAM itself, `ram_1rw` of `memory_pack`, is not part
of the repository. It is a parameter, with what a synchronous RAM with one port
does: a write changes one cell, a read puts out the cell as it was.

## Main definitions

* `Ram1rw`, `Ram1rw.Lawful`: a RAM, and what the cache relies on
* `TagRam.step`, `TagRam.out`: the two copies
-/

namespace JCore

/-- The inputs of a RAM in one clock; `we` has a bit for each subword. -/
structure Ram1rwI (addrWidth subwordWidth subwordNum : ℕ) where
  en : Bool
  wr : Bool
  we : BitVec subwordNum
  a : BitVec addrWidth
  dw : BitVec (subwordNum * subwordWidth)

/-- A RAM with one port: its state, one clock, the cells and the output. -/
structure Ram1rw (addrWidth subwordWidth subwordNum : ℕ) where
  State : Type
  step : State → Ram1rwI addrWidth subwordWidth subwordNum → State
  cell : State → BitVec addrWidth → BitVec (subwordNum * subwordWidth)
  dr : State → BitVec (subwordNum * subwordWidth)

/-- What the cache relies on. What a write puts out is left open. -/
structure Ram1rw.Lawful {addrWidth subwordWidth subwordNum : ℕ}
    (ram : Ram1rw addrWidth subwordWidth subwordNum) : Prop where
  write : ∀ s i, i.en = true → i.wr = true → i.we = BitVec.allOnes subwordNum →
    ram.cell (ram.step s i) = Function.update (ram.cell s) i.a i.dw
  keep : ∀ s i, i.en = true → i.wr = false → ram.cell (ram.step s i) = ram.cell s
  read : ∀ s i, i.en = true → i.wr = false → ram.dr (ram.step s i) = ram.cell s i.a

/-- The type of the tag RAMs. -/
abbrev TagRam1rw : Type 1 := Ram1rw 8 8 2

namespace TagRam

variable (ram : TagRam1rw)

/-- The two copies. -/
structure State where
  tag0 : ram.State
  tag1 : ram.State

/-- The word of a tag. -/
def word (tag : BitVec 15) : BitVec 16 := 0#1 ++ tag

/-- The inputs of a copy at an address. -/
def input (ry : DcacheRamcclI) (a : BitVec 8) : Ram1rwI 8 8 2 :=
  { en := true, wr := ry.twr0, we := BitVec.ofBool ry.twr0 ++ BitVec.ofBool ry.twr0, a := a,
    dw := word ry.tag0 }

/-- One clock. -/
def step (s : State ram) (ry : DcacheRamcclI) : State ram :=
  { tag0 := ram.step s.tag0 (input ry ry.ta0), tag1 := ram.step s.tag1 (input ry ry.ta1) }

/-- The outputs, with what the data RAM puts out. -/
def out (s : State ram) (d0 : BitVec 32) : DcacheRamO :=
  { d0 := d0, tag0 := (ram.dr s.tag0).extractLsb' 0 15, tag1 := (ram.dr s.tag1).extractLsb' 0 15 }

theorem tag_word (tag : BitVec 15) : (word tag).extractLsb' 0 15 = tag := by
  apply BitVec.eq_of_getLsbD_eq
  intro i hi
  rw [word, BitVec.getLsbD_extractLsb', BitVec.getLsbD_append]
  simp [hi]

variable {ram} (lawful : ram.Lawful) {s : ram.State} {ry : DcacheRamcclI} {a : BitVec 8}

include lawful

theorem cell_of_write (h : ry.twr0 = true) : ram.cell (ram.step s (input ry a)) =
    Function.update (ram.cell s) a (word ry.tag0) :=
  lawful.write s (input ry a) rfl h (by rw [input, h]; rfl)

theorem cell_of_read (h : ry.twr0 = false) :
    ram.cell (ram.step s (input ry a)) = ram.cell s := lawful.keep s (input ry a) rfl h

theorem dr_of_read (h : ry.twr0 = false) :
    ram.dr (ram.step s (input ry a)) = ram.cell s a := lawful.read s (input ry a) rfl h

end TagRam

/-- A RAM that keeps its output during a write. -/
def syncRam : TagRam1rw where
  State := (BitVec 8 → BitVec 16) × BitVec 16
  step s i :=
    if i.en then
      if i.wr && i.we == BitVec.allOnes 2 then (Function.update s.1 i.a i.dw, s.2)
      else (s.1, s.1 i.a)
    else s
  cell s := s.1
  dr s := s.2

theorem syncRam_lawful : syncRam.Lawful where
  write s i hen hwr hwe := by simp [syncRam, hen, hwr, hwe]
  keep s i hen hwr := by simp [syncRam, hen, hwr]
  read s i hen hwr := by simp [syncRam, hen, hwr]

end JCore
