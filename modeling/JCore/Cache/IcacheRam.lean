import JCore.Cache.IcacheMcl
import JCore.Cache.Ram

/-!
# The RAMs of the instruction cache

The entity `icache_ram`: the tag RAM, and the data RAM with a port for each clock, in two
halves of 16 bits. The CPU side reads and the memory side writes. `ram_2rw` of
`memory_pack` is not part of the repository. It is a parameter, with what a synchronous RAM
with two ports does. A read of a cell that the other port writes at the same instant may
put out anything.

## Main definitions

* `Ram2rw`, `Ram2rw.Lawful`: a RAM with two ports, and what the cache relies on
* `IcacheRam.step`, `IcacheRam.out`: the RAMs of the cache
* `IcacheRam.tagCell`, `IcacheRam.dataCell`: what they hold

## Main results

* `IcacheRam.dataCell_write`, `IcacheRam.d0_read`: the data RAM at an instant
* `IcacheRam.tagCell_write`, `IcacheRam.tag_read`: the tag RAM
-/

namespace JCore

/-- A RAM with two ports, each with a clock of its own: at an instant there is the input of
a port if its clock has an edge. Only the output of the first port is used. -/
structure Ram2rw (addrWidth subwordWidth subwordNum : ℕ) where
  State : Type
  step : State → Option (Ram1rwI addrWidth subwordWidth subwordNum) →
    Option (Ram1rwI addrWidth subwordWidth subwordNum) → State
  cell : State → BitVec addrWidth → BitVec (subwordNum * subwordWidth)
  dr0 : State → BitVec (subwordNum * subwordWidth)

/-- What the cache relies on, with a first port that never writes. -/
structure Ram2rw.Lawful {addrWidth subwordWidth subwordNum : ℕ}
    (ram : Ram2rw addrWidth subwordWidth subwordNum) : Prop where
  write : ∀ s p i, (∀ j ∈ p, j.wr = false) → i.en = true → i.wr = true →
    i.we = BitVec.allOnes subwordNum →
      ram.cell (ram.step s p (some i)) = Function.update (ram.cell s) i.a i.dw
  keep : ∀ s p q, (∀ j ∈ p, j.wr = false) → (∀ i ∈ q, i.en = false) →
    ram.cell (ram.step s p q) = ram.cell s
  read : ∀ s j q, j.en = true → j.wr = false → (∀ i ∈ q, i.en = true → i.a ≠ j.a) →
    ram.dr0 (ram.step s (some j) q) = ram.cell s j.a
  hold : ∀ s q, ram.dr0 (ram.step s none q) = ram.dr0 s

/-- The type of the halves of the data RAM. -/
abbrev DataRam2rw : Type 1 := Ram2rw 11 8 2

/-- The RAMs; the halves of the data RAM hold the bits 15 to 0 and 31 to 16. -/
structure IcacheRam (tagRam : TagRam1rw) (dataRam : DataRam2rw) where
  tag : tagRam.State
  ram0 : dataRam.State
  ram1 : dataRam.State

namespace IcacheRam

variable {tagRam : TagRam1rw} {dataRam : DataRam2rw}

/-! ### The ports -/

def tagInput (ry : IcacheRamcclI) : Ram1rwI 8 8 2 :=
  { en := true, wr := ry.twr, we := BitVec.ofBool ry.twr ++ BitVec.ofBool ry.twr, a := ry.ta,
    dw := 0#1 ++ ry.tag }

def port0 (ry : IcacheRamcclI) : Ram1rwI 11 8 2 :=
  { en := ry.en0, wr := false, we := 0, a := ry.a0, dw := 0 }

/-- The port of the memory side for one half. -/
def port1 (ry : IcacheRammclI) (half : BitVec 16) : Ram1rwI 11 8 2 :=
  { en := ry.en1, wr := ry.wr1, we := BitVec.ofBool ry.wr1 ++ BitVec.ofBool ry.wr1, a := ry.a1,
    dw := half }

/-- One instant, with the inputs from the sides whose clocks rise. -/
def step (s : IcacheRam tagRam dataRam) (ccl : Option IcacheRamcclI) (mcl : Option IcacheRammclI) :
    IcacheRam tagRam dataRam where
  tag := match ccl with
    | some ry => tagRam.step s.tag (tagInput ry)
    | none => s.tag
  ram0 := dataRam.step s.ram0 (ccl.map port0) (mcl.map fun ry => port1 ry (ry.d1.extractLsb 15 0))
  ram1 := dataRam.step s.ram1 (ccl.map port0) (mcl.map fun ry => port1 ry (ry.d1.extractLsb 31 16))

def out (s : IcacheRam tagRam dataRam) : IcacheRamO :=
  { d0 := (dataRam.dr0 s.ram1 ++ dataRam.dr0 s.ram0 : BitVec 32)
    tag := (tagRam.dr s.tag).extractLsb' 0 15 }

/-! ### Contents -/

def tagCell (s : IcacheRam tagRam dataRam) (index : BitVec 8) : BitVec 15 :=
  (tagRam.cell s.tag index).extractLsb' 0 15

def dataCell (s : IcacheRam tagRam dataRam) (a : BitVec 11) : BitVec 32 :=
  (dataRam.cell s.ram1 a ++ dataRam.cell s.ram0 a : BitVec 32)

variable (tagLawful : tagRam.Lawful) (dataLawful : dataRam.Lawful) {s : IcacheRam tagRam dataRam}
  {ccl : Option IcacheRamcclI} {mcl : Option IcacheRammclI}

theorem halves_append (d : BitVec 32) : (d.extractLsb 31 16 ++ d.extractLsb 15 0 : BitVec 32) = d := by
  apply BitVec.eq_of_getLsbD_eq
  intro i hi
  rw [BitVec.getLsbD_append]
  simp only [BitVec.getLsbD_extractLsb]
  grind

section Data

include dataLawful

/-- The memory side writes the cell at its address. -/
theorem dataCell_write {ry : IcacheRammclI} (hen : ry.en1 = true) (hwr : ry.wr1 = true) :
    dataCell (step s ccl (some ry)) = Function.update (dataCell s) ry.a1 ry.d1 := by
  have hport0 : ∀ j ∈ ccl.map port0, j.wr = false := by
    intro j hj
    obtain ⟨ry, -, rfl⟩ := Option.map_eq_some_iff.mp hj
    rfl
  have hwe : (BitVec.ofBool ry.wr1 ++ BitVec.ofBool ry.wr1 : BitVec 2) = BitVec.allOnes 2 := by
    rw [hwr]
    rfl
  have h0 := dataLawful.write s.ram0 (ccl.map port0) (port1 ry (ry.d1.extractLsb 15 0)) hport0 hen
    hwr hwe
  have h1 := dataLawful.write s.ram1 (ccl.map port0) (port1 ry (ry.d1.extractLsb 31 16)) hport0 hen
    hwr hwe
  have hcell : ∀ a, dataCell (step s ccl (some ry)) a =
      (Function.update (dataRam.cell s.ram1) ry.a1 (ry.d1.extractLsb 31 16) a ++
        Function.update (dataRam.cell s.ram0) ry.a1 (ry.d1.extractLsb 15 0) a : BitVec 32) := by
    intro a
    exact congrArg₂ (fun high low : BitVec 16 => (high ++ low : BitVec 32)) (congrFun h1 a)
      (congrFun h0 a)
  funext a
  rw [hcell]
  rcases eq_or_ne a ry.a1 with rfl | hne
  · rw [Function.update_self, Function.update_self, Function.update_self]
    exact halves_append ry.d1
  · rw [Function.update_of_ne hne, Function.update_of_ne hne, Function.update_of_ne hne]
    rfl

theorem dataCell_keep (h : ∀ ry ∈ mcl, ry.en1 = false) : dataCell (step s ccl mcl) = dataCell s := by
  have hport0 : ∀ j ∈ ccl.map port0, j.wr = false := by
    intro j hj
    obtain ⟨ry, -, rfl⟩ := Option.map_eq_some_iff.mp hj
    rfl
  have hport1 : ∀ half : IcacheRammclI → BitVec 16,
      ∀ i ∈ mcl.map fun ry => port1 ry (half ry), i.en = false := by
    intro half i hi
    obtain ⟨ry, hry, rfl⟩ := Option.map_eq_some_iff.mp hi
    exact h ry hry
  funext a
  change (dataRam.cell (dataRam.step s.ram1 _ _) a ++
    dataRam.cell (dataRam.step s.ram0 _ _) a : BitVec 32) = _
  rw [dataLawful.keep _ _ _ hport0 (hport1 _), dataLawful.keep _ _ _ hport0 (hport1 _)]
  rfl

/-- The output is the cell at the address, unless the memory side writes it. -/
theorem d0_read {ry : IcacheRamcclI} (hen : ry.en0 = true)
    (h : ∀ rm ∈ mcl, rm.en1 = true → rm.a1 ≠ ry.a0) :
    (step s (some ry) mcl).out.d0 = dataCell s ry.a0 := by
  have hport1 : ∀ half : IcacheRammclI → BitVec 16,
      ∀ i ∈ mcl.map fun ry => port1 ry (half ry), i.en = true → i.a ≠ ry.a0 := by
    intro half i hi
    obtain ⟨rm, hrm, rfl⟩ := Option.map_eq_some_iff.mp hi
    exact h rm hrm
  change (dataRam.dr0 (dataRam.step s.ram1 (some (port0 ry)) _) ++
    dataRam.dr0 (dataRam.step s.ram0 (some (port0 ry)) _) : BitVec 32) = _
  rw [dataLawful.read _ (port0 ry) _ hen rfl (hport1 _),
    dataLawful.read _ (port0 ry) _ hen rfl (hport1 _)]
  rfl

/-- Without an edge of the CPU clock the output stays. -/
theorem d0_hold : (step s none mcl).out.d0 = s.out.d0 := by
  change (dataRam.dr0 (dataRam.step s.ram1 none _) ++
    dataRam.dr0 (dataRam.step s.ram0 none _) : BitVec 32) = _
  rw [dataLawful.hold, dataLawful.hold]
  rfl

end Data

section Tags

include tagLawful

theorem tagCell_write {ry : IcacheRamcclI} (h : ry.twr = true) :
    tagCell (step s (some ry) mcl) = Function.update (tagCell s) ry.ta ry.tag := by
  have hwrite := tagLawful.write s.tag (tagInput ry) rfl h (by rw [tagInput, h]; rfl)
  funext index
  change (tagRam.cell (tagRam.step s.tag (tagInput ry)) index).extractLsb' 0 15 = _
  rw [hwrite]
  rcases eq_or_ne index ry.ta with rfl | hne
  · rw [Function.update_self]
    refine Eq.trans (congrArg (BitVec.extractLsb' 0 15) (Function.update_self ..)) ?_
    exact TagRam.tag_word ry.tag
  · rw [Function.update_of_ne hne]
    exact congrArg (BitVec.extractLsb' 0 15) (Function.update_of_ne hne ..)

theorem tagCell_keep {ry : IcacheRamcclI} (h : ry.twr = false) :
    tagCell (step s (some ry) mcl) = tagCell s := by
  funext index
  change (tagRam.cell (tagRam.step s.tag (tagInput ry)) index).extractLsb' 0 15 = _
  rw [tagLawful.keep s.tag (tagInput ry) rfl h]
  rfl

theorem tag_read {ry : IcacheRamcclI} (h : ry.twr = false) :
    (step s (some ry) mcl).out.tag = tagCell s ry.ta := by
  change (tagRam.dr (tagRam.step s.tag (tagInput ry))).extractLsb' 0 15 = _
  rw [tagLawful.read s.tag (tagInput ry) rfl h]
  rfl

end Tags

end IcacheRam

/-- A RAM with two ports that keeps its output during a collision. -/
def dualPortRam : DataRam2rw where
  State := (BitVec 11 → BitVec 16) × BitVec 16
  step s p q :=
    (match q with
      | some i => if i.en && i.wr then Function.update s.1 i.a i.dw else s.1
      | none => s.1,
      match p with
      | some j => if j.en then s.1 j.a else s.2
      | none => s.2)
  cell s := s.1
  dr0 s := s.2

theorem dualPortRam_lawful : dualPortRam.Lawful where
  write s p i _ hen hwr _ := by simp [dualPortRam, hen, hwr]
  keep s p q _ h := by
    cases q with
    | none => rfl
    | some i => simp [dualPortRam, h i rfl]
  read s j q hen _ _ := by simp [dualPortRam, hen]
  hold s q := rfl

end JCore
