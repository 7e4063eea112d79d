import JCore.Cache.IcacheRam
import Mathlib.Logic.Function.Basic

/-!
# The data RAM of the data cache

The data half of the entity `dcache_ram`: two halves of 16 bits with a port for each clock,
both of which write single bytes. `ram_2rw` of `memory_pack` is a parameter, with what a
synchronous RAM does to its bytes. A byte that both ports write at the same instant may get
any value.

## Main definitions

* `Ram1rwI.Writes`, `Ram2rw.WritesBytes`: which bytes a port writes, and what the cache
  relies on
* `DcacheRam.step`, `DcacheRam.dataCell`: the two halves, and the word that they hold
* `mergeBytes`: a word with some of its bytes replaced

## Main results

* `DcacheRam.byte_write0`, `DcacheRam.byte_write1`, `DcacheRam.byte_keep`: the bytes at an
  instant
-/

namespace JCore

/-! ### Bytes -/

/-- Byte `k` of a word, counted from the least significant one. -/
def byteOf {w : ℕ} (d : BitVec w) (k : ℕ) : BitVec 8 := d.extractLsb' (8 * k) 8

/-- The word `d` with the bytes that are enabled replaced by those of `e`. -/
def mergeBytes (we : BitVec 4) (e d : BitVec 32) : BitVec 32 :=
  let lane (k : ℕ) : BitVec 8 := if we.getLsbD k then byteOf e k else byteOf d k
  lane 3 ++ lane 2 ++ lane 1 ++ lane 0

/-- A word is known by its bytes. -/
theorem eq_of_byteOf_eq {d e : BitVec 32} (h : ∀ k < 4, byteOf d k = byteOf e k) : d = e := by
  apply BitVec.eq_of_getLsbD_eq
  intro i hi
  have byte := congrArg (BitVec.getLsbD · (i % 8)) (h (i / 8) (by omega))
  have low : i % 8 < 8 := Nat.mod_lt _ (by decide)
  have split : 8 * (i / 8) + i % 8 = i := Nat.div_add_mod i 8
  simpa only [byteOf, BitVec.getLsbD_extractLsb', low, split, decide_true, Bool.true_and] using byte

theorem byteOf_append (b3 b2 b1 b0 : BitVec 8) :
    byteOf (b3 ++ b2 ++ b1 ++ b0) 0 = b0 ∧ byteOf (b3 ++ b2 ++ b1 ++ b0) 1 = b1 ∧
      byteOf (b3 ++ b2 ++ b1 ++ b0) 2 = b2 ∧ byteOf (b3 ++ b2 ++ b1 ++ b0) 3 = b3 := by
  refine ⟨?_, ?_, ?_, ?_⟩ <;>
  · apply BitVec.eq_of_getLsbD_eq
    intro i hi
    simp only [byteOf, BitVec.getLsbD_extractLsb', BitVec.getLsbD_append]
    grind

theorem byteOf_mergeBytes (we : BitVec 4) (e d : BitVec 32) {k : ℕ} (hk : k < 4) :
    byteOf (mergeBytes we e d) k = if we.getLsbD k then byteOf e k else byteOf d k := by
  obtain ⟨h0, h1, h2, h3⟩ := byteOf_append
    (if we.getLsbD 3 then byteOf e 3 else byteOf d 3)
    (if we.getLsbD 2 then byteOf e 2 else byteOf d 2)
    (if we.getLsbD 1 then byteOf e 1 else byteOf d 1)
    (if we.getLsbD 0 then byteOf e 0 else byteOf d 0)
  have lanes : k = 0 ∨ k = 1 ∨ k = 2 ∨ k = 3 := by omega
  rcases lanes with rfl | rfl | rfl | rfl
  · exact h0
  · exact h1
  · exact h2
  · exact h3

theorem byteOf_halves (high low : BitVec 16) (k : ℕ) :
    byteOf (high ++ low : BitVec 32) k = if k < 2 then byteOf low k else byteOf high (k - 2) := by
  apply BitVec.eq_of_getLsbD_eq
  intro i hi
  split_ifs with h <;> simp only [byteOf, BitVec.getLsbD_extractLsb', BitVec.getLsbD_append] <;> grind

theorem byteOf_low (d : BitVec 32) {k : ℕ} (hk : k < 2) :
    byteOf (d.extractLsb 15 0) k = byteOf d k := by
  apply BitVec.eq_of_getLsbD_eq
  intro i hi
  simp only [byteOf, BitVec.getLsbD_extractLsb', BitVec.getLsbD_extractLsb]
  grind

theorem byteOf_high (d : BitVec 32) (k : ℕ) :
    byteOf (d.extractLsb 31 16) k = byteOf d (k + 2) := by
  apply BitVec.eq_of_getLsbD_eq
  intro i hi
  simp only [byteOf, BitVec.getLsbD_extractLsb', BitVec.getLsbD_extractLsb]
  grind

/-! ### Ports -/

/-- A port writes byte `k` of the cell at `a`. -/
def Ram1rwI.Writes {addrWidth n : ℕ} (i : Ram1rwI addrWidth 8 n) (a : BitVec addrWidth) (k : ℕ) :
    Prop :=
  i.en = true ∧ i.wr = true ∧ i.a = a ∧ i.we.getLsbD k = true

/-- What the cache relies on when both ports write bytes. -/
structure Ram2rw.WritesBytes {addrWidth n : ℕ} (ram : Ram2rw addrWidth 8 n) : Prop where
  write0 : ∀ s i q a k, k < n → i.Writes a k → (∀ j ∈ q, ¬ j.Writes a k) →
    byteOf (ram.cell (ram.step s (some i) q) a) k = byteOf i.dw k
  write1 : ∀ s p j a k, k < n → j.Writes a k → (∀ i ∈ p, ¬ i.Writes a k) →
    byteOf (ram.cell (ram.step s p (some j)) a) k = byteOf j.dw k
  keep : ∀ s p q a k, k < n → (∀ i ∈ p, ¬ i.Writes a k) → (∀ j ∈ q, ¬ j.Writes a k) →
    byteOf (ram.cell (ram.step s p q) a) k = byteOf (ram.cell s a) k

/-- The data RAM; its halves hold the bits 15 to 0 and 31 to 16. -/
structure DcacheRam (dataRam : DataRam2rw) where
  ram0 : dataRam.State
  ram1 : dataRam.State

namespace DcacheRam

variable {dataRam : DataRam2rw}

/-- The port of the CPU side for one half. -/
def port0 (ry : DcacheRamcclI) (we : BitVec 2) (half : BitVec 16) : Ram1rwI 11 8 2 :=
  { en := ry.en0, wr := ry.wr0, we := we, a := ry.a0, dw := half }

/-- The port of the memory side for one half. -/
def port1 (ry : DcacheRammclI) (we : BitVec 2) (half : BitVec 16) : Ram1rwI 11 8 2 :=
  { en := ry.en1, wr := ry.wr1, we := we, a := ry.a1, dw := half }

/-- One instant, with the inputs from the sides whose clocks rise. -/
def step (s : DcacheRam dataRam) (ccl : Option DcacheRamcclI) (mcl : Option DcacheRammclI) :
    DcacheRam dataRam where
  ram0 := dataRam.step s.ram0
    (ccl.map fun ry => port0 ry (ry.we0.extractLsb 1 0) (ry.d0.extractLsb 15 0))
    (mcl.map fun ry => port1 ry (ry.we1.extractLsb 1 0) (ry.d1.extractLsb 15 0))
  ram1 := dataRam.step s.ram1
    (ccl.map fun ry => port0 ry (ry.we0.extractLsb 3 2) (ry.d0.extractLsb 31 16))
    (mcl.map fun ry => port1 ry (ry.we1.extractLsb 3 2) (ry.d1.extractLsb 31 16))

def dataCell (s : DcacheRam dataRam) (a : BitVec 11) : BitVec 32 :=
  (dataRam.cell s.ram1 a ++ dataRam.cell s.ram0 a : BitVec 32)

/-- The CPU side writes byte `k` of the word at `a`. -/
def Writes0 (ry : DcacheRamcclI) (a : BitVec 11) (k : ℕ) : Prop :=
  ry.en0 = true ∧ ry.wr0 = true ∧ ry.a0 = a ∧ ry.we0.getLsbD k = true

/-- The memory side does. -/
def Writes1 (ry : DcacheRammclI) (a : BitVec 11) (k : ℕ) : Prop :=
  ry.en1 = true ∧ ry.wr1 = true ∧ ry.a1 = a ∧ ry.we1.getLsbD k = true

/-! ### The bytes of a word -/

section Bytes

variable {s : DcacheRam dataRam} {ccl : Option DcacheRamcclI} {mcl : Option DcacheRammclI}
  {a : BitVec 11} {k : ℕ}

theorem byteOf_dataCell (s : DcacheRam dataRam) (a : BitVec 11) (k : ℕ) : byteOf (dataCell s a) k =
    if k < 2 then byteOf (dataRam.cell s.ram0 a) k else byteOf (dataRam.cell s.ram1 a) (k - 2) :=
  byteOf_halves _ _ k

theorem getLsbD_low (we : BitVec 4) (hk : k < 2) :
    (we.extractLsb 1 0).getLsbD k = we.getLsbD k := by
  simp only [BitVec.getLsbD_extractLsb]
  grind

theorem getLsbD_high (we : BitVec 4) (hk : k < 4) (h : ¬k < 2) :
    (we.extractLsb 3 2).getLsbD (k - 2) = we.getLsbD k := by
  simp only [BitVec.getLsbD_extractLsb]
  grind

theorem writes_port0_low {ry : DcacheRamcclI} {half : BitVec 16} (hk : k < 2) :
    (port0 ry (ry.we0.extractLsb 1 0) half).Writes a k ↔ Writes0 ry a k := by
  rw [Ram1rwI.Writes, port0, getLsbD_low _ hk, Writes0]

theorem writes_port0_high {ry : DcacheRamcclI} {half : BitVec 16} (hk : k < 4) (h : ¬k < 2) :
    (port0 ry (ry.we0.extractLsb 3 2) half).Writes a (k - 2) ↔ Writes0 ry a k := by
  rw [Ram1rwI.Writes, port0, getLsbD_high _ hk h, Writes0]

theorem writes_port1_low {ry : DcacheRammclI} {half : BitVec 16} (hk : k < 2) :
    (port1 ry (ry.we1.extractLsb 1 0) half).Writes a k ↔ Writes1 ry a k := by
  rw [Ram1rwI.Writes, port1, getLsbD_low _ hk, Writes1]

theorem writes_port1_high {ry : DcacheRammclI} {half : BitVec 16} (hk : k < 4) (h : ¬k < 2) :
    (port1 ry (ry.we1.extractLsb 3 2) half).Writes a (k - 2) ↔ Writes1 ry a k := by
  rw [Ram1rwI.Writes, port1, getLsbD_high _ hk h, Writes1]

/-- What no side writes no port writes. -/
theorem not_writes_map {ι : Type*} {side : Option ι} {port : ι → Ram1rwI 11 8 2} {P : ι → Prop}
    {k : ℕ} (same : ∀ ry, (port ry).Writes a k ↔ P ry) (no : ∀ ry ∈ side, ¬ P ry) :
    ∀ i ∈ side.map port, ¬ i.Writes a k := by
  intro i hi writes
  obtain ⟨ry, hry, rfl⟩ := Option.map_eq_some_iff.mp hi
  exact no ry hry ((same ry).mp writes)

variable (lawful : dataRam.WritesBytes)

include lawful

/-- A byte that the CPU side alone writes. -/
theorem byte_write0 {ry : DcacheRamcclI} (hk : k < 4) (writes : Writes0 ry a k)
    (alone : ∀ rm ∈ mcl, ¬ Writes1 rm a k) :
    byteOf (dataCell (step s (some ry) mcl) a) k = byteOf ry.d0 k := by
  rw [byteOf_dataCell]
  split_ifs with h
  · rw [← byteOf_low ry.d0 h]
    exact lawful.write0 _ (port0 ry _ _) _ _ _ h ((writes_port0_low h).mpr writes)
      (not_writes_map (fun _ => writes_port1_low h) alone)
  · have lane : k - 2 + 2 = k := by omega
    have high := byteOf_high ry.d0 (k - 2)
    rw [lane] at high
    rw [← high]
    exact lawful.write0 _ (port0 ry _ _) _ _ _ (by omega) ((writes_port0_high hk h).mpr writes)
      (not_writes_map (fun _ => writes_port1_high hk h) alone)

/-- A byte that the memory side alone writes. -/
theorem byte_write1 {rm : DcacheRammclI} (hk : k < 4) (writes : Writes1 rm a k)
    (alone : ∀ ry ∈ ccl, ¬ Writes0 ry a k) :
    byteOf (dataCell (step s ccl (some rm)) a) k = byteOf rm.d1 k := by
  rw [byteOf_dataCell]
  split_ifs with h
  · rw [← byteOf_low rm.d1 h]
    exact lawful.write1 _ _ (port1 rm _ _) _ _ h ((writes_port1_low h).mpr writes)
      (not_writes_map (fun _ => writes_port0_low h) alone)
  · have lane : k - 2 + 2 = k := by omega
    have high := byteOf_high rm.d1 (k - 2)
    rw [lane] at high
    rw [← high]
    exact lawful.write1 _ _ (port1 rm _ _) _ _ (by omega) ((writes_port1_high hk h).mpr writes)
      (not_writes_map (fun _ => writes_port0_high hk h) alone)

/-- A byte that neither side writes. -/
theorem byte_keep (hk : k < 4) (no0 : ∀ ry ∈ ccl, ¬ Writes0 ry a k)
    (no1 : ∀ rm ∈ mcl, ¬ Writes1 rm a k) :
    byteOf (dataCell (step s ccl mcl) a) k = byteOf (dataCell s a) k := by
  rw [byteOf_dataCell, byteOf_dataCell]
  split_ifs with h
  · exact lawful.keep _ _ _ _ _ h (not_writes_map (fun _ => writes_port0_low h) no0)
      (not_writes_map (fun _ => writes_port1_low h) no1)
  · exact lawful.keep _ _ _ _ _ (by omega)
      (not_writes_map (fun _ => writes_port0_high hk h) no0)
      (not_writes_map (fun _ => writes_port1_high hk h) no1)

end Bytes

end DcacheRam

/-- The cells after the write of a port. -/
def byteWrite (cells : BitVec 11 → BitVec 16) : Option (Ram1rwI 11 8 2) → BitVec 11 → BitVec 16
  | none, a => cells a
  | some i, a =>
    let lane (k : ℕ) : BitVec 8 :=
      if i.en && i.wr && i.a == a && i.we.getLsbD k then byteOf i.dw k else byteOf (cells a) k
    lane 1 ++ lane 0

/-- A RAM with two ports in which the second one has the last word. -/
def byteRam : DataRam2rw where
  State := (BitVec 11 → BitVec 16) × BitVec 16
  step s p q := (byteWrite (byteWrite s.1 p) q,
    match p with
    | some j => if j.en then s.1 j.a else s.2
    | none => s.2)
  cell s := s.1
  dr0 s := s.2

theorem byteOf_pair (high low : BitVec 8) {k : ℕ} (hk : k < 2) :
    byteOf (high ++ low : BitVec 16) k = if k = 0 then low else high := by
  apply BitVec.eq_of_getLsbD_eq
  intro i hi
  split_ifs with h <;> simp only [byteOf, BitVec.getLsbD_extractLsb', BitVec.getLsbD_append] <;> grind

theorem byteOf_byteWrite {cells : BitVec 11 → BitVec 16} {i : Ram1rwI 11 8 2} {a : BitVec 11} {k : ℕ}
    (hk : k < 2) (writes : i.Writes a k) : byteOf (byteWrite cells (some i) a) k = byteOf i.dw k := by
  obtain ⟨en, wr, ha, we⟩ := writes
  have lanes : k = 0 ∨ k = 1 := by omega
  rw [byteWrite, byteOf_pair _ _ hk]
  rcases lanes with rfl | rfl <;> simp [en, wr, ha, we]

theorem byteOf_byteWrite_keep {cells : BitVec 11 → BitVec 16} {p : Option (Ram1rwI 11 8 2)}
    {a : BitVec 11} {k : ℕ} (hk : k < 2) (no : ∀ i ∈ p, ¬ i.Writes a k) :
    byteOf (byteWrite cells p a) k = byteOf (cells a) k := by
  cases p with
  | none => rfl
  | some i =>
    have off : (i.en && i.wr && i.a == a && i.we.getLsbD k) = false := by
      refine Bool.eq_false_of_not_eq_true fun on => no i rfl ?_
      simp only [Bool.and_eq_true, beq_iff_eq] at on
      exact ⟨on.1.1.1, on.1.1.2, on.1.2, on.2⟩
    have lanes : k = 0 ∨ k = 1 := by omega
    rw [byteWrite, byteOf_pair _ _ hk]
    beta_reduce
    rcases lanes with rfl | rfl
    · rw [off, if_pos rfl]
      rfl
    · rw [off, if_neg one_ne_zero]
      rfl

theorem byteRam_writesBytes : byteRam.WritesBytes where
  write0 _ _ _ _ _ hk writes no :=
    (byteOf_byteWrite_keep hk no).trans (byteOf_byteWrite hk writes)
  write1 _ _ _ _ _ hk writes _ := byteOf_byteWrite hk writes
  keep _ _ _ _ _ hk no0 no1 :=
    (byteOf_byteWrite_keep hk no1).trans (byteOf_byteWrite_keep hk no0)

end JCore
