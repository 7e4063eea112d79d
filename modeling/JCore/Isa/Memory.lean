import JCore.Core.Datapath
import JCore.Sim.ByteLanes

/-!
# A memory on the data bus

The memory that answers the data bus: it reads whole words and writes the bytes that are
enabled. A load or a store of the CPU is over this bus what it is on a flat memory, at
the address below that is a multiple of its size.

## Main definitions

* `busRead`, `busWrite`: the memory as the bus sees it
* `loadAt`, `storeAt`: the memory as an instruction sees it

## Main results

* `alignReadData_busRead`, `busWrite_toDataO`: the two views agree
-/

namespace JCore

open Sim

/-- The contents of a memory. -/
abbrev ByteMemory := BitVec 32 → BitVec 8

/-- The address of the word that holds a byte. -/
def wordOf (a : BitVec 32) : BitVec 32 := a.extractLsb' 2 30 ++ 0#2

/-- The word that holds the byte at `a`. -/
def busRead (mem : ByteMemory) (a : BitVec 32) : BitVec 32 := flatLoad mem .long (wordOf a)

/-- The bytes of a word that are enabled, most significant byte first. -/
def busWrite (mem : ByteMemory) (o : CpuDataO) : ByteMemory := fun x =>
  if wordOf x = wordOf o.a ∧ o.we.getLsbD (3 - x.toNat % 4) then
    bigEndian o.d 4 (x.toNat % 4)
  else mem x

/-- The multiple of the size at or below an address. -/
def alignTo (size : MemSize) (a : BitVec 32) : BitVec 32 :=
  match size with
  | .byte => a
  | .word => a.extractLsb' 1 31 ++ 0#1
  | .long => wordOf a

def loadAt (mem : ByteMemory) (size : MemSize) (a : BitVec 32) : BitVec 32 :=
  flatLoad mem size (alignTo size a)

def storeAt (mem : ByteMemory) (size : MemSize) (a data : BitVec 32) : ByteMemory :=
  flatStore mem size (alignTo size a) data

/-! ### Addresses -/

section Addresses

variable (a x : BitVec 32)

theorem toNat_wordOf : (wordOf a).toNat = a.toNat / 4 * 4 := by
  rw [wordOf, BitVec.toNat_append, BitVec.extractLsb'_toNat]
  have small : a.toNat >>> 2 < 2 ^ 30 := by
    have := a.isLt
    rw [Nat.shiftRight_eq_div_pow]
    omega
  rw [Nat.mod_eq_of_lt small, Nat.shiftRight_eq_div_pow]
  simp [Nat.shiftLeft_eq]

theorem toNat_half : (a.extractLsb' 1 31 ++ 0#1 : BitVec 32).toNat = a.toNat / 2 * 2 := by
  rw [BitVec.toNat_append, BitVec.extractLsb'_toNat]
  have small : a.toNat >>> 1 < 2 ^ 31 := by
    have := a.isLt
    rw [Nat.shiftRight_eq_div_pow]
    omega
  rw [Nat.mod_eq_of_lt small, Nat.shiftRight_eq_div_pow]
  simp [Nat.shiftLeft_eq]

theorem wordOf_eq_iff : wordOf x = wordOf a ↔ x.toNat / 4 = a.toNat / 4 := by
  rw [← BitVec.toNat_inj, toNat_wordOf, toNat_wordOf]
  omega

/-- An address is that of its word with its lane added. -/
theorem eq_wordOf_add : a = wordOf a + BitVec.ofNat 32 (a.toNat % 4) := by
  apply BitVec.eq_of_toNat_eq
  rw [BitVec.toNat_add, toNat_wordOf, BitVec.toNat_ofNat]
  have := a.isLt
  omega

theorem half_eq_wordOf_add : (a.extractLsb' 1 31 ++ 0#1 : BitVec 32) =
    wordOf a + BitVec.ofNat 32 (a.toNat % 4 / 2 * 2) := by
  apply BitVec.eq_of_toNat_eq
  rw [toNat_half, BitVec.toNat_add, toNat_wordOf, BitVec.toNat_ofNat]
  have := a.isLt
  omega

theorem lane_eq {k : ℕ} (h : a.toNat % 4 = k) : a.extractLsb' 0 2 = BitVec.ofNat 2 k := by
  apply BitVec.eq_of_toNat_eq
  rw [BitVec.extractLsb'_toNat, BitVec.toNat_ofNat]
  simp
  omega

theorem getLsbD_one_eq : a.getLsbD 1 = decide (2 ≤ a.toNat % 4) := by
  rw [BitVec.getLsbD, Nat.testBit_eq_decide_div_mod_eq]
  congr 1
  rw [eq_iff_iff]
  omega

end Addresses

/-! ### Loads -/

section Loads

variable (mem : ByteMemory) (w : BitVec 32)

/-- A byte of a word. -/
theorem byte_of_long {k : ℕ} (hk : k < 4) :
    (flatLoad mem .long w).extractLsb' (8 * (3 - k)) 8 = mem (w + BitVec.ofNat 32 k) := by
  rw [flatLoad]
  have zero : w + BitVec.ofNat 32 0 = w := BitVec.add_zero w
  interval_cases k
  case «0» =>
    rw [zero]
    apply BitVec.eq_of_getLsbD_eq
    intro i hi
    interval_cases i <;> simp only [BitVec.getLsbD_extractLsb', BitVec.getLsbD_append] <;> simp
  all_goals
    apply BitVec.eq_of_getLsbD_eq
    intro i hi
    interval_cases i <;> simp only [BitVec.getLsbD_extractLsb', BitVec.getLsbD_append] <;> simp

/-- A half of a word. -/
theorem half_of_long {k : ℕ} (hk : k < 2) :
    (flatLoad mem .long w).extractLsb' (16 * (1 - k)) 16 =
      mem (w + BitVec.ofNat 32 (2 * k)) ++ mem (w + BitVec.ofNat 32 (2 * k) + 1) := by
  rw [flatLoad]
  have zero : w + BitVec.ofNat 32 0 = w := BitVec.add_zero w
  have three : w + BitVec.ofNat 32 2 + 1 = w + 3 := by
    rw [BitVec.add_assoc]
    rfl
  interval_cases k
  · rw [zero]
    apply BitVec.eq_of_getLsbD_eq
    intro i hi
    interval_cases i <;> simp only [BitVec.getLsbD_extractLsb', BitVec.getLsbD_append] <;> simp
  · rw [three]
    apply BitVec.eq_of_getLsbD_eq
    intro i hi
    interval_cases i <;> simp only [BitVec.getLsbD_extractLsb', BitVec.getLsbD_append] <;> simp

/-- What the CPU takes from the bus is the load of the instruction. -/
theorem alignReadData_busRead (o : CpuDataO) (size : MemSize) :
    Datapath.alignReadData (busRead mem o.a) o size = loadAt mem size o.a := by
  have small : o.a.toNat % 4 < 4 := Nat.mod_lt _ (by decide)
  cases size with
  | long => rfl
  | byte =>
    have byte : Datapath.alignReadData (busRead mem o.a) o .byte =
        ((busRead mem o.a).extractLsb' (8 * (3 - o.a.toNat % 4)) 8).signExtend 32 := by
      rw [Datapath.alignReadData]
      generalize lane : o.a.toNat % 4 = k at small
      rw [lane_eq o.a lane]
      interval_cases k <;> rfl
    rw [byte, busRead, byte_of_long mem _ small, ← eq_wordOf_add]
    rfl
  | word =>
    have half : Datapath.alignReadData (busRead mem o.a) o .word =
        ((busRead mem o.a).extractLsb' (16 * (1 - o.a.toNat % 4 / 2)) 16).signExtend 32 := by
      rw [Datapath.alignReadData, getLsbD_one_eq]
      generalize o.a.toNat % 4 = k at small
      interval_cases k <;> rfl
    rw [half, busRead, half_of_long mem _ (by omega), Nat.mul_comm, ← half_eq_wordOf_add]
    rfl

end Loads

/-! ### Stores -/

section Stores

variable {m : MemCtrl} {coproc : CoprocCtrl} {a data x : BitVec 32}

/-- The number of bytes at whose multiple an access begins. -/
theorem toNat_alignTo (size : MemSize) (a : BitVec 32) :
    (alignTo size a).toNat = a.toNat / sizeBytes size * sizeBytes size := by
  cases size with
  | byte => simp [alignTo, sizeBytes]
  | word => exact toNat_half a
  | long => exact toNat_wordOf a

/-- The bytes that a store covers are those of its multiple. -/
theorem sub_alignTo (size : MemSize) (a x : BitVec 32) :
    ((x - alignTo size a).toNat < sizeBytes size ↔
      x.toNat / sizeBytes size = a.toNat / sizeBytes size) ∧
    (x.toNat / sizeBytes size = a.toNat / sizeBytes size →
      (x - alignTo size a).toNat = x.toNat % sizeBytes size) := by
  have hx := x.isLt
  have ha := a.isLt
  rw [BitVec.toNat_sub, toNat_alignTo]
  cases size <;> simp only [sizeBytes] <;> omega

theorem a_toDataO (issue : m.issue = true) : (Datapath.toDataO m coproc a data).a = a := by
  rw [Datapath.toDataO, if_pos issue]
  split
  · split <;> rfl
  · rfl

/-- The lanes that a store enables. -/
theorem we_toDataO (issue : m.issue = true) (wr : m.wr = true) {k : ℕ} (hk : k < 4) :
    (Datapath.toDataO m coproc a data).we.getLsbD (3 - k) =
      decide (k / sizeBytes m.size = a.toNat % 4 / sizeBytes m.size) := by
  have small : a.toNat % 4 < 4 := Nat.mod_lt _ (by decide)
  rw [Datapath.toDataO, if_pos issue, if_pos wr]
  cases m.size with
  | long =>
    have whole : k / 4 = a.toNat % 4 / 4 := by omega
    rw [sizeBytes, decide_eq_true whole]
    show (0b1111#4).getLsbD (3 - k) = true
    interval_cases k <;> decide
  | word =>
    simp only [getLsbD_one_eq, sizeBytes]
    generalize a.toNat % 4 = lane at small
    interval_cases k <;> interval_cases lane <;> rfl
  | byte =>
    have lane := lane_eq a rfl
    simp only [lane, sizeBytes, Nat.div_one]
    generalize a.toNat % 4 = lane at small
    interval_cases k <;> interval_cases lane <;> rfl

/-- The byte on each of them. -/
theorem d_toDataO (issue : m.issue = true) (wr : m.wr = true) {k : ℕ} (hk : k < 4) :
    bigEndian (Datapath.toDataO m coproc a data).d 4 k =
      bigEndian data (sizeBytes m.size) (k % sizeBytes m.size) := by
  rw [Datapath.toDataO, if_pos issue, if_pos wr]
  cases m.size with
  | long => rw [sizeBytes, Nat.mod_eq_of_lt hk]
  | word =>
    simp only [bigEndian, sizeBytes]
    apply BitVec.eq_of_getLsbD_eq
    intro i hi
    interval_cases k <;> interval_cases i <;>
      simp only [BitVec.getLsbD_extractLsb', BitVec.getLsbD_append] <;> simp
  | byte =>
    simp only [bigEndian, sizeBytes, Nat.mod_one]
    apply BitVec.eq_of_getLsbD_eq
    intro i hi
    interval_cases k <;> interval_cases i <;>
      simp only [BitVec.getLsbD_extractLsb', BitVec.getLsbD_append] <;> simp

/-- The request of a store leaves the memory as the store of the instruction does. -/
theorem busWrite_toDataO (mem : ByteMemory) (issue : m.issue = true) (wr : m.wr = true) :
    busWrite mem (Datapath.toDataO m coproc a data) = storeAt mem m.size a data := by
  funext x
  have small : x.toNat % 4 < 4 := Nat.mod_lt _ (by decide)
  obtain ⟨inside, index⟩ := sub_alignTo m.size a x
  have same : (wordOf x = wordOf a ∧
      decide (x.toNat % 4 / sizeBytes m.size = a.toNat % 4 / sizeBytes m.size) = true) ↔
      x.toNat / sizeBytes m.size = a.toNat / sizeBytes m.size := by
    rw [wordOf_eq_iff, decide_eq_true_eq]
    cases m.size <;> simp only [sizeBytes] <;> omega
  have lane : x.toNat % 4 % sizeBytes m.size = x.toNat % sizeBytes m.size := by
    cases m.size <;> simp only [sizeBytes] <;> omega
  rw [busWrite, storeAt, flatStore, storeBytes, a_toDataO issue, we_toDataO issue wr small,
    d_toDataO issue wr small, lane]
  by_cases here : x.toNat / sizeBytes m.size = a.toNat / sizeBytes m.size
  · rw [if_pos (same.mpr here), if_pos (inside.mpr here), index here]
  · rw [if_neg fun h => here (same.mp h), if_neg fun h => here (inside.mp h)]

end Stores

/-! ### The bytes of an access -/

section Accesses

variable {mem mem' : ByteMemory} {size : MemSize} {a x : BitVec 32}

/-- A store, byte by byte. -/
theorem storeAt_apply (data : BitVec 32) :
    storeAt mem size a data x =
      if x.toNat / sizeBytes size = a.toNat / sizeBytes size then
        bigEndian data (sizeBytes size) (x.toNat % sizeBytes size)
      else mem x := by
  obtain ⟨inside, index⟩ := sub_alignTo size a x
  rw [storeAt, flatStore, storeBytes]
  by_cases h : x.toNat / sizeBytes size = a.toNat / sizeBytes size
  · rw [if_pos (inside.mpr h), if_pos h, index h]
  · rw [if_neg (fun lt => h (inside.mp lt)), if_neg h]

/-- Only the bytes of its multiple matter for a load. -/
theorem loadAt_congr
    (h : ∀ x : BitVec 32, x.toNat / sizeBytes size = a.toNat / sizeBytes size → mem x = mem' x) :
    loadAt mem size a = loadAt mem' size a := by
  have base : (alignTo size a).toNat = a.toNat / sizeBytes size * sizeBytes size := toNat_alignTo size a
  have small := a.isLt
  have bytes : ∀ k < sizeBytes size,
      mem (alignTo size a + BitVec.ofNat 32 k) = mem' (alignTo size a + BitVec.ofNat 32 k) := by
    intro k hk
    apply h
    rw [BitVec.toNat_add, BitVec.toNat_ofNat, base]
    cases size <;> simp only [sizeBytes] at hk ⊢ <;> omega
  have zero : alignTo size a + BitVec.ofNat 32 0 = alignTo size a := BitVec.add_zero _
  have first := bytes 0 (by cases size <;> decide)
  rw [zero] at first
  rw [loadAt, loadAt]
  cases size with
  | byte => rw [flatLoad, flatLoad, first]
  | word =>
    have second : mem (alignTo .word a + 1) = mem' (alignTo .word a + 1) := bytes 1 (by decide)
    rw [flatLoad, flatLoad, first, second]
  | long =>
    have second : mem (alignTo .long a + 1) = mem' (alignTo .long a + 1) := bytes 1 (by decide)
    have third : mem (alignTo .long a + 2) = mem' (alignTo .long a + 2) := bytes 2 (by decide)
    have fourth : mem (alignTo .long a + 3) = mem' (alignTo .long a + 3) := bytes 3 (by decide)
    rw [flatLoad, flatLoad, first, second, third, fourth]

end Accesses

end JCore
