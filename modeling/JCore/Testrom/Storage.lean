import JCore.Testrom.Hex

/-!
# The storage of the monitor

The monitor lies in the memory that it reads and writes for a debugger: its code, the
registers that it has saved, the word below the trap, and the buffer and the other
variables on its stack. The model keeps these apart from the memory of the program, and so
has no answer to an access that reaches into them.

## Main definitions

* `Storage`: the cells of the monitor
* `Storage.Clear`, `Storage.ClearAt`: regions and accesses without any of them
* `Storage.Agree`: memories that differ in these cells alone

## Main results

* `Agree.region_eq`, `Agree.loadAt_eq`: what is read elsewhere is the same
* `storeAt_own`, `bufToMem_own`: what is written elsewhere leaves them alone
-/

namespace JCore.Gdb

open Sim

/-- The cells that hold the monitor itself. -/
abbrev Storage := BitVec 32 → Bool

namespace Storage

variable (own : Storage)

/-- None of them is in a region. -/
def Clear (a : BitVec 32) (n : ℕ) : Prop := ∀ k < n, own (a + BitVec.ofNat 32 k) = false

instance (a : BitVec 32) (n : ℕ) : Decidable (own.Clear a n) := Nat.decidableBallLT _ _

/-- None of them is in the unit of an access. -/
def ClearAt (access : MemSize × BitVec 32) : Prop :=
  own.Clear (alignTo access.1 access.2) (sizeBytes access.1)

instance (access : MemSize × BitVec 32) : Decidable (own.ClearAt access) :=
  inferInstanceAs (Decidable (own.Clear _ _))

/-- The memories differ in these cells alone. -/
def Agree (mem mem' : ByteMemory) : Prop := ∀ x, own x = false → mem x = mem' x

variable {own} {mem mem' : ByteMemory} {a x : BitVec 32} {n : ℕ} {access : MemSize × BitVec 32}

theorem Clear.apply (clear : own.Clear a n) (inside : (x - a).toNat < n) : own x = false := by
  rw [eq_add_of_sub x a]
  exact clear _ inside

theorem ClearAt.apply (clear : own.ClearAt access)
    (inside : x.toNat / sizeBytes access.1 = access.2.toNat / sizeBytes access.1) : own x = false :=
  Clear.apply clear ((sub_alignTo access.1 access.2 x).1.mpr inside)

/-! ### Reads -/

theorem Agree.region_eq (h : own.Agree mem mem') (clear : own.Clear a n) :
    region mem a n = region mem' a n :=
  List.map_congr_left fun k hk => h _ (clear k (List.mem_range.mp hk))

theorem Agree.loadAt_eq (h : own.Agree mem mem') (clear : own.ClearAt access) :
    loadAt mem access.1 access.2 = loadAt mem' access.1 access.2 :=
  loadAt_congr fun x inside => h x (clear.apply inside)

/-! ### Writes -/

theorem Agree.storeAt (h : own.Agree mem mem') (size : MemSize) (a data : BitVec 32) :
    own.Agree (storeAt mem size a data) (storeAt mem' size a data) := by
  intro x elsewhere
  rw [storeAt_apply, storeAt_apply, h x elsewhere]

theorem storeAt_own (clear : own.ClearAt access) (data : BitVec 32) (mine : own x = true) :
    storeAt mem access.1 access.2 data x = mem x := by
  rw [storeAt_apply]
  refine if_neg fun inside => ?_
  exact absurd (mine.symm.trans (clear.apply inside)) Bool.noConfusion

/-- The units of a region lie in it. -/
theorem Clear.accesses (clear : own.Clear a n) (h : access ∈ accesses a n) : own.ClearAt access := by
  have inRegion : ∀ fuel len, ∀ a : BitVec 32, own.Clear a len →
      access ∈ accessesFrom fuel a len → own.ClearAt access := by
    intro fuel
    induction fuel with
    | zero => exact fun _ _ _ none => absurd none List.not_mem_nil
    | succ fuel ih =>
      intro len a clear there
      rcases Nat.eq_zero_or_pos len with rfl | pos
      · exact absurd there List.not_mem_nil
      obtain ⟨fits, aligned⟩ := unit_fits a pos
      rw [accessesFrom_eq a pos, List.mem_cons] at there
      rcases there with rfl | later
      · rw [ClearAt, alignTo_of_aligned _ aligned]
        exact fun k hk => clear k (hk.trans_le fits)
      · refine ih _ _ (fun k hk => ?_) later
        rw [BitVec.add_assoc, ← BitVec.ofNat_add]
        exact clear _ (by omega)
  exact inRegion n n a clear h

/-- Filling units from a buffer. -/
theorem bufToMem_rel {spelling : Spelling} {units : List (MemSize × BitVec 32)}
    (clear : ∀ access ∈ units, own.ClearAt access) {buf : List (BitVec 8)}
    (h : own.Agree mem mem') {written : ByteMemory}
    (fills : bufToMem spelling units buf mem = some written) :
    (∀ x, own x = true → written x = mem x) ∧
      ∃ written', bufToMem spelling units buf mem' = some written' ∧ own.Agree written written' := by
  induction units generalizing buf mem mem' with
  | nil =>
    obtain rfl := Option.some.inj fills
    exact ⟨fun _ _ => rfl, mem', rfl, h⟩
  | cons access units ih =>
    obtain ⟨size, a⟩ := access
    rw [List.forall_mem_cons] at clear
    rw [bufToMem, Option.bind_eq_some_iff] at fills
    obtain ⟨taken, spelt, fills⟩ := fills
    obtain ⟨same, written', fills', agree⟩ := ih clear.2 (h.storeAt size a _) fills
    refine ⟨fun x mine => (same x mine).trans (storeAt_own clear.1 _ mine), written', ?_, agree⟩
    rw [bufToMem, spelt]
    exact fills'

end Storage

end JCore.Gdb
