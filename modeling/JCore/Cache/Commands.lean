import JCore.Cache.Ccl
import JCore.Cache.Traffic
import JCore.Core.Datapath

/-!
# The commands of the data cache

The CPU side packs a request into 65 bits: the command, the size of the access, its
address and its datum. The memory side reads the write enables back from the size and the
address.

## Main results

* `b0dWe_sz`: the write enables of the CPU survive
* `traffic_ctomB0d`: the transactions of a request, in the words of the CPU
-/

namespace JCore

section Commands

variable {this : DcacheCclReg} {i : DcacheCclI}

/-- The transactions of a request of the CPU side. -/
def DcacheCcl.commanded (this : DcacheCclReg) (i : DcacheCclI) : List Transaction :=
  let a := i.a.a.extractLsb 27 0
  let cmd := DcacheCcl.ctomCmd this i
  if cmd = cacheDcmdReadmiss then lineReads a 8
  else if cmd = cacheDcmdWritemiss then lineReads a 8 ++ [.write a i.a.we i.a.d]
  else if cmd = cacheDcmdReadsglNm ∨ cmd = cacheDcmdReadsglLo then [.read a]
  else if cmd = cacheDcmdNegateLo then []
  else [.write a i.a.we i.a.d]

/-- The size and the address of a store give its write enables back. -/
theorem b0dWe_sz {mem : MemCtrl} {coproc : CoprocCtrl} {addr data : BitVec 32}
    (cpu : i.a = Datapath.toDataO mem coproc addr data) (wr : i.a.wr = true) (cmd : BitVec 3)
    (d : BitVec 32) :
    b0dWe (cmd ++ DcacheCcl.sz i ++ i.a.a.extractLsb 27 0 ++ d) = i.a.we := by
  have bits : (addr.extractLsb 27 0).extractLsb 1 0 = addr.extractLsb' 0 2 := by
    apply BitVec.eq_of_getLsbD_eq
    intro k hk
    have le : k ≤ 27 := by omega
    simp only [BitVec.getLsbD_extractLsb, BitVec.getLsbD_extractLsb', hk, Nat.zero_add]
    simp
    omega
  have bit : (addr.extractLsb 27 0).getLsbD 1 = addr.getLsbD 1 := by
    simp
  have store : mem.issue = true ∧ mem.wr = true := by
    grind [Datapath.toDataO, nullDataO]
  rw [b0dWe, b0dSize_append, b0dAddr_append, DcacheCcl.sz, cpu, Datapath.toDataO, if_pos store.1]
  cases mem.size with
  | long => simp [store.2]
  | word =>
    simp only [store.2, if_true, bit]
    cases addr.getLsbD 1 <;> rfl
  | byte =>
    simp only [store.2, if_true, bits]
    generalize (addr.extractLsb 27 0).getLsbD 1 = high, addr.extractLsb' 0 2 = lane
    clear bits bit cpu wr
    revert high lane
    decide

/-- A store of the CPU side is sent for a write. -/
theorem wr_of_ctomCmd (en : DcacheCcl.ctomB0en this i = true)
    (store : DcacheCcl.ctomCmd this i = cacheDcmdWritemiss ∨
      DcacheCcl.ctomCmd this i = cacheDcmdWritesglFa ∨
      DcacheCcl.ctomCmd this i = cacheDcmdWritesglSl) : i.a.wr = true := by
  grind [DcacheCcl.ctomCmd, DcacheCcl.ctomB0en, DcacheCcl.nextState, DcacheCcl.nextStateOn,
    DcacheCcl.nextStateOff, cacheDcmdReadmiss, cacheDcmdNegateLo, cacheDcmdReadsglNm,
    cacheDcmdReadsglLo, cacheDcmdWritemiss, cacheDcmdWritesglFa, cacheDcmdWritesglSl]

/-- There is no command 101. -/
theorem ctomCmd_ne : DcacheCcl.ctomCmd this i ≠ 0b101 := by
  rw [DcacheCcl.ctomCmd]
  split
  · decide
  · split_ifs <;> decide
  · decide
  · decide
  · decide
  · decide
  · split_ifs <;> decide
  · decide

theorem b0dCmd_ctomB0d : b0dCmd (DcacheCcl.ctomB0d this i) = DcacheCcl.ctomCmd this i := by
  rw [DcacheCcl.ctomB0d]
  split
  · exact b0dCmd_append ..
  · split_ifs <;> exact b0dCmd_append ..
  · exact b0dCmd_append ..

theorem b0dAddr_ctomB0d : b0dAddr (DcacheCcl.ctomB0d this i) = i.a.a.extractLsb 27 0 := by
  rw [DcacheCcl.ctomB0d]
  split
  · exact b0dAddr_append ..
  · split_ifs <;> exact b0dAddr_append ..
  · exact b0dAddr_append ..

/-- A store is sent with its size and its datum. -/
theorem ctomB0d_of_store (store : DcacheCcl.ctomCmd this i = cacheDcmdWritemiss ∨
    DcacheCcl.ctomCmd this i = cacheDcmdWritesglFa ∨
    DcacheCcl.ctomCmd this i = cacheDcmdWritesglSl) :
    DcacheCcl.ctomB0d this i =
      DcacheCcl.ctomCmd this i ++ DcacheCcl.sz i ++ i.a.a.extractLsb 27 0 ++ i.a.d := by
  rw [DcacheCcl.ctomCmd] at store
  rw [DcacheCcl.ctomB0d]
  split
  · next h =>
    simp [h, cacheDcmdReadmiss, cacheDcmdWritemiss, cacheDcmdWritesglFa, cacheDcmdWritesglSl]
      at store
  · next h =>
    split_ifs with idle
    · simp [h, idle, cacheDcmdNegateLo, cacheDcmdWritemiss, cacheDcmdWritesglFa,
        cacheDcmdWritesglSl] at store
    · rfl
  · rfl

/-- The request of the CPU side stands for its transactions. -/
theorem traffic_ctomB0d (en : DcacheCcl.ctomB0en this i = true)
    (cpu : i.a.wr = true →
      ∃ mem coproc addr data, i.a = Datapath.toDataO mem coproc addr data) :
    traffic (DcacheCcl.ctomB0d this i) = DcacheCcl.commanded this i := by
  have write (store : DcacheCcl.ctomCmd this i = cacheDcmdWritemiss ∨
      DcacheCcl.ctomCmd this i = cacheDcmdWritesglFa ∨
      DcacheCcl.ctomCmd this i = cacheDcmdWritesglSl) :
      storeWrite (DcacheCcl.ctomB0d this i) =
        .write (i.a.a.extractLsb 27 0) i.a.we i.a.d := by
    have wr := wr_of_ctomCmd en store
    obtain ⟨mem, coproc, addr, data, cpu⟩ := cpu wr
    rw [storeWrite, b0dAddr_ctomB0d, ctomB0d_of_store store, b0dWe_sz cpu wr]
    congr 1
    exact b0dData_append ..
  rw [traffic, DcacheCcl.commanded, b0dCmd_ctomB0d, b0dAddr_ctomB0d]
  split_ifs with c1 c2 c3 c4
  · rfl
  · rw [write (.inl c2)]
  · rfl
  · rfl
  · by_cases c5 : DcacheCcl.ctomCmd this i = cacheDcmdWritesglSl
    · rw [write (.inr (.inr c5))]
    · rw [write (.inr (.inl (writesglFa_of_ne c1 c2 c3 c5 c4 ctomCmd_ne)))]

end Commands

end JCore
