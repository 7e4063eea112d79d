import Mathlib.Data.BitVec

/-!
# Memories of bytes

A memory is a function from addresses to bytes. A store lays a block of bytes
over it; the address of a byte is compared with the start of the block modulo
the size of the address space.

## Main definitions

* `storeBytes`: lay `n` bytes over a memory
* `bigEndian`: the bytes of a number, most significant first
-/

namespace JCore

variable {w : ℕ} {β : Type}

/-- Lay the `n` bytes of `block` over a memory, from `addr` on. -/
def storeBytes (mem : BitVec w → β) (addr : BitVec w) (n : ℕ) (block : ℕ → β) : BitVec w → β :=
  fun x => if (x - addr).toNat < n then block (x - addr).toNat else mem x

section StoreBytes

variable {mem : BitVec w → β} {addr x : BitVec w} {n : ℕ} {block : ℕ → β}

theorem storeBytes_of_lt (h : (x - addr).toNat < n) :
    storeBytes mem addr n block x = block (x - addr).toNat := if_pos h

theorem storeBytes_of_not_lt (h : ¬(x - addr).toNat < n) :
    storeBytes mem addr n block x = mem x := if_neg h

/-- Only the bytes of the block that lie in it matter. -/
theorem storeBytes_congr {block' : ℕ → β} (h : ∀ k < n, block k = block' k) :
    storeBytes mem addr n block = storeBytes mem addr n block' := by
  funext x
  unfold storeBytes
  split_ifs with hx
  · exact h _ hx
  · rfl

/-- Moving the origin of the addresses moves a store along. -/
theorem storeBytes_sub (start : BitVec w) :
    storeBytes mem (addr - start) n block (x - start) =
      storeBytes (fun y => mem (y - start)) addr n block x := by
  have hx : x - start - (addr - start) = x - addr := sub_sub_sub_cancel_right x addr start
  unfold storeBytes
  rw [hx]

/-- The same store again changes nothing. -/
theorem storeBytes_storeBytes :
    storeBytes (storeBytes mem addr n block) addr n block = storeBytes mem addr n block := by
  funext x
  by_cases h : (x - addr).toNat < n
  · rw [storeBytes_of_lt h, storeBytes_of_lt h]
  · rw [storeBytes_of_not_lt h]

/-- An address of the block is its start plus its index. -/
theorem eq_add_of_sub (x addr : BitVec w) : x = addr + BitVec.ofNat w (x - addr).toNat := by
  rw [BitVec.ofNat_toNat, BitVec.setWidth_eq, BitVec.add_comm, BitVec.sub_add_cancel]

end StoreBytes

/-- Byte `k` of the low `n` bytes of a number, counted from the most significant
one. -/
def bigEndian {v : ℕ} (x : BitVec v) (n k : ℕ) : BitVec 8 := x.extractLsb' (8 * (n - 1 - k)) 8

end JCore
