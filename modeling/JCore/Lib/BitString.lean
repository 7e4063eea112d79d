import Mathlib.Data.List.Flatten
import Mathlib.Data.Nat.Size

/-!
# Bit strings

Strings of bits with the highest bit first: the number a string stands for, which
leading zeros do not change, and the codes that a list gives its elements by numbering
them.
-/

namespace JCore

/-! ### The number of a string -/

/-- The number that a string stands for. -/
def ofBitString (s : List Bool) : ℕ := s.foldl (fun n b => n.bit b) 0

theorem ofBitString_append (s t : List Bool) :
    ofBitString (s ++ t) = t.foldl (fun n b => n.bit b) (ofBitString s) := by
  rw [ofBitString, List.foldl_append, ofBitString]

theorem ofBitString_zeros (n : ℕ) : ofBitString (List.replicate n false) = 0 := by
  induction n with
  | zero => rfl
  | succ n ih => rwa [List.replicate_succ]

theorem ofBitString_zeros_append (n : ℕ) (s : List Bool) :
    ofBitString (List.replicate n false ++ s) = ofBitString s := by
  rw [ofBitString_append, ofBitString_zeros, ofBitString]

theorem ofBitString_bits (n : ℕ) : ofBitString n.bits.reverse = n := by
  rw [ofBitString, List.foldl_reverse]
  induction n using Nat.binaryRec' with
  | zero => rfl
  | bit b n h ih => rw [Nat.bits_append_bit n b h, List.foldr_cons, ih]

/-! ### Numbering -/

section Numbering

variable {α β : Type*} [BEq α] [LawfulBEq α]

/-- In a list whose elements are paired with a function of their number, looking up an
element finds that of its first place. -/
theorem lookup_zipIdx_map (f : ℕ → β) (l : List α) (n : ℕ) (a : α) :
    ((l.zipIdx n).map fun (v, i) => (v, f i)).lookup a =
      if a ∈ l then some (f (n + l.idxOf a)) else none := by
  induction l generalizing n with
  | nil => rfl
  | cons b l ih =>
    rw [List.zipIdx_cons, List.map_cons, List.lookup_cons]
    by_cases h : a = b
    · subst h
      simp
    · have hba : ¬(b = a) := fun e => h e.symm
      rw [beq_eq_false_iff_ne.mpr h, ih, List.idxOf_cons, beq_eq_false_iff_ne.mpr hba, cond_false]
      simp only [List.mem_cons, h, false_or]
      rw [Nat.add_right_comm, Nat.add_assoc]

theorem nodup_eraseDups (l : List α) : l.eraseDups.Nodup := by
  induction hn : l.length using Nat.strongRecOn generalizing l with
  | _ n ih =>
    cases l with
    | nil => exact List.nodup_nil
    | cons a l =>
      rw [List.eraseDups_cons, List.nodup_cons]
      refine ⟨fun h => ?_, ih _ ?_ _ rfl⟩
      · simp [List.mem_eraseDups] at h
      · rw [← hn, List.length_cons]
        exact Nat.lt_succ_of_le (List.length_filter_le _ _)

end Numbering

end JCore
