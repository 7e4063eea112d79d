import JCore.Decode.Predecode
import Mathlib.Tactic.IntervalCases

/-!
# The digits of an instruction word

An instruction word has three digits that tell the instructions apart: the first
one chooses a group, and within the group the low byte or the second digit decides.
What holds of one word for each value of its digits so holds of all words.

## Main definitions

* `codeGroup`, `codeHigh`, `codeLow`: the digits of a word
* `ofDigits`: the word with the given digits

## Main results

* `predecodeRomAddr_congr_low`, `predecodeRomAddr_congr_high`: the digits that the
  start address of a word depends on
-/

namespace JCore

section Words

variable (code : BitVec 16)

def codeGroup : BitVec 4 := code.extractLsb 15 12

def codeHigh : BitVec 4 := code.extractLsb 11 8

def codeLow : BitVec 8 := code.extractLsb 7 0

end Words

/-- The word with the given digits. -/
def ofDigits (group high : BitVec 4) (low : BitVec 8) : BitVec 16 := group ++ high ++ low

section Fields

variable {code code' : BitVec 16}

theorem getLsbD_codeLow {k : ℕ} (hk : k < 8) : (codeLow code).getLsbD k = code.getLsbD k := by
  rw [codeLow, BitVec.getLsbD_extractLsb, Nat.zero_add]
  simp
  omega

theorem getLsbD_of_codeLow (low : codeLow code = codeLow code') (k : ℕ) (hk : k < 8) :
    code.getLsbD k = code'.getLsbD k := by
  rw [← getLsbD_codeLow hk, low, getLsbD_codeLow hk]

theorem getLsbD_codeHigh {k : ℕ} (hk : k < 4) :
    (codeHigh code).getLsbD k = code.getLsbD (8 + k) := by
  rw [codeHigh, BitVec.getLsbD_extractLsb]
  simp
  omega

theorem codeHigh_eq_zero :
    (!code.getLsbD 11 && !code.getLsbD 10 && !code.getLsbD 9 && !code.getLsbD 8) =
      (codeHigh code == 0) := by
  have bits : ∀ x : BitVec 4,
      (!x.getLsbD 3 && !x.getLsbD 2 && !x.getLsbD 1 && !x.getLsbD 0) = (x == 0) := by decide
  rw [← bits, getLsbD_codeHigh (by decide), getLsbD_codeHigh (by decide),
    getLsbD_codeHigh (by decide), getLsbD_codeHigh (by decide)]

theorem codeGroup_ofDigits (group high : BitVec 4) (low : BitVec 8) :
    codeGroup (ofDigits group high low) = group := by
  apply BitVec.eq_of_getLsbD_eq
  intro i hi
  interval_cases i <;>
    simp only [codeGroup, ofDigits, BitVec.getLsbD_append, BitVec.getLsbD_extractLsb] <;> simp

theorem codeHigh_ofDigits (group high : BitVec 4) (low : BitVec 8) :
    codeHigh (ofDigits group high low) = high := by
  apply BitVec.eq_of_getLsbD_eq
  intro i hi
  interval_cases i <;>
    simp only [codeHigh, ofDigits, BitVec.getLsbD_append, BitVec.getLsbD_extractLsb] <;> simp

theorem codeLow_ofDigits (group high : BitVec 4) (low : BitVec 8) :
    codeLow (ofDigits group high low) = low := by
  apply BitVec.eq_of_getLsbD_eq
  intro i hi
  interval_cases i <;>
    simp only [codeLow, ofDigits, BitVec.getLsbD_append, BitVec.getLsbD_extractLsb] <;> simp

/-! ### The start address -/

/-- In these groups only the low digits count, in the first also whether the second
digit is zero. -/
theorem predecodeRomAddr_congr_low (low : codeLow code = codeLow code')
    (group : codeGroup code = codeGroup code')
    (high : codeGroup code' = 0 → (codeHigh code == 0) = (codeHigh code' == 0))
    (h : codeGroup code' ∈ [0x0, 0x2, 0x3, 0x4, 0x6, 0xf]) :
    predecodeRomAddr code = predecodeRomAddr code' := by
  have bit := getLsbD_of_codeLow low
  have hgroup : code.extractLsb 15 12 = code'.extractLsb 15 12 := group
  rw [predecodeRomAddr, predecodeRomAddr, hgroup]
  simp only [List.mem_cons, List.not_mem_nil, or_false] at h
  rcases h with h | h | h | h | h | h <;> rw [codeGroup] at h <;> rw [h]
  · change predecode0 code = predecode0 code'
    have hzero := high h
    rw [← codeHigh_eq_zero, ← codeHigh_eq_zero] at hzero
    simp only [predecode0, bit 0 (by decide), bit 1 (by decide), bit 2 (by decide),
      bit 3 (by decide), bit 4 (by decide), bit 5 (by decide), bit 6 (by decide),
      bit 7 (by decide), hzero]
  · change predecode2 code = predecode2 code'
    simp only [predecode2, bit 0 (by decide), bit 1 (by decide), bit 2 (by decide),
      bit 3 (by decide)]
  · change predecode3 code = predecode3 code'
    simp only [predecode3, bit 0 (by decide), bit 1 (by decide), bit 2 (by decide),
      bit 3 (by decide)]
  · change predecode4 code = predecode4 code'
    simp only [predecode4, bit 0 (by decide), bit 1 (by decide), bit 2 (by decide),
      bit 3 (by decide), bit 4 (by decide), bit 5 (by decide), bit 6 (by decide),
      bit 7 (by decide)]
  · change predecode6 code = predecode6 code'
    simp only [predecode6, bit 0 (by decide), bit 1 (by decide), bit 2 (by decide),
      bit 3 (by decide)]
  · change predecodeF code = predecodeF code'
    simp only [predecodeF, bit 0 (by decide), bit 1 (by decide), bit 2 (by decide),
      bit 3 (by decide), bit 4 (by decide), bit 5 (by decide), bit 6 (by decide),
      bit 7 (by decide)]

/-- In these groups the second digit counts. -/
theorem predecodeRomAddr_congr_high (high : codeHigh code = codeHigh code')
    (group : codeGroup code = codeGroup code') (h : codeGroup code' ∈ [0x8, 0xc]) :
    predecodeRomAddr code = predecodeRomAddr code' := by
  have bit : ∀ k < 4, code.getLsbD (8 + k) = code'.getLsbD (8 + k) := fun k hk => by
    rw [← getLsbD_codeHigh hk, high, getLsbD_codeHigh hk]
  have hgroup : code.extractLsb 15 12 = code'.extractLsb 15 12 := group
  rw [predecodeRomAddr, predecodeRomAddr, hgroup]
  simp only [List.mem_cons, List.not_mem_nil, or_false] at h
  rcases h with h | h <;> rw [codeGroup] at h <;> rw [h]
  · change predecode8 code = predecode8 code'
    simp only [predecode8, bit 0 (by decide), bit 1 (by decide), bit 2 (by decide),
      bit 3 (by decide)]
  · change predecodeC code = predecodeC code'
    simp only [predecodeC, bit 0 (by decide), bit 1 (by decide), bit 2 (by decide),
      bit 3 (by decide)]

end Fields

end JCore
