import JCore.Gen.Rom
import JCore.Lib.BitString
import Mathlib.Data.List.Nodup

/-!
# Microcode lines round trip

What the decoder of a field makes of the line of a slot is what the slot gives to the
key. This holds of lines in which every field has the width that was computed for it:
the number of the only value of a field is written with a digit, for which there is no
bit. It holds of the signals of a single bit if the bit is their value.

A slot that leaves out a nillable key with a field of its own has the code of the key's
first value.

## Main results

* `selectAssign_branches`: a field decoded
* `length_encodeString`, `slice_encodeString`: a slot's line, field by field
* `rom_lines_round_trip`: the decoders of all fields on the lines of all slots
-/

namespace JCore

namespace Gen

/-! ### Codes -/

theorem ofBitString_toBinNum (n width : ℕ) : ofBitString (toBinNum n width) = n := by
  rw [toBinNum, ofBitString_zeros_append, toBinaryString]
  split_ifs with h
  · rw [h]
    rfl
  · exact ofBitString_bits n

theorem toBinNum_injective {m n width : ℕ} (h : toBinNum m width = toBinNum n width) : m = n := by
  rw [← ofBitString_toBinNum m width, h, ofBitString_toBinNum]

/-- A number that fits is written with the width. Without digits none fits. -/
theorem length_toBinNum {n width : ℕ} (hpos : 0 < width) (h : n < 2 ^ width) :
    (toBinNum n width).length = width := by
  have hle : (toBinaryString n).length ≤ width := by
    rw [toBinaryString]
    split_ifs
    · exact hpos
    · rw [List.length_reverse, Nat.size_eq_bits_len]
      exact Nat.size_le.mpr h
  rw [toBinNum, List.length_append, List.length_replicate, Nat.sub_add_cancel hle]

theorem toBinNum_zero (width : ℕ) (hpos : 0 < width) :
    toBinNum 0 width = List.replicate width false := by
  obtain ⟨w, rfl⟩ := Nat.exists_eq_succ_of_ne_zero (Nat.ne_of_gt hpos)
  rw [toBinNum, List.replicate_succ']
  rfl

theorem log2_pos {n : ℕ} (h : n ≠ 1) : 0 < log2 n := by
  rw [log2]
  split_ifs with hzero
  · decide
  · exact Nat.size_pos.mpr (by omega)

theorem lt_two_pow_log2 {i n : ℕ} (h : i < n) : i < 2 ^ log2 n := by
  rw [log2, if_neg (Nat.ne_zero_of_lt h)]
  calc i ≤ n - 1 := Nat.le_sub_one_of_lt h
    _ < 2 ^ (n - 1).size := Nat.lt_size_self (n - 1)

/-! ### The values of a field -/

section Values

variable {V : Type*} {vals : List (List (Option V))}

/-- The values in the order of their codes. -/
def ordered (vals : List (List (Option V))) : List (List (Option V)) :=
  vals.filter multiNil ++ vals.filter fun v => !multiNil v

theorem mem_ordered {v : List (Option V)} : v ∈ ordered vals ↔ v ∈ vals := by
  rw [ordered, List.mem_append, List.mem_filter, List.mem_filter]
  cases multiNil v <;> simp

theorem length_ordered : (ordered vals).length = vals.length := by
  rw [ordered, List.length_append]
  exact (List.length_eq_length_filter_add multiNil).symm

theorem mem_encodingOf {v : List (Option V)} {code : List Bool} (h : (v, code) ∈ encodingOf vals) :
    ∃ i, ∃ hi : i < (ordered vals).length, (ordered vals)[i] = v ∧
      code = toBinNum i (log2 vals.length) := by
  rw [encodingOf, ← ordered, List.mem_map] at h
  obtain ⟨⟨v', i⟩, hmem, heq⟩ := h
  obtain ⟨hi, hv⟩ := List.mem_zipIdx' hmem
  obtain ⟨rfl, rfl⟩ := Prod.mk.inj heq
  exact ⟨i, hi, hv.symm, rfl⟩

variable [DecidableEq V]

/-- The code of a value. -/
def codeOf (vals : List (List (Option V))) (v : List (Option V)) : List Bool :=
  toBinNum ((ordered vals).idxOf v) (log2 vals.length)

theorem lookup_encodingOf (v : List (Option V)) :
    (encodingOf vals).lookup v = if v ∈ vals then some (codeOf vals v) else none := by
  rw [encodingOf, ← ordered]
  refine (lookup_zipIdx_map (fun i => toBinNum i (log2 vals.length)) (ordered vals) 0 v).trans ?_
  rw [Nat.zero_add]
  simp only [mem_ordered, codeOf]

theorem length_codeOf {v : List (Option V)} (hcount : vals.length ≠ 1) (h : v ∈ vals) :
    (codeOf vals v).length = log2 vals.length := by
  refine length_toBinNum (log2_pos hcount) (lt_two_pow_log2 ?_)
  rw [← length_ordered]
  exact List.idxOf_lt_length_iff.mpr (mem_ordered.mpr h)

/-- A code stands for one value. -/
theorem eq_of_codeOf_mem {v v' : List (Option V)}
    (hmem : (v', codeOf vals v) ∈ encodingOf vals) : v' = v := by
  obtain ⟨i, hi, rfl, hcode⟩ := mem_encodingOf hmem
  obtain rfl := toBinNum_injective hcode
  exact List.getElem_idxOf hi

theorem codeOf_mem {v : List (Option V)} (h : v ∈ vals) :
    (v, codeOf vals v) ∈ encodingOf vals := by
  have hi := List.idxOf_lt_length_iff.mpr (mem_ordered.mpr h)
  rw [encodingOf, ← ordered, List.mem_map]
  refine ⟨(v, (ordered vals).idxOf v), ?_, rfl⟩
  rw [List.mem_zipIdx_iff_getElem?, List.getElem?_eq_getElem hi, List.getElem_idxOf hi]

/-- The code of zeros stands for the first value. -/
theorem zeros_eq_codeOf (hcount : vals.length ≠ 1) {v : List (Option V)} {rest}
    (h : ordered vals = v :: rest) :
    List.replicate (log2 vals.length) false = codeOf vals v := by
  rw [codeOf, h, List.idxOf_cons_self, toBinNum_zero _ (log2_pos hcount)]

end Values

/-! ### One field decoded -/

section Decoder

variable {K V E : Type*} [DecidableEq V] [DecidableEq E] (c : Controls K V E)

/-- The VHDL value of the key at place `i` of a field. -/
def Controls.cell (v : List (Option V)) (i : ℕ) (k : K) : E :=
  match v[i]?.join with
  | some x => c.value k x
  | none => c.zeroVal k

variable {c} {vals : List (List (Option V))} {enc : Encoding K V} {i : ℕ} {k : K}
  {v : List (Option V)}

theorem mem_branches {branch : E × List (List Bool)} :
    branch ∈ branches c enc i k ↔ branch.1 ≠ c.zeroVal k ∧
      ∃ x, c.falsy x = false ∧ (∃ p ∈ enc.encoding, p.1[i]?.join = some x) ∧
        branch = (c.value k x, (enc.encoding.filter fun p => p.1[i]?.join == some x).map Prod.snd) := by
  simp only [branches, valMap, List.mem_filter, List.mem_map, bne_iff_ne, List.mem_eraseDups,
    List.mem_filterMap, Option.filter_eq_some_iff, Bool.not_eq_true', and_comm (b := _ ≠ _)]
  constructor
  · rintro ⟨hne, _, ⟨x, ⟨p, hp, hx, hfalsy⟩, rfl⟩, rfl⟩
    exact ⟨hne, x, hfalsy, ⟨p, hp, hx⟩, rfl⟩
  · rintro ⟨hne, x, hfalsy, ⟨p, hp, hx⟩, rfl⟩
    exact ⟨hne, _, ⟨x, ⟨p, hp, hx, hfalsy⟩, rfl⟩, rfl⟩

/-- The code of a value selects what the value has for the key. -/
theorem selectAssign_branches (hv : v ∈ vals) (henc : enc.encoding = encodingOf vals) :
    selectAssign (codeOf vals v) (branches c enc i k) (c.zeroVal k) = c.cell v i k := by
  -- a branch that the code selects is that of the value
  have hselected : ∀ branch ∈ branches c enc i k, branch.2.contains (codeOf vals v) = true →
      branch.1 = c.cell v i k := by
    intro branch hbranch hcode
    obtain ⟨-, x, -, -, rfl⟩ := mem_branches.mp hbranch
    rw [List.contains_iff_mem, List.mem_map] at hcode
    obtain ⟨⟨v', code⟩, hmem, rfl⟩ := hcode
    rw [List.mem_filter, henc] at hmem
    obtain rfl := eq_of_codeOf_mem hmem.1
    have hx : v'[i]?.join = some x := by simpa using hmem.2
    simp only [Controls.cell, hx]
  rw [selectAssign]
  rcases hfind : (branches c enc i k).find? fun branch => branch.2.contains (codeOf vals v)
    with _ | branch
  · -- with no branch for it the value is zero
    have hnone := List.find?_eq_none.mp hfind
    rw [hfind, Option.map_none, Option.getD_none]
    by_contra hne
    rcases hx : v[i]?.join with _ | x
    · exact hne (by simp only [Controls.cell, hx])
    · have hcell : c.cell v i k = c.value k x := by simp only [Controls.cell, hx]
      rw [hcell] at hne
      have hfalsy : c.falsy x = false :=
        Bool.eq_false_iff.mpr fun h => hne (c.value_of_falsy k x h).symm
      have hmem := codeOf_mem hv
      rw [← henc] at hmem
      refine hnone (c.value k x, _) (mem_branches.mpr ⟨fun h => hne h.symm, x, hfalsy,
        ⟨_, hmem, hx⟩, rfl⟩) ?_
      rw [List.contains_iff_mem, List.mem_map]
      exact ⟨_, List.mem_filter.mpr ⟨hmem, by simpa using hx⟩, rfl⟩
  · rw [hfind, Option.map_some, Option.getD_some]
    exact hselected branch (List.mem_of_find?_eq_some hfind)
      (List.find?_some (p := fun branch : E × List (List Bool) => branch.2.contains (codeOf vals v)) hfind)

end Decoder

/-! ### The fields of the line -/

section Lines

variable {K V : Type*} [DecidableEq K] [DecidableEq V] {le : K → K → Bool}
  {combines : List (List K)} {nillable : K → Bool} {slots : List (Slot K V)}

/-- A field is right for its keys. -/
structure FieldOf (nillable : K → Bool) (slots : List (Slot K V)) (enc : Encoding K V) : Prop where
  encoding : enc.encoding = encodingOf (possibleVals nillable slots enc.keys)
  width : enc.encodeWidth = log2 (possibleVals nillable slots enc.keys).length
  right : enc.right = enc.left - enc.encodeWidth + 1

theorem fieldOf_placeFields {sets : List (List K)} {i : ℤ} {enc : Encoding K V}
    (h : enc ∈ placeFields nillable slots i sets) :
    FieldOf nillable slots enc ∧ enc.keys ∈ sets := by
  induction sets generalizing i with
  | nil => simp [placeFields] at h
  | cons keys sets ih =>
    rw [placeFields, List.mem_cons] at h
    rcases h with rfl | h
    · exact ⟨⟨rfl, rfl, rfl⟩, List.mem_cons_self⟩
    · exact ⟨(ih h).1, List.mem_cons_of_mem _ (ih h).2⟩

theorem keys_placeFields (nillable : K → Bool) (slots : List (Slot K V)) (sets : List (List K))
    (i : ℤ) : (placeFields nillable slots i sets).map Encoding.keys = sets := by
  induction sets generalizing i with
  | nil => rfl
  | cons keys sets ih => rw [placeFields, List.map_cons, ih]

/-- The fields lie below bit `i`, each below the ones before. -/
theorem pairwise_placeFields (nillable : K → Bool) (slots : List (Slot K V)) (sets : List (List K))
    (i : ℤ) : (placeFields nillable slots i sets).Pairwise (fun a b => b.left < a.right) ∧
      ∀ enc ∈ placeFields nillable slots i sets, enc.left ≤ i ∧
        i - ((sets.map fun keys => log2 (possibleVals nillable slots keys).length).sum : ℕ) <
          enc.right := by
  induction sets generalizing i with
  | nil => simp [placeFields]
  | cons keys sets ih =>
    obtain ⟨hpair, hbound⟩ := ih (i - log2 (possibleVals nillable slots keys).length)
    rw [placeFields, List.map_cons, List.sum_cons]
    refine ⟨List.pairwise_cons.mpr ⟨fun enc henc => ?_, hpair⟩, fun enc henc => ?_⟩
    · have := (hbound enc henc).1
      show enc.left < i - _ + 1
      omega
    · rcases List.mem_cons.mp henc with rfl | henc
      · show i ≤ i ∧ _ < i - _ + 1
        omega
      · have := hbound enc henc
        omega

/-- A field's part of a line that has the codes of the fields in place. -/
theorem slice_placeFields {width : ℕ} {sets : List (List K)} {i : ℤ} {slot : Slot K V}
    {pre : List Bool} {enc : Encoding K V} (hpre : (pre.length : ℤ) = width - 1 - i)
    (hcode : ∀ enc ∈ placeFields nillable slots i sets, (enc.code slot).length = enc.encodeWidth)
    (h : enc ∈ placeFields nillable slots i sets) :
    ∃ before after,
      pre ++ (placeFields nillable slots i sets).flatMap (fun enc => enc.code slot) =
        before ++ (enc.code slot ++ after) ∧ (before.length : ℤ) = width - 1 - enc.left := by
  induction sets generalizing i pre with
  | nil => simp [placeFields] at h
  | cons keys sets ih =>
    rw [placeFields] at h hcode ⊢
    rw [List.flatMap_cons]
    rcases List.mem_cons.mp h with rfl | h
    · exact ⟨pre, _, rfl, hpre⟩
    · rw [← List.append_assoc]
      refine ih ?_ (fun enc henc => hcode enc (List.mem_cons_of_mem _ henc)) h
      have hlen : _ = log2 (possibleVals nillable slots keys).length :=
        hcode _ List.mem_cons_self
      rw [List.length_append, hlen]
      omega

/-! ### Lines -/

/-- No field has exactly one value. -/
def NoSingleValue (le : K → K → Bool) (combines : List (List K)) (nillable : K → Bool)
    (slots : List (Slot K V)) : Prop :=
  ∀ keys ∈ keySets le combines slots, (possibleVals nillable slots keys).length ≠ 1

instance : Decidable (NoSingleValue le combines nillable slots) :=
  inferInstanceAs (Decidable (∀ keys ∈ keySets le combines slots, _))

theorem mem_keySets {enc : Encoding K V} (h : enc ∈ createEncoding le combines nillable slots) :
    FieldOf nillable slots enc ∧ enc.keys ∈ keySets le combines slots := fieldOf_placeFields h

theorem FieldOf.code {enc : Encoding K V} (h : FieldOf nillable slots enc) (slot : Slot K V) :
    enc.code slot =
      if keyFn enc.keys slot ∈ possibleVals nillable slots enc.keys then
        codeOf (possibleVals nillable slots enc.keys) (keyFn enc.keys slot)
      else List.replicate (log2 (possibleVals nillable slots enc.keys).length) false := by
  rw [Encoding.code, h.encoding, lookup_encodingOf, h.width]
  split_ifs <;> rfl

theorem FieldOf.length_code {enc : Encoding K V} (h : FieldOf nillable slots enc)
    (hcount : (possibleVals nillable slots enc.keys).length ≠ 1) (slot : Slot K V) :
    (enc.code slot).length = enc.encodeWidth := by
  rw [h.code, h.width]
  split_ifs with hmem
  · exact length_codeOf hcount hmem
  · exact List.length_replicate

section Round

variable (hsingle : NoSingleValue le combines nillable slots)
include hsingle

theorem length_code {enc : Encoding K V} (h : enc ∈ createEncoding le combines nillable slots)
    (slot : Slot K V) : (enc.code slot).length = enc.encodeWidth :=
  (mem_keySets h).1.length_code (hsingle _ (mem_keySets h).2) slot

theorem length_encodeString (slot : Slot K V) :
    (encodeString le combines nillable slots slot).length =
      fullWidth le combines nillable slots := by
  have hwidths : (createEncoding le combines nillable slots).map (fun enc => (enc.code slot).length) =
      (keySets le combines slots).map fun keys => log2 (possibleVals nillable slots keys).length := by
    rw [← keys_placeFields nillable slots (keySets le combines slots)
      (fullWidth le combines nillable slots - 1), List.map_map]
    refine List.map_congr_left fun enc henc => ?_
    rw [length_code hsingle henc, (mem_keySets henc).1.width]
    rfl
  rw [encodeString, List.length_flatMap, hwidths, fullWidth]

/-- Whether or not it is written with hexadecimal digits, the line is the string. -/
theorem encodeLine_eq (slot : Slot K V) :
    encodeLine le combines nillable slots slot = encodeString le combines nillable slots slot := by
  rw [encodeLine]
  split_ifs with hdigits
  · rw [length_encodeString hsingle, Nat.div_mul_cancel (Nat.dvd_of_mod_eq_zero hdigits)]
    exact List.take_of_length_le (Nat.le_of_eq (length_encodeString hsingle slot))
  · rfl

/-- Where a field's code stands in the line. -/
theorem exists_encodeLine_eq {enc : Encoding K V}
    (h : enc ∈ createEncoding le combines nillable slots) (slot : Slot K V) :
    ∃ before after, encodeLine le combines nillable slots slot =
      before ++ (enc.code slot ++ after) ∧
      (before.length : ℤ) = fullWidth le combines nillable slots - 1 - enc.left := by
  have hstart : (([] : List Bool).length : ℤ) = fullWidth le combines nillable slots - 1 -
      (fullWidth le combines nillable slots - 1) := by simp
  obtain ⟨before, after, heq, hlen⟩ :=
    slice_placeFields hstart (fun enc henc => length_code hsingle henc slot) h
  exact ⟨before, after, by rw [encodeLine_eq hsingle]; exact heq, hlen⟩

theorem slice_encodeLine {enc : Encoding K V}
    (h : enc ∈ createEncoding le combines nillable slots) (slot : Slot K V) :
    slice (fullWidth le combines nillable slots) (encodeLine le combines nillable slots slot)
      enc.left enc.right = enc.code slot := by
  obtain ⟨before, after, heq, hlen⟩ := exists_encodeLine_eq hsingle h slot
  have hwidth := (mem_keySets h).1.right
  rw [slice, heq, ← hlen, Int.toNat_natCast, List.drop_left,
    show (enc.left - enc.right + 1).toNat = (enc.code slot).length by
      rw [length_code hsingle h]; omega, List.take_left]

theorem element_encodeLine {enc : Encoding K V}
    (h : enc ∈ createEncoding le combines nillable slots) (hone : enc.encodeWidth = 1)
    (slot : Slot K V) :
    enc.code slot = [element (fullWidth le combines nillable slots)
      (encodeLine le combines nillable slots slot) enc.left] := by
  obtain ⟨before, after, heq, hlen⟩ := exists_encodeLine_eq hsingle h slot
  obtain ⟨b, hb⟩ := List.length_eq_one_iff.mp ((length_code hsingle h slot).trans hone)
  rw [element, heq, ← hlen, Int.toNat_natCast, hb]
  simp

end Round

/-! ### The round trip -/

/-- The slot leaves out a nillable key with a field of its own. -/
def LeftOut (nillable : K → Bool) (keys : List K) (slot : Slot K V) : Prop :=
  ∃ k, keys = [k] ∧ nillable k = true ∧ slot.get k = none

/-- The values of any other slot have a code. -/
theorem keyFn_mem {keys : List K} {slot : Slot K V} (h : slot ∈ slots)
    (hnot : ¬LeftOut nillable keys slot) : keyFn keys slot ∈ possibleVals nillable slots keys := by
  have hmem : keyFn keys slot ∈ (slots.map (keyFn keys)).eraseDups :=
    List.mem_eraseDups.mpr (List.mem_map_of_mem h)
  match keys with
  | [] => exact hmem
  | _ :: _ :: _ => exact hmem
  | [k] =>
    rw [possibleVals]
    split_ifs with hk
    · refine List.mem_filter.mpr ⟨hmem, bne_iff_ne.mpr fun h => hnot ⟨k, rfl, hk, ?_⟩⟩
      exact List.head_eq_of_cons_eq h
    · exact hmem

theorem keyFn_not_mem {keys : List K} {slot : Slot K V} (h : LeftOut nillable keys slot) :
    keyFn keys slot ∉ possibleVals nillable slots keys := by
  obtain ⟨k, rfl, hk, hnone⟩ := h
  simp [possibleVals, hk, keyFn, hnone]

section Decode

variable {E : Type*} {c : Controls K V E}

omit [DecidableEq V] in
theorem cell_keyFn {keys : List K} {i : ℕ} {k : K} (hk : keys[i]? = some k) (slot : Slot K V) :
    c.cell (keyFn keys slot) i k = c.given slot k := by
  have hget : (keyFn keys slot)[i]?.join = slot.get k := by
    rw [keyFn, List.getElem?_map, hk]
    rfl
  cases h : slot.get k with
  | none => simp only [Controls.cell, Controls.given, hget, h]
  | some v => simp only [Controls.cell, Controls.given, hget, h]

/-- The decoder takes the one bit of the field for the signal. -/
def PassedThrough (c : Controls K V E) (enc : Encoding K V) (k : K) : Prop :=
  enc.encodeWidth = 1 ∧ c.stdLogic k = true

/-- The bit is the value that the key has. -/
def CodedByItself (c : Controls K V E) (enc : Encoding K V) (i : ℕ) (k : K) : Prop :=
  ∀ p ∈ enc.encoding, c.cell p.1 i k = c.bit (p.2.headD false)

theorem passedThrough_iff {enc : Encoding K V} (h : FieldOf nillable slots enc) {k : K} :
    enc.right - enc.left + 1 = 1 ∧ c.stdLogic k = true ↔ PassedThrough c enc k := by
  rw [PassedThrough, h.right]
  refine and_congr_left fun _ => ?_
  omega

variable [DecidableEq E]

/-- A field with the code of a value decodes to it. -/
theorem fieldDecoder_of_code (hsingle : NoSingleValue le combines nillable slots)
    {enc : Encoding K V} (h : enc ∈ createEncoding le combines nillable slots) {i : ℕ} {k : K}
    (hself : PassedThrough c enc k → CodedByItself c enc i k) {slot : Slot K V}
    {v : List (Option V)} (hv : v ∈ possibleVals nillable slots enc.keys)
    (hcode : enc.code slot = codeOf (possibleVals nillable slots enc.keys) v) :
    fieldDecoder c (fullWidth le combines nillable slots) enc i k
      (encodeLine le combines nillable slots slot) = c.cell v i k := by
  have hfield := (mem_keySets h).1
  rw [fieldDecoder]
  split_ifs with hbit
  · have hpass := (passedThrough_iff hfield).mp hbit
    have hmem := codeOf_mem hv
    rw [← hfield.encoding, ← hcode, element_encodeLine hsingle h hpass.1] at hmem
    exact (hself hpass _ hmem).symm
  · rw [slice_encodeLine hsingle h, hcode]
    exact selectAssign_branches hv hfield.encoding

/-- What a slot gives to a key is what the key's decoder makes of the slot's line. -/
theorem fieldDecoder_eq_given (hsingle : NoSingleValue le combines nillable slots)
    {enc : Encoding K V} (h : enc ∈ createEncoding le combines nillable slots) {i : ℕ} {k : K}
    (hk : enc.keys[i]? = some k) (hself : PassedThrough c enc k → CodedByItself c enc i k)
    {slot : Slot K V} (hslot : slot ∈ slots) (hnot : ¬LeftOut nillable enc.keys slot) :
    fieldDecoder c (fullWidth le combines nillable slots) enc i k
      (encodeLine le combines nillable slots slot) = c.given slot k := by
  have hv := keyFn_mem hslot hnot
  rw [fieldDecoder_of_code hsingle h hself hv (by rw [(mem_keySets h).1.code, if_pos hv]),
    cell_keyFn hk]

/-- A key left out decodes to its first value. -/
theorem fieldDecoder_of_leftOut (hsingle : NoSingleValue le combines nillable slots)
    {enc : Encoding K V} (h : enc ∈ createEncoding le combines nillable slots) {i : ℕ} {k : K}
    (hself : PassedThrough c enc k → CodedByItself c enc i k) {slot : Slot K V}
    (hout : LeftOut nillable enc.keys slot) {v : List (Option V)} {rest : List (List (Option V))}
    (hfirst : ordered (possibleVals nillable slots enc.keys) = v :: rest) :
    fieldDecoder c (fullWidth le combines nillable slots) enc i k
      (encodeLine le combines nillable slots slot) = c.cell v i k := by
  have hv : v ∈ possibleVals nillable slots enc.keys :=
    mem_ordered.mp (by rw [hfirst]; exact List.mem_cons_self)
  refine fieldDecoder_of_code hsingle h hself hv ?_
  rw [(mem_keySets h).1.code, if_neg (keyFn_not_mem hout),
    zeros_eq_codeOf (hsingle _ (mem_keySets h).2) hfirst]

end Decode

/-! ### One field for a key -/

omit [DecidableEq V] in
theorem nodup_keySets (hcombines : combines.flatten.Nodup) :
    (keySets le combines slots).flatten.Nodup := by
  rw [keySets, List.flatten_append, ← List.flatMap_def, List.flatMap_singleton']
  refine List.Nodup.append ?_ hcombines fun k hk hshared => ?_
  · exact ((List.perm_insertionSort _ _).nodup_iff.mpr (nodup_eraseDups _)).filter _
  · have hout := (List.mem_filter.mp hk).2
    rw [Bool.not_eq_true', List.contains_eq_mem, decide_eq_false_iff_not] at hout
    exact hout hshared

omit [DecidableEq V] in
theorem mem_keySets_of_slot {slot : Slot K V} (h : slot ∈ slots) {p : K × Option V} (hp : p ∈ slot) :
    p.1 ∈ (keySets le combines slots).flatten := by
  rw [keySets, List.flatten_append, ← List.flatMap_def, List.flatMap_singleton', List.mem_append]
  by_cases hshared : p.1 ∈ combines.flatten
  · exact .inr hshared
  · refine .inl (List.mem_filter.mpr ⟨?_, by simpa [List.contains_eq_mem] using hshared⟩)
    rw [List.mem_insertionSort, List.mem_eraseDups, List.mem_flatMap]
    exact ⟨slot, h, List.mem_map_of_mem hp⟩

end Lines

/-! ### The line of a table -/

section Table

variable {V E : Type*} [DecidableEq V] [DecidableEq E]

/-- What the generator promises about the lines of a table of slots. -/
structure RomLines (le : String → String → Bool) (combines : List (List String))
    (nillable : String → Bool) (slots : List (Slot String V)) (c : Controls String V E) : Prop where
  /-- the fields lie within the line -/
  inLine : ∀ enc ∈ createEncoding le combines nillable slots,
    0 ≤ enc.right ∧ enc.left < fullWidth le combines nillable slots
  /-- and apart from each other -/
  apart : (createEncoding le combines nillable slots).Pairwise fun a b => b.left < a.right
  /-- no key has two fields -/
  oneField : ((createEncoding le combines nillable slots).flatMap Encoding.keys).Nodup
  /-- and each has one -/
  hasField : ∀ slot ∈ slots, ∀ p ∈ slot,
    p.1 ∈ (createEncoding le combines nillable slots).flatMap Encoding.keys
  /-- the line of a slot has the width of the fields together -/
  width : NoSingleValue le combines nillable slots → ∀ slot ∈ slots,
    (encodeLine le combines nillable slots slot).length = fullWidth le combines nillable slots
  /-- and decodes to what the slot gives to the keys -/
  decode : NoSingleValue le combines nillable slots → ∀ slot ∈ slots,
    ∀ enc ∈ createEncoding le combines nillable slots, ∀ i k, enc.keys[i]? = some k →
    (PassedThrough c enc k → CodedByItself c enc i k) → ¬LeftOut nillable enc.keys slot →
    fieldDecoder c (fullWidth le combines nillable slots) enc i k
      (encodeLine le combines nillable slots slot) = c.given slot k
  /-- where it does not matter, to what comes first -/
  dontCare : NoSingleValue le combines nillable slots → ∀ slot ∈ slots,
    ∀ enc ∈ createEncoding le combines nillable slots, ∀ i k, enc.keys[i]? = some k →
    (PassedThrough c enc k → CodedByItself c enc i k) → LeftOut nillable enc.keys slot →
    ∀ v rest, ordered (possibleVals nillable slots enc.keys) = v :: rest →
      fieldDecoder c (fullWidth le combines nillable slots) enc i k
        (encodeLine le combines nillable slots slot) = c.cell v i k

/-- No two of the combinable sets share a key. -/
theorem nodup_combinableSignals {romWidth : ℕ} {combines : List (List String)}
    (h : combinableSignals romWidth = some combines) : combines.flatten.Nodup := by
  unfold combinableSignals at h
  split at h
  · obtain rfl := Option.some.inj h
    decide
  · obtain rfl := Option.some.inj h
    decide
  · exact absurd h (Option.some_ne_none _).symm

/-- The lines of any table of slots, for both widths of the ROM. -/
theorem rom_lines_round_trip {romWidth : ℕ} {combines : List (List String)}
    (hrom : combinableSignals romWidth = some combines) (le : String → String → Bool)
    (nillable : String → Bool) (slots : List (Slot String V)) (c : Controls String V E) :
    RomLines le combines nillable slots c := by
  have hkeys : (createEncoding le combines nillable slots).flatMap Encoding.keys =
      (keySets le combines slots).flatten := by
    rw [List.flatMap_def, createEncoding, keys_placeFields]
  obtain ⟨hpair, hbound⟩ := pairwise_placeFields nillable slots (keySets le combines slots)
    (fullWidth le combines nillable slots - 1)
  refine ⟨fun enc henc => ?_, hpair, ?_, fun slot hslot p hp => ?_,
    fun hsingle slot _ => ?_, fun hsingle slot hslot enc henc i k hk hself hnot => ?_,
    fun hsingle slot _ enc henc i k _ hself hout v rest hfirst => ?_⟩
  · have := hbound enc henc
    rw [← fullWidth] at this
    omega
  · rw [hkeys]
    exact nodup_keySets (nodup_combinableSignals hrom)
  · rw [hkeys]
    exact mem_keySets_of_slot hslot hp
  · rw [encodeLine_eq hsingle, length_encodeString hsingle]
  · exact fieldDecoder_eq_given hsingle henc hk hself hslot hnot
  · exact fieldDecoder_of_leftOut hsingle henc hself hout hfirst

end Table

/-! ### Two tables -/

/-- Signals that are numbers, one of them a single bit. -/
def numbers : Controls String ℕ ℕ where
  stdLogic k := k == "if-issue"
  zeroVal _ := 0
  value _ v := v
  bit b := b.toNat
  falsy _ := false
  zeroVal_of_stdLogic _ _ := rfl
  value_of_falsy _ _ h := absurd h Bool.false_ne_true

/-- Keys with fields of their own stay as they stand in the slots. -/
def anyOrder (_ _ : String) : Bool := true

/-- A slot with a value for every field and one that leaves most of them out. -/
def twoSlots : List (Slot String ℕ) :=
  [[("zbus-sel", some 3), ("alumanip", some 1), ("sr-sel", some 2), ("regnum-y", some 15),
      ("ma-issue", some 1), ("ex-macsel1", some 1), ("wb-macsel2", some 2), ("wrpc-z", some 1),
      ("if-issue", some 1)],
    [("zbus-sel", some 5), ("shiftfunc", some 2)]]

/-- The bit of the signal that is a single bit is taken as it stands. -/
theorem rom_lines_round_trip_twoSlots : ∃ combines, combinableSignals 72 = some combines ∧
    NoSingleValue anyOrder combines (fun k => k == "zbus-sel") twoSlots ∧
    (∃ enc ∈ createEncoding anyOrder combines (fun k => k == "zbus-sel") twoSlots,
      enc.keys = ["if-issue"] ∧ PassedThrough numbers enc "if-issue" ∧
        CodedByItself numbers enc 0 "if-issue") ∧
    RomLines anyOrder combines (fun k => k == "zbus-sel") twoSlots numbers := by
  have lines := rom_lines_round_trip (show combinableSignals 72 = _ from rfl) anyOrder
    (fun k => k == "zbus-sel") twoSlots numbers
  refine ⟨_, rfl, by decide +kernel, ?_, lines⟩
  simp only [PassedThrough, CodedByItself]
  decide +kernel

/-- A slot for each of two keys that share a field. -/
def sharedSlots : List (Slot String ℕ) := [[("alumanip", some 1)], [("shiftfunc", some 1)]]

/-- The keys of a combinable set have one range of bits, so not all keys have ranges
apart from each other. -/
theorem shared_ranges : ¬∀ (combines : List (List String)), combinableSignals 72 = some combines →
    ∀ (le : String → String → Bool) (nillable : String → Bool) (slots : List (Slot String ℕ))
      (c : Controls String ℕ ℕ),
      (∀ s ∈ slots, ∀ s' ∈ slots, (encodeLine le combines nillable slots s).length =
        (encodeLine le combines nillable slots s').length) ∧
      (∀ slot ∈ slots, ∀ enc ∈ createEncoding le combines nillable slots, ∀ i k,
        enc.keys[i]? = some k → fieldDecoder c (fullWidth le combines nillable slots) enc i k
          (encodeLine le combines nillable slots slot) = c.given slot k) ∧
      ∀ enc ∈ createEncoding le combines nillable slots,
        ∀ enc' ∈ createEncoding le combines nillable slots, ∀ k ∈ enc.keys, ∀ k' ∈ enc'.keys,
        k ≠ k' → enc.left < enc'.right ∨ enc'.left < enc.right := by
  intro h
  obtain ⟨-, -, hapart⟩ := h _ rfl anyOrder (fun _ => false) sharedSlots numbers
  revert hapart
  decide +kernel

end Gen

end JCore
