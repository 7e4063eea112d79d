import JCore.Isa.Memory
import JCore.Lib.Region

/-!
# Hex digits and regions

The conversions of the GDB stub: hex digits, numbers, and the regions of the memory that
it reads and writes. A region is accessed in the largest units that are aligned, for the
sake of peripheral registers; the bytes are nevertheless those of the region, in order.

## Main definitions

* `hexToInt`, `lnibbleToHex`, `hargsParseLong`: digits and numbers
* `accesses`: the units of a region
* `memToHexbuf`, `hexbufToMem`, `xmemToMem`: regions as text

## Main results

* `memToHexbuf_eq`: the text is that of the bytes of the region
* `bufToMem_eq`: the bytes of the text are laid over the region
-/

namespace JCore.Gdb

open Sim

/-! ### Digits -/

/-- The code of a character. -/
def chr (c : Char) : BitVec 8 := BitVec.ofNat 8 c.toNat

def hexToInt (h : BitVec 8) : BitVec 32 :=
  if chr 'a' ≤ h ∧ h ≤ chr 'f' then (h - chr 'a' + 10).setWidth 32
  else if chr '0' ≤ h ∧ h ≤ chr '9' then (h - chr '0').setWidth 32
  else if chr 'A' ≤ h ∧ h ≤ chr 'F' then (h - chr 'A' + 10).setWidth 32
  else 0

def lnibbleToHexTable : List (BitVec 8) :=
  ['0', '1', '2', '3', '4', '5', '6', '7', '8', '9', 'a', 'b', 'c', 'd', 'e', 'f'].map chr

def lnibbleToHex (i : BitVec 8) : BitVec 8 := lnibbleToHexTable.getD (i &&& 0xf).toNat 0

/-- `hargs_parse_long`: the number before a delimiter, and what is behind it. `none` is a
buffer without the delimiter. -/
def hargsParseLong (delim : BitVec 8) :
    List (BitVec 8) → BitVec 32 → Option (BitVec 32 × List (BitVec 8))
  | [], _ => none
  | c :: hargs, l =>
    if c = delim then some (l, hargs) else hargsParseLong delim hargs ((l <<< 4) + hexToInt c)

/-- The two digits of a byte. -/
def byteToHex (x : BitVec 8) : List (BitVec 8) := [lnibbleToHex (x.sshiftRight 4), lnibbleToHex x]

/-- The byte of two digits. -/
def hexToByte (hi lo : BitVec 8) : BitVec 8 :=
  (hexToInt hi <<< 4).setWidth 8 + (hexToInt lo).setWidth 8

theorem hexToByte_byteToHex (x : BitVec 8) :
    hexToByte (lnibbleToHex (x.sshiftRight 4)) (lnibbleToHex x) = x := by
  have all : ∀ x : BitVec 8, hexToByte (lnibbleToHex (x.sshiftRight 4)) (lnibbleToHex x) = x := by
    decide +kernel
  exact all x

/-! ### Units -/

/-- `is_aligned_long` and `is_aligned_short`. -/
def isAligned (size : MemSize) (a : BitVec 32) (len : ℕ) : Bool :=
  decide (sizeBytes size ≤ len) && a.toNat % sizeBytes size == 0

/-- The unit that comes next. -/
def unit (a : BitVec 32) (len : ℕ) : MemSize :=
  if isAligned .long a len then .long else if isAligned .word a len then .word else .byte

/-- The units of a region of `len` bytes; `fuel` bounds their number. -/
def accessesFrom : ℕ → BitVec 32 → ℕ → List (MemSize × BitVec 32)
  | 0, _, _ => []
  | _, _, 0 => []
  | fuel + 1, a, len =>
    (unit a len, a) ::
      accessesFrom fuel (a + BitVec.ofNat 32 (sizeBytes (unit a len))) (len - sizeBytes (unit a len))

def accesses (a : BitVec 32) (len : ℕ) : List (MemSize × BitVec 32) := accessesFrom len a len

/-- The bytes of the union `lcbuf` behind a load. -/
def lcbuf (mem : ByteMemory) (size : MemSize) (a : BitVec 32) : List (BitVec 8) :=
  (List.range (sizeBytes size)).map (bigEndian (loadAt mem size a) (sizeBytes size))

def memToHexbuf (mem : ByteMemory) (a : BitVec 32) (len : ℕ) : List (BitVec 8) :=
  (accesses a len).flatMap fun access => (lcbuf mem access.1 access.2).flatMap byteToHex

/-- The number in the union behind its bytes. -/
def ofBytes (bytes : List (BitVec 8)) : BitVec 32 :=
  bytes.foldl (fun x b => (x <<< 8) ||| b.setWidth 32) 0

/-- How a buffer spells a byte: the byte, and what is behind it. -/
abbrev Spelling := List (BitVec 8) → Option (BitVec 8 × List (BitVec 8))

/-- The next `n` bytes of a buffer. -/
def takeBytes (spelling : Spelling) :
    ℕ → List (BitVec 8) → Option (List (BitVec 8) × List (BitVec 8))
  | 0, buf => some ([], buf)
  | n + 1, buf =>
    (spelling buf).bind fun next =>
      (takeBytes spelling n next.2).map fun taken => (next.1 :: taken.1, taken.2)

/-- Each unit is filled from the buffer and stored. -/
def bufToMem (spelling : Spelling) :
    List (MemSize × BitVec 32) → List (BitVec 8) → ByteMemory → Option ByteMemory
  | [], _, mem => some mem
  | (size, a) :: rest, buf, mem =>
    (takeBytes spelling (sizeBytes size) buf).bind fun taken =>
      bufToMem spelling rest taken.2 (storeAt mem size a (ofBytes taken.1))

/-- Two hex digits. -/
def hexSpelling : Spelling
  | hi :: lo :: buf => some (hexToByte hi lo, buf)
  | _ => none

/-- The byte behind a mark, which has one bit changed. -/
def escaped : Spelling
  | [] => none
  | y :: xbin => some (y ^^^ 0x20, xbin)

/-- `xbin_to_bin`. -/
def xbinToBin : Spelling
  | [] => none
  | x :: xbin => if x = 0x7d then escaped xbin else some (x, xbin)

def hexbufToMem (hbuf : List (BitVec 8)) (a : BitVec 32) (len : ℕ) :
    ByteMemory → Option ByteMemory :=
  bufToMem hexSpelling (accesses a len) hbuf

def xmemToMem (xmem : List (BitVec 8)) (a : BitVec 32) (len : ℕ) :
    ByteMemory → Option ByteMemory :=
  bufToMem xbinToBin (accesses a len) xmem

/-! ### The bytes of a unit -/

theorem sizeBytes_pos (size : MemSize) : 0 < sizeBytes size := by
  cases size <;> decide

theorem unit_fits (a : BitVec 32) {len : ℕ} (pos : 0 < len) :
    sizeBytes (unit a len) ≤ len ∧ a.toNat % sizeBytes (unit a len) = 0 := by
  unfold unit
  split_ifs with long word
  · rw [isAligned, Bool.and_eq_true, decide_eq_true_eq, beq_iff_eq] at long
    exact long
  · rw [isAligned, Bool.and_eq_true, decide_eq_true_eq, beq_iff_eq] at word
    exact word
  · exact ⟨pos, Nat.mod_one _⟩

theorem alignTo_of_aligned (size : MemSize) {a : BitVec 32} (h : a.toNat % sizeBytes size = 0) :
    alignTo size a = a := by
  apply BitVec.eq_of_toNat_eq
  rw [toNat_alignTo]
  exact Nat.div_mul_cancel (Nat.dvd_of_mod_eq_zero h)

/-- The sign does not change the low bytes. -/
theorem extractLsb'_signExtend {v : ℕ} (x : BitVec v) {start : ℕ} (low : start + 8 ≤ v)
    (wide : v ≤ 32) : (x.signExtend 32).extractLsb' start 8 = x.extractLsb' start 8 := by
  apply BitVec.eq_of_getLsbD_eq
  intro i hi
  have inside : start + i < v := by omega
  rw [BitVec.getLsbD_extractLsb', BitVec.getLsbD_extractLsb', BitVec.getLsbD_signExtend,
    if_pos inside, decide_eq_true (lt_of_lt_of_le inside wide), Bool.true_and]

/-- An aligned unit holds its bytes in order. -/
theorem lcbuf_eq (mem : ByteMemory) (size : MemSize) {a : BitVec 32}
    (h : a.toNat % sizeBytes size = 0) : lcbuf mem size a = region mem a (sizeBytes size) := by
  rw [lcbuf, loadAt, alignTo_of_aligned size h, region]
  refine List.map_congr_left fun k hk => ?_
  rw [List.mem_range] at hk
  have zero : a + BitVec.ofNat 32 0 = a := BitVec.add_zero a
  cases size with
  | byte =>
    obtain rfl := Nat.lt_one_iff.mp hk
    rw [zero, flatLoad, sizeBytes, bigEndian, extractLsb'_signExtend _ (by decide) (by decide)]
    exact BitVec.extractLsb'_eq_self
  | word =>
    rw [sizeBytes] at hk
    rw [flatLoad, sizeBytes, bigEndian, extractLsb'_signExtend _ (by omega) (by decide)]
    apply BitVec.eq_of_getLsbD_eq
    intro i hi
    interval_cases k <;> interval_cases i <;>
      simp only [BitVec.getLsbD_extractLsb', BitVec.getLsbD_append] <;> simp
  | long => exact byte_of_long mem a hk

/-- The low bytes of a number that was put together from them. -/
theorem bigEndian_ofBytes (size : MemSize) {bytes : List (BitVec 8)}
    (len : bytes.length = sizeBytes size) :
    (List.range (sizeBytes size)).map (bigEndian (ofBytes bytes) (sizeBytes size)) = bytes := by
  apply List.ext_getElem
  · rw [List.length_map, List.length_range, len]
  intro k hk hk'
  rw [List.getElem_map, List.getElem_range]
  cases size with
  | byte =>
    obtain ⟨b, rfl⟩ := List.length_eq_one_iff.mp len
    obtain rfl := Nat.lt_one_iff.mp hk'
    apply BitVec.eq_of_getLsbD_eq
    intro i hi
    interval_cases i <;> simp [bigEndian, ofBytes, sizeBytes]
  | word =>
    obtain ⟨b, c, rfl⟩ := List.length_eq_two.mp len
    have small : k < 2 := hk'
    apply BitVec.eq_of_getLsbD_eq
    intro i hi
    interval_cases k <;> interval_cases i <;> simp [bigEndian, ofBytes, sizeBytes]
  | long =>
    obtain ⟨b, c, d, e, rfl⟩ := List.length_eq_four.mp len
    have small : k < 4 := hk'
    apply BitVec.eq_of_getLsbD_eq
    intro i hi
    interval_cases k <;> interval_cases i <;> simp [bigEndian, ofBytes, sizeBytes]

/-- A store of an aligned unit lays its bytes over the memory. -/
theorem storeAt_ofBytes (mem : ByteMemory) (size : MemSize) {a : BitVec 32} {bytes : List (BitVec 8)}
    (h : a.toNat % sizeBytes size = 0) (len : bytes.length = sizeBytes size) :
    storeAt mem size a (ofBytes bytes) = storeRegion mem a bytes := by
  rw [storeAt, alignTo_of_aligned size h, flatStore, storeBytes_eq_storeRegion,
    bigEndian_ofBytes size len]

/-! ### Regions -/

theorem accessesFrom_eq {fuel : ℕ} (a : BitVec 32) {len : ℕ} (pos : 0 < len) :
    accessesFrom (fuel + 1) a len = (unit a len, a) ::
      accessesFrom fuel (a + BitVec.ofNat 32 (sizeBytes (unit a len)))
        (len - sizeBytes (unit a len)) := by
  cases len with
  | zero => exact absurd pos (lt_irrefl 0)
  | succ len => rfl

/-- Reading a region unit by unit gives its bytes. -/
theorem flatMap_accessesFrom {β : Type} (mem : ByteMemory) (f : BitVec 8 → List β) {fuel : ℕ}
    (a : BitVec 32) {len : ℕ} (enough : len ≤ fuel) :
    ((accessesFrom fuel a len).flatMap fun access => (lcbuf mem access.1 access.2).flatMap f) =
      (region mem a len).flatMap f := by
  induction fuel generalizing a len with
  | zero =>
    obtain rfl := Nat.le_zero.mp enough
    rfl
  | succ fuel ih =>
    rcases Nat.eq_zero_or_pos len with rfl | pos
    · rfl
    obtain ⟨fits, aligned⟩ := unit_fits a pos
    have some := sizeBytes_pos (unit a len)
    rw [accessesFrom_eq a pos, List.flatMap_cons, ih _ (by omega), lcbuf_eq mem _ aligned,
      ← List.flatMap_append, ← region_add, Nat.add_sub_cancel' fits]

theorem memToHexbuf_eq (mem : ByteMemory) (a : BitVec 32) (len : ℕ) :
    memToHexbuf mem a len = (region mem a len).flatMap byteToHex :=
  flatMap_accessesFrom mem byteToHex a le_rfl

theorem takeBytes_succ {spelling : Spelling} {n : ℕ} {buf bytes rest : List (BitVec 8)} :
    takeBytes spelling (n + 1) buf = some (bytes, rest) ↔
      ∃ b after tail, spelling buf = some (b, after) ∧
        takeBytes spelling n after = some (tail, rest) ∧ b :: tail = bytes := by
  rw [takeBytes, Option.bind_eq_some_iff]
  constructor
  · rintro ⟨next, spelt, h⟩
    rw [Option.map_eq_some_iff] at h
    obtain ⟨taken, h, same⟩ := h
    obtain ⟨rfl, rfl⟩ := Prod.mk.inj same
    exact ⟨next.1, next.2, taken.1, spelt, h, rfl⟩
  · rintro ⟨b, after, tail, spelt, h, rfl⟩
    refine ⟨(b, after), spelt, ?_⟩
    rw [h]
    rfl

theorem takeBytes_length {spelling : Spelling} {n : ℕ} {buf bytes rest : List (BitVec 8)}
    (h : takeBytes spelling n buf = some (bytes, rest)) : bytes.length = n := by
  induction n generalizing buf bytes with
  | zero =>
    obtain ⟨rfl, -⟩ := Prod.mk.inj (Option.some.inj h)
    rfl
  | succ n ih =>
    obtain ⟨b, after, tail, -, later, rfl⟩ := takeBytes_succ.mp h
    rw [List.length_cons, ih later]

/-- Bytes are taken in two parts. -/
theorem takeBytes_add {spelling : Spelling} {m n : ℕ} {buf bytes rest : List (BitVec 8)}
    (h : takeBytes spelling (m + n) buf = some (bytes, rest)) :
    ∃ first between second, takeBytes spelling m buf = some (first, between) ∧
      takeBytes spelling n between = some (second, rest) ∧ bytes = first ++ second := by
  induction m generalizing buf bytes with
  | zero =>
    rw [Nat.zero_add] at h
    exact ⟨[], buf, bytes, rfl, h, rfl⟩
  | succ m ih =>
    rw [Nat.succ_add] at h
    obtain ⟨b, after, tail, spelt, later, rfl⟩ := takeBytes_succ.mp h
    obtain ⟨first, between, second, left, right, rfl⟩ := ih later
    exact ⟨b :: first, between, second, takeBytes_succ.mpr ⟨b, after, first, spelt, left, rfl⟩,
      right, rfl⟩

/-- Writing a region unit by unit lays the bytes over it. -/
theorem bufToMem_accessesFrom (spelling : Spelling) {fuel : ℕ} (a : BitVec 32) {len : ℕ}
    (enough : len ≤ fuel) (small : len ≤ 2 ^ 32) {buf bytes rest : List (BitVec 8)}
    (mem : ByteMemory) (h : takeBytes spelling len buf = some (bytes, rest)) :
    bufToMem spelling (accessesFrom fuel a len) buf mem = some (storeRegion mem a bytes) := by
  induction fuel generalizing a len buf bytes mem with
  | zero =>
    obtain rfl := Nat.le_zero.mp enough
    obtain ⟨rfl, -⟩ := Prod.mk.inj (Option.some.inj h)
    rw [storeRegion_nil]
    rfl
  | succ fuel ih =>
    rcases Nat.eq_zero_or_pos len with rfl | pos
    · obtain ⟨rfl, -⟩ := Prod.mk.inj (Option.some.inj h)
      rw [storeRegion_nil]
      rfl
    obtain ⟨fits, aligned⟩ := unit_fits a pos
    have some := sizeBytes_pos (unit a len)
    rw [← Nat.add_sub_cancel' fits] at h
    obtain ⟨first, between, second, left, right, rfl⟩ := takeBytes_add h
    have firstLen := takeBytes_length left
    have secondLen := takeBytes_length right
    rw [accessesFrom_eq a pos, bufToMem, left, Option.bind_some,
      ih _ (by omega) (by omega) _ right, storeAt_ofBytes mem _ aligned firstLen, ← firstLen,
      storeRegion_append]
    omega

theorem bufToMem_eq (spelling : Spelling) (a : BitVec 32) {len : ℕ} (small : len ≤ 2 ^ 32)
    {buf bytes rest : List (BitVec 8)} (mem : ByteMemory)
    (h : takeBytes spelling len buf = some (bytes, rest)) :
    bufToMem spelling (accesses a len) buf mem = some (storeRegion mem a bytes) :=
  bufToMem_accessesFrom spelling a le_rfl small mem h

end JCore.Gdb
