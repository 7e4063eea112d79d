import JCore.Sim.MemBus
import Mathlib.Tactic.IntervalCases

/-!
# Byte lanes

The CPU's stores, loads and fetches over the simulator's bus, against a flat
memory of bytes in big-endian order. Three conventions meet: the replicated
write data with its byte enables, the decoding of enables and alignment by the
bus, and the lane that the recorded request selects on the way back.

## Main definitions

* `Access`: an access of the CPU, with the request it makes and the answer it takes
* `flat`: the bytes that the ranges of a bus hold, by address
* `Access.onFlat`: what the access does to a flat big-endian memory

## Main results

* `onBus_of_coherent`: one access, on any bus whose data signal is up to date
* `accesses_refine_flat`: every sequence of accesses
-/

namespace JCore.Sim

open BitVec

/-! ### The flat memory -/

/-- The number of bytes of an access. -/
def sizeBytes : MemSize → ℕ
  | .byte => 1
  | .word => 2
  | .long => 4

/-- The big-endian number at an address, extended by its sign. -/
def flatLoad (mem : BitVec 32 → BitVec 8) (size : MemSize) (addr : BitVec 32) : BitVec 32 :=
  match size with
  | .byte => (mem addr).signExtend 32
  | .word => (mem addr ++ mem (addr + 1)).signExtend 32
  | .long => mem addr ++ mem (addr + 1) ++ mem (addr + 2) ++ mem (addr + 3)

/-- The low bytes of a number, stored most significant byte first. -/
def flatStore (mem : BitVec 32 → BitVec 8) (size : MemSize) (addr data : BitVec 32) :
    BitVec 32 → BitVec 8 :=
  storeBytes mem addr (sizeBytes size) (bigEndian data (sizeBytes size))

/-! ### Accesses -/

/-- An access of the CPU. -/
inductive Access where
  | load (size : MemSize) (addr : BitVec 32)
  | store (size : MemSize) (addr data : BitVec 32)
  | fetch (addr : BitVec 31)
  deriving DecidableEq, Repr

/-- What the CPU takes from a finished access. -/
inductive Answer where
  | stored
  | loaded (value : BitVec 32)
  | fetched (value : BitVec 16)
  deriving DecidableEq, Repr

namespace Access

/-- The data control of a load or a store. -/
def memCtrl (wr : Bool) (size : MemSize) : MemCtrl :=
  { issue := true, wr := wr, lock := false, size := size, addrSel := .selXbus,
    wdataSel := .selYbus }

/-- A fetch on the instruction bus. -/
def instrO (addr : BitVec 31) : CpuInstructionO := { en := true, a := addr, jp := true }

/-- The request as the memory bus sees it. -/
def request (coproc : CoprocCtrl) : Access → CpuDataO
  | load size addr => Datapath.toDataO (memCtrl false size) coproc addr 0
  | store size addr data => Datapath.toDataO (memCtrl true size) coproc addr data
  | fetch addr => spliceDataO (instrO addr)

/-- What comes back for the data signal `d`. -/
def answer (coproc : CoprocCtrl) (d : BitVec 32) : Access → Answer
  | load size addr => .loaded (Datapath.alignReadData d (request coproc (load size addr)) size)
  | store _ _ _ => .stored
  | fetch addr => .fetched (spliceInstrI (instrO addr) { d := d, ack := true }).d

/-- The address of the first byte. -/
def addr : Access → BitVec 32
  | load _ addr => addr
  | store _ addr _ => addr
  | fetch addr => addr ++ 0#1

/-- The number of bytes. -/
def bytes : Access → ℕ
  | load size _ => sizeBytes size
  | store size _ _ => sizeBytes size
  | fetch _ => 2

/-- The address is a multiple of the size. -/
def Aligned (access : Access) : Prop := access.addr.toNat % access.bytes = 0

instance (access : Access) : Decidable access.Aligned := inferInstanceAs (Decidable (_ = _))

/-- The access lies in one of the mapped ranges. -/
def Mapped (ranges : List MemMap) (access : Access) : Prop :=
  ∃ index, ∀ k < access.bytes, findRange ranges (access.addr + BitVec.ofNat 32 k) = some index

/-- What the access does to a flat memory, and its answer. -/
def onFlat (mem : BitVec 32 → BitVec 8) : Access → (BitVec 32 → BitVec 8) × Answer
  | load size addr => (mem, .loaded (flatLoad mem size addr))
  | store size addr data => (flatStore mem size addr data, .stored)
  | fetch addr => (mem, .fetched (mem (addr ++ 0#1) ++ mem (addr ++ 0#1 + 1)))

end Access

/-! ### Sequences -/

/-- A sequence of accesses over the bus; `none` is a clock without a request. -/
def runBus (coproc : CoprocCtrl) :
    MemBus → List (Option Access) → Except BusError (MemBus × List Answer)
  | bus, [] => .ok (bus, [])
  | bus, none :: rest =>
    match readWriteCb bus nullDataO with
    | .error e => .error e
    | .ok bus => runBus coproc bus rest
  | bus, some access :: rest =>
    match readWriteCb bus (access.request coproc) with
    | .error e => .error e
    | .ok bus =>
      match runBus coproc bus rest with
      | .error e => .error e
      | .ok (last, answers) => .ok (last, access.answer coproc bus.dout :: answers)

/-- The same sequence on a flat memory. -/
def runFlat :
    (BitVec 32 → BitVec 8) → List (Option Access) → (BitVec 32 → BitVec 8) × List Answer
  | mem, [] => (mem, [])
  | mem, none :: rest => runFlat mem rest
  | mem, some access :: rest =>
    let (after, answer) := access.onFlat mem
    let (last, answers) := runFlat after rest
    (last, answer :: answers)

/-- The bytes of the ranges, by address. -/
def flat (ranges : List MemMap) (addr : BitVec 32) : BitVec 8 :=
  match (findRange ranges addr).bind (ranges[·]?) with
  | none => 0
  | some range => range.ptr (addr - range.start)

/-! ### One lane at a time -/

section Lanes

variable (addr : BitVec 32)

/-- The two low address bits, as the callback tests them. -/
theorem and_three : addr &&& 3#32 = (addr.extractLsb' 0 2).setWidth 32 := by
  apply BitVec.eq_of_getLsbD_eq
  intro i hi
  interval_cases i <;> simp

theorem lane_cases : addr.extractLsb' 0 2 = 0#2 ∨ addr.extractLsb' 0 2 = 1#2 ∨
    addr.extractLsb' 0 2 = 2#2 ∨ addr.extractLsb' 0 2 = 3#2 := by
  generalize addr.extractLsb' 0 2 = lane
  revert lane
  decide

theorem toNat_lane : (addr.extractLsb' 0 2).toNat = addr.toNat % 4 := by
  rw [extractLsb'_toNat, Nat.shiftRight_zero]

theorem getLsbD_lane : addr.getLsbD 1 = (addr.extractLsb' 0 2).getLsbD 1 := by
  simp

variable {addr} (ptr : BitVec 32 → BitVec 8) (offset : BitVec 32)

/-- What the bus puts on its data signal for a read. -/
def readData (addr : BitVec 32) : BitVec 32 :=
  readShift addr (mmapRead ptr offset (readNumBytes addr) 0)

theorem readData_zero (h : addr.extractLsb' 0 2 = 0#2) :
    readData ptr offset addr =
      ptr offset ++ ptr (offset + 1) ++ ptr (offset + 2) ++ ptr (offset + 3) := by
  have hand : addr &&& 3#32 = 0#32 := by rw [and_three, h]; rfl
  have hsum : offset + 1 + 1 = offset + 2 ∧ offset + 2 + 1 = offset + 3 := by
    constructor <;> rw [BitVec.add_assoc] <;> rfl
  simp only [readData, readShift, readNumBytes, hand, mmapRead, hsum.1, hsum.2]
  generalize ptr offset = b0
  generalize ptr (offset + 1) = b1
  generalize ptr (offset + 2) = b2
  generalize ptr (offset + 3) = b3
  apply BitVec.eq_of_getLsbD_eq
  intro i hi
  interval_cases i <;> simp only [getLsbD_append] <;> simp

theorem readData_one (h : addr.extractLsb' 0 2 = 1#2) :
    (readData ptr offset addr).extractLsb' 16 8 = ptr offset := by
  have hand : addr &&& 3#32 = 1#32 := by rw [and_three, h]; rfl
  simp only [readData, readShift, readNumBytes, hand, mmapRead]
  generalize ptr offset = b0
  apply BitVec.eq_of_getLsbD_eq
  intro i hi
  interval_cases i <;> simp

theorem readData_two (h : addr.extractLsb' 0 2 = 2#2) :
    (readData ptr offset addr).extractLsb' 0 16 = ptr offset ++ ptr (offset + 1) := by
  have hand : addr &&& 3#32 = 2#32 := by rw [and_three, h]; rfl
  simp only [readData, readShift, readNumBytes, hand, mmapRead]
  generalize ptr offset = b0
  generalize ptr (offset + 1) = b1
  apply BitVec.eq_of_getLsbD_eq
  intro i hi
  interval_cases i <;> simp only [getLsbD_append] <;> simp

theorem readData_three (h : addr.extractLsb' 0 2 = 3#2) :
    (readData ptr offset addr).extractLsb' 0 8 = ptr offset := by
  have hand : addr &&& 3#32 = 3#32 := by rw [and_three, h]; rfl
  have hbytes : readNumBytes addr = 1 := by rw [readNumBytes, hand]; rfl
  simp only [readData, readShift, hbytes, hand, mmapRead_one]
  generalize ptr offset = b0
  apply BitVec.eq_of_getLsbD_eq
  intro i hi
  interval_cases i <;> simp

end Lanes

/-! ### The ranges -/

section Ranges

variable {ranges : List MemMap} {range : MemMap} {index n : ℕ} {addr : BitVec 32}

theorem flat_eq (found : findRange ranges addr = some index) (h : ranges[index]? = some range) :
    flat ranges addr = range.ptr (addr - range.start) := by
  simp [flat, found, h]

theorem getElem_of_findRange (found : findRange ranges addr = some index) :
    ∃ range, ranges[index]? = some range := by
  obtain ⟨hlt, -⟩ := List.findIdx?_eq_some_iff_findIdx_eq.mp found
  exact ⟨ranges[index], List.getElem?_eq_getElem hlt⟩

/-- New bytes in a range do not move its bounds. -/
theorem findRange_modify (ranges : List MemMap) (index : ℕ)
    (ptr : MemMap → BitVec 32 → BitVec 8) (addr : BitVec 32) :
    findRange (ranges.modify index fun range => { range with ptr := ptr range }) addr =
      findRange ranges addr := by
  induction ranges generalizing index with
  | nil => simp [findRange]
  | cons range rest ih =>
    cases index with
    | zero => rfl
    | succ index =>
      rw [List.modify_succ_cons, findRange, List.findIdx?_cons, findRange, List.findIdx?_cons]
      have hrest := ih index
      unfold findRange at hrest
      rw [hrest]

/-- A block of bytes that lies in one range is stored in the flat memory. -/
theorem flat_modify (block : ℕ → BitVec 8)
    (within : ∀ k < n, findRange ranges (addr + BitVec.ofNat 32 k) = some index) :
    flat (ranges.modify index fun range =>
      { range with ptr := storeBytes range.ptr (addr - range.start) n block }) =
      storeBytes (flat ranges) addr n block := by
  funext x
  have hfind := findRange_modify ranges index
    (fun range => storeBytes range.ptr (addr - range.start) n block) x
  rcases hx : findRange ranges x with _ | found
  · -- outside every range there is nothing to store in
    have hout : ¬(x - addr).toNat < n := by
      intro h
      have hin := within _ h
      rw [← eq_add_of_sub, hx] at hin
      cases hin
    rw [hx] at hfind
    rw [storeBytes_of_not_lt hout]
    simp [flat, hfind, hx]
  · rw [hx] at hfind
    obtain ⟨range, hrange⟩ := getElem_of_findRange hx
    by_cases hindex : index = found
    · subst hindex
      rw [flat_eq hfind (by rw [List.getElem?_modify_eq, hrange]; rfl)]
      refine (storeBytes_sub range.start).trans ?_
      unfold storeBytes
      rw [flat_eq hx hrange]
    · have hout : ¬(x - addr).toNat < n := by
        intro h
        have hin := within _ h
        rw [← eq_add_of_sub, hx] at hin
        exact hindex (Option.some.inj hin).symm
      rw [flat_eq hfind (by rw [List.getElem?_modify_ne _ _ hindex, hrange]),
        storeBytes_of_not_lt hout, flat_eq hx hrange]

end Ranges

/-! ### One access -/

section Slices

variable (b0 b1 b2 b3 : BitVec 8)

private theorem extract_byte_long : (b0 ++ b1 ++ b2 ++ b3).extractLsb' 24 8 = b0 := by
  apply BitVec.eq_of_getLsbD_eq
  intro i hi
  interval_cases i <;> simp only [getLsbD_extractLsb', getLsbD_append] <;> simp

private theorem extract_word_long : (b0 ++ b1 ++ b2 ++ b3).extractLsb' 16 16 = b0 ++ b1 := by
  apply BitVec.eq_of_getLsbD_eq
  intro i hi
  interval_cases i <;> simp only [getLsbD_extractLsb', getLsbD_append] <;> simp

private theorem extract_byte_word {d : BitVec 32} (h : d.extractLsb' 0 16 = b0 ++ b1) :
    d.extractLsb' 8 8 = b0 := by
  have hd : d.extractLsb' 8 8 = (d.extractLsb' 0 16).extractLsb' 8 8 := by
    apply BitVec.eq_of_getLsbD_eq
    intro i hi
    interval_cases i <;> simp
  rw [hd, h]
  apply BitVec.eq_of_getLsbD_eq
  intro i hi
  interval_cases i <;> simp only [getLsbD_extractLsb', getLsbD_append] <;> simp

end Slices

section OneAccess

variable {ptr mem : BitVec 32 → BitVec 8} {offset addr : BitVec 32}

/-- An address that is a multiple of two has an even lane. -/
theorem lane_even (aligned : addr.toNat % 2 = 0) :
    addr.extractLsb' 0 2 = 0#2 ∨ addr.extractLsb' 0 2 = 2#2 := by
  have hlane := toNat_lane addr
  rcases lane_cases addr with lane | lane | lane | lane
  · exact .inl lane
  · rw [lane, show (1#2).toNat = 1 from rfl] at hlane
    omega
  · exact .inr lane
  · rw [lane, show (3#2).toNat = 3 from rfl] at hlane
    omega

theorem lane_zero (aligned : addr.toNat % 4 = 0) : addr.extractLsb' 0 2 = 0#2 := by
  apply BitVec.eq_of_toNat_eq
  rw [toNat_lane, aligned]
  rfl

/-- The half word that an even address selects. -/
theorem half_readData (ptr : BitVec 32 → BitVec 8) (offset : BitVec 32)
    (aligned : addr.toNat % 2 = 0) :
    (if addr.getLsbD 1 then (readData ptr offset addr).extractLsb' 0 16
      else (readData ptr offset addr).extractLsb' 16 16) = ptr offset ++ ptr (offset + 1) := by
  rw [getLsbD_lane]
  rcases lane_even aligned with lane | lane
  · rw [lane, readData_zero ptr offset lane, extract_word_long]
    rfl
  · rw [lane, readData_two ptr offset lane]
    rfl

/-- The lane selection of a load recovers the bytes that the bus has read. -/
theorem alignReadData_eq {size : MemSize} {dataO : CpuDataO} (request : dataO.a = addr)
    (aligned : addr.toNat % sizeBytes size = 0)
    (same : ∀ k < sizeBytes size,
      mem (addr + BitVec.ofNat 32 k) = ptr (offset + BitVec.ofNat 32 k)) :
    Datapath.alignReadData (readData ptr offset addr) dataO size = flatLoad mem size addr := by
  cases size with
  | byte =>
    have h0 : mem addr = ptr offset := by simpa using same 0 (by decide)
    simp only [Datapath.alignReadData, flatLoad, request, h0]
    rcases lane_cases addr with lane | lane | lane | lane <;> simp only [lane]
    · rw [readData_zero ptr offset lane, extract_byte_long]
    · rw [readData_one ptr offset lane]
    · rw [extract_byte_word _ _ (readData_two ptr offset lane)]
    · rw [readData_three ptr offset lane]
      rfl
  | word =>
    have h0 : mem addr = ptr offset := by simpa using same 0 (by decide)
    have h1 : mem (addr + 1) = ptr (offset + 1) := same 1 (by decide)
    have half := half_readData ptr offset aligned
    rw [flatLoad, h0, h1, ← half, Datapath.alignReadData, request]
    exact (apply_ite _ _ _ _).symm
  | long =>
    have h0 : mem addr = ptr offset := by simpa using same 0 (by decide)
    have h1 : mem (addr + 1) = ptr (offset + 1) := same 1 (by decide)
    have h2 : mem (addr + 2) = ptr (offset + 2) := same 2 (by decide)
    have h3 : mem (addr + 3) = ptr (offset + 3) := same 3 (by decide)
    rw [flatLoad, h0, h1, h2, h3, ← readData_zero ptr offset (lane_zero aligned),
      Datapath.alignReadData]

/-- The write enables of an aligned store name its number of bytes and its
alignment. -/
theorem writeEnable_store (coproc : CoprocCtrl) {size : MemSize} (data : BitVec 32)
    (aligned : addr.toNat % sizeBytes size = 0) :
    writeEnable (Datapath.toDataO (Access.memCtrl true size) coproc addr data).we =
      some (addr &&& 3#32, sizeBytes size) := by
  rw [and_three]
  cases size with
  | byte =>
    simp only [Datapath.toDataO, Access.memCtrl, if_true]
    rcases lane_cases addr with lane | lane | lane | lane <;> rw [lane] <;> rfl
  | word =>
    simp only [Datapath.toDataO, Access.memCtrl, if_true, getLsbD_lane]
    rcases lane_even aligned with lane | lane <;> rw [lane] <;> rfl
  | long =>
    simp only [Datapath.toDataO, Access.memCtrl, if_true, lane_zero aligned]
    rfl

/-- The duplicated bits are zeroed out and the low bytes stay. -/
theorem writeData_store (coproc : CoprocCtrl) (size : MemSize) (data : BitVec 32) {k : ℕ}
    (hk : k < sizeBytes size) :
    bigEndian (writeData (sizeBytes size)
        (Datapath.toDataO (Access.memCtrl true size) coproc addr data).d) (sizeBytes size) k =
      bigEndian data (sizeBytes size) k := by
  apply BitVec.eq_of_getLsbD_eq
  intro i hi
  cases size with
  | byte =>
    simp only [sizeBytes] at hk ⊢
    interval_cases k
    simp only [bigEndian, writeData, Datapath.toDataO, Access.memCtrl, if_true]
    interval_cases i <;> simp only [getLsbD_extractLsb', getLsbD_and, getLsbD_append] <;> simp
  | word =>
    have hdata (d : BitVec 32) : writeData 2 d = d &&& 0xffff#32 := rfl
    simp only [sizeBytes] at hk ⊢
    simp only [bigEndian, hdata, Datapath.toDataO, Access.memCtrl, if_true]
    interval_cases k <;> interval_cases i <;>
      simp only [getLsbD_extractLsb', getLsbD_and, getLsbD_append] <;> simp
  | long => rfl

end OneAccess

/-! ### The bus -/

section Bus

variable {coproc : CoprocCtrl} {bus : MemBus} {access : Access}

/-- An access that a repetition of the last request stands for finds its own
effect in the memory and its answer on the data signal. -/
def Coherent (coproc : CoprocCtrl) (bus : MemBus) : Prop :=
  ∀ access : Access, access.request coproc = bus.sig → access.Aligned →
    access.Mapped bus.ranges →
      access.onFlat (flat bus.ranges) = (flat bus.ranges, access.answer coproc bus.dout)

theorem Access.request_en (coproc : CoprocCtrl) (access : Access) : (access.request coproc).en = true := by
  cases access with
  | load size addr => rfl
  | store size addr data => cases size <;> rfl
  | fetch addr => rfl

theorem Access.request_a (coproc : CoprocCtrl) (access : Access) : (access.request coproc).a = access.addr := by
  cases access with
  | load size addr => rfl
  | store size addr data => cases size <;> rfl
  | fetch addr => rfl

/-- A request of the CPU is a read or a write. -/
theorem Access.request_known (coproc : CoprocCtrl) (access : Access) :
    ((access.request coproc).en && !(access.request coproc).wr &&
      !(access.request coproc).rd) = false := by
  cases access with
  | load size addr => rfl
  | store size addr data => cases size <;> rfl
  | fetch addr => rfl

theorem coherent_of_idle (idle : bus.sig.en = false) : Coherent coproc bus := by
  intro access request
  have en := access.request_en coproc
  rw [request, idle] at en
  cases en

theorem Access.Aligned.store {size : MemSize} {addr data : BitVec 32}
    (h : (Access.store size addr data).Aligned) : addr.toNat % sizeBytes size = 0 := h

/-- The bytes of a mapped access, in the range that holds it. -/
theorem Access.Mapped.flat_eq {ranges : List MemMap} (mapped : access.Mapped ranges)
    (some_byte : 0 < access.bytes) :
    ∃ index range, findRange ranges access.addr = some index ∧ ranges[index]? = some range ∧
      (∀ k < access.bytes, findRange ranges (access.addr + BitVec.ofNat 32 k) = some index) ∧
      ∀ k < access.bytes, flat ranges (access.addr + BitVec.ofNat 32 k) =
        range.ptr (access.addr - range.start + BitVec.ofNat 32 k) := by
  obtain ⟨index, within⟩ := mapped
  have found : findRange ranges access.addr = some index := by simpa using within 0 some_byte
  obtain ⟨range, hrange⟩ := getElem_of_findRange found
  refine ⟨index, range, found, hrange, within, fun k hk => ?_⟩
  rw [Sim.flat_eq (within k hk) hrange]
  congr 1
  exact add_sub_right_comm _ _ _

theorem Access.bytes_pos (access : Access) : 0 < access.bytes := by
  cases access with
  | load size | store size => cases size <;> exact Nat.succ_pos _
  | fetch addr => exact Nat.succ_pos _

/-- A read puts the answer of every access with this request on the data signal. -/
theorem busRead_ok (read : (access.request coproc).wr = false) (aligned : access.Aligned)
    (mapped : access.Mapped bus.ranges) :
    ∃ after, busRead bus (access.request coproc) = .ok after ∧ after.ranges = bus.ranges ∧
      after.sig = bus.sig ∧
      access.onFlat (flat bus.ranges) = (flat bus.ranges, access.answer coproc after.dout) := by
  obtain ⟨index, range, found, hrange, -, bytes⟩ := mapped.flat_eq access.bytes_pos
  have hwe : (access.request coproc).we = 0 := by
    cases access with
    | load size addr => rfl
    | store size addr data => cases size <;> cases read
    | fetch addr => rfl
  refine ⟨{ bus with dout := readData range.ptr (access.addr - range.start) access.addr },
    ?_, rfl, rfl, ?_⟩
  · simp only [busRead, hwe, access.request_a coproc, found, hrange, Option.bind_some, ne_eq,
      not_true_eq_false, if_false]
    rfl
  · cases access with
    | load size addr =>
      have value := alignReadData_eq ((Access.load size addr).request_a coproc) aligned bytes
      exact congrArg (fun value => (flat bus.ranges, Answer.loaded value)) value.symm
    | store size addr data => cases size <;> cases read
    | fetch addr =>
      have h0 : flat bus.ranges (addr ++ 0#1) = range.ptr (addr ++ 0#1 - range.start) := by
        simpa [Access.addr] using bytes 0 Nat.zero_lt_two
      have h1 : flat bus.ranges (addr ++ 0#1 + 1) = range.ptr (addr ++ 0#1 - range.start + 1) :=
        bytes 1 Nat.one_lt_two
      have half := half_readData range.ptr (addr ++ 0#1 - range.start) aligned
      have hbit : (addr ++ 0#1).getLsbD 1 = addr.getLsbD 0 := by
        rw [getLsbD_append]
        rfl
      rw [show (Access.fetch addr).addr = addr ++ 0#1 from rfl, hbit] at half
      simp only [Access.onFlat, Access.answer, h0, h1, spliceInstrI, Access.instrO]
      exact congrArg (fun value => (flat bus.ranges, Answer.fetched value)) half.symm

/-- A write stores the bytes of every access with this request. -/
theorem busWrite_ok (write : (access.request coproc).wr = true) (aligned : access.Aligned)
    (mapped : access.Mapped bus.ranges) :
    ∃ after, busWrite bus (access.request coproc) = .ok after ∧
      (∀ other : Access, other.Mapped after.ranges ↔ other.Mapped bus.ranges) ∧
      after.sig = bus.sig ∧
      access.onFlat (flat bus.ranges) = (flat after.ranges, access.answer coproc after.dout) := by
  obtain ⟨index, range, found, hrange, within, bytes⟩ := mapped.flat_eq access.bytes_pos
  cases access with
  | load size addr => cases write
  | fetch addr => cases write
  | store size addr data =>
    have hwe := writeEnable_store coproc data aligned.store
    have ha : (Datapath.toDataO (Access.memCtrl true size) coproc addr data).a = addr :=
      (Access.store size addr data).request_a coproc
    -- what the loop writes is the block of the flat store
    have hmem (range : MemMap) :
        mmapWrite range.ptr (addr - range.start) (sizeBytes size)
          (writeData (sizeBytes size)
            (Datapath.toDataO (Access.memCtrl true size) coproc addr data).d) =
        storeBytes range.ptr (addr - range.start) (sizeBytes size)
          (bigEndian data (sizeBytes size)) := by
      rw [mmapWrite_eq _ _ _ (by cases size <;> decide)]
      exact storeBytes_congr fun k hk => writeData_store coproc size data hk
    let store (range : MemMap) : BitVec 32 → BitVec 8 :=
      storeBytes range.ptr (addr - range.start) (sizeBytes size) (bigEndian data (sizeBytes size))
    refine ⟨{ bus with
      ranges := bus.ranges.modify index fun range => { range with ptr := store range } },
      ?_, ?_, rfl, ?_⟩
    · simp only [Access.addr] at found
      simp only [busWrite, Access.request, hwe, ha, found, ne_eq, not_true_eq_false, if_false, hmem]
      rfl
    · intro other
      simp only [Access.Mapped, findRange_modify bus.ranges index store]
    · have hflat := flat_modify (bigEndian data (sizeBytes size)) within
      exact congrArg (fun mem => (mem, Answer.stored)) hflat.symm

/-- Performing an access twice is performing it once. -/
theorem Access.onFlat_onFlat (mem : BitVec 32 → BitVec 8) :
    access.onFlat (access.onFlat mem).1 = access.onFlat mem := by
  cases access with
  | load size addr => rfl
  | store size addr data =>
    simp only [Access.onFlat, flatStore]
    rw [storeBytes_storeBytes]
  | fetch addr => rfl

/-- The operation that a request starts. -/
def operation (bus : MemBus) (sig : CpuDataO) : Except BusError MemBus :=
  if sig.wr then busWrite bus sig else busRead bus sig

theorem operation_ok (bus : MemBus) (coproc : CoprocCtrl) (aligned : access.Aligned)
    (mapped : access.Mapped bus.ranges) :
    ∃ after, operation bus (access.request coproc) = .ok after ∧
      (∀ other : Access, other.Mapped after.ranges ↔ other.Mapped bus.ranges) ∧
      after.sig = bus.sig ∧
      access.onFlat (flat bus.ranges) = (flat after.ranges, access.answer coproc after.dout) := by
  unfold operation
  cases hwr : (access.request coproc).wr with
  | true => exact busWrite_ok hwr aligned mapped
  | false =>
    obtain ⟨after, hrun, hranges, hsig, heffect⟩ := busRead_ok hwr aligned mapped
    refine ⟨after, hrun, fun other => by rw [hranges], hsig, ?_⟩
    rw [hranges]
    exact heffect

theorem readWriteCb_same (h : access.request coproc = bus.sig) :
    readWriteCb bus (access.request coproc) = .ok bus := by
  have hop := access.request_known coproc
  unfold readWriteCb
  rw [hop, h]
  simp

theorem readWriteCb_changed (h : access.request coproc ≠ bus.sig) :
    readWriteCb bus (access.request coproc) =
      operation { bus with sig := access.request coproc } (access.request coproc) := by
  have hop := access.request_known coproc
  unfold readWriteCb
  rw [hop, if_neg Bool.false_ne_true, if_pos ⟨h, access.request_en coproc⟩]
  rfl

/-- One access on a coherent bus: it raises no exception, has the effect and the
answer it has on the flat memory, and leaves the bus coherent. -/
theorem onBus_of_coherent (coproc : CoprocCtrl) (coherent : Coherent coproc bus)
    (aligned : access.Aligned) (mapped : access.Mapped bus.ranges) :
    ∃ after, readWriteCb bus (access.request coproc) = .ok after ∧ Coherent coproc after ∧
      (∀ other : Access, other.Mapped after.ranges ↔ other.Mapped bus.ranges) ∧
      access.onFlat (flat bus.ranges) = (flat after.ranges, access.answer coproc after.dout) := by
  by_cases hsig : access.request coproc = bus.sig
  · -- nothing has changed at the inputs, so no operation starts
    exact ⟨bus, readWriteCb_same hsig, coherent, fun other => Iff.rfl,
      coherent access hsig aligned mapped⟩
  · obtain ⟨after, hrun, hmapped, hafter, heffect⟩ :=
      operation_ok { bus with sig := access.request coproc } coproc aligned mapped
    refine ⟨after, (readWriteCb_changed hsig).trans hrun, ?_, hmapped, heffect⟩
    -- every access with this request has had the same effect
    intro other request hal hmap
    rw [hafter] at request
    obtain ⟨after', hrun', -, -, heffect'⟩ :=
      operation_ok { bus with sig := access.request coproc } coproc hal ((hmapped other).mp hmap)
    rw [request] at hrun'
    cases hrun.symm.trans hrun'
    have twice := other.onFlat_onFlat (flat bus.ranges)
    rw [heffect'] at twice
    exact twice

theorem runBus_of_coherent (coproc : CoprocCtrl) (accesses : List (Option Access))
    (coherent : Coherent coproc bus)
    (ok : ∀ access, some access ∈ accesses → access.Aligned ∧ access.Mapped bus.ranges) :
    ∃ after, runBus coproc bus accesses = .ok (after, (runFlat (flat bus.ranges) accesses).2) ∧
      flat after.ranges = (runFlat (flat bus.ranges) accesses).1 := by
  induction accesses generalizing bus with
  | nil => exact ⟨bus, rfl, rfl⟩
  | cons first rest ih =>
    cases first with
    | none =>
      have idle : Coherent coproc { bus with sig := nullDataO } := coherent_of_idle rfl
      have hidle : readWriteCb bus nullDataO = .ok { bus with sig := nullDataO } := by
        simp [readWriteCb, nullDataO]
      rw [runBus, hidle]
      exact ih idle fun access h => ok access (List.mem_cons_of_mem _ h)
    | some access =>
      obtain ⟨aligned, mapped⟩ := ok access (by simp)
      obtain ⟨next, hstep, hnext, hmapped, heffect⟩ :=
        onBus_of_coherent coproc coherent aligned mapped
      obtain ⟨after, hrun, hflat⟩ := ih hnext fun other h =>
        ⟨(ok other (List.mem_cons_of_mem _ h)).1,
          (hmapped other).mpr (ok other (List.mem_cons_of_mem _ h)).2⟩
      refine ⟨after, ?_, ?_⟩
      · simp only [runBus, runFlat, hstep, hrun, heffect]
      · simp only [runFlat, heffect]
        exact hflat

/-- Every sequence of aligned accesses to mapped memory runs without a bus
exception, answers as a flat big-endian memory does, and leaves its contents. -/
theorem accesses_refine_flat (coproc : CoprocCtrl) (ranges : List MemMap)
    (accesses : List (Option Access))
    (ok : ∀ access, some access ∈ accesses → access.Aligned ∧ access.Mapped ranges) :
    ∃ bus, runBus coproc (memBusInit ranges) accesses =
        .ok (bus, (runFlat (flat ranges) accesses).2) ∧
      flat bus.ranges = (runFlat (flat ranges) accesses).1 :=
  runBus_of_coherent coproc accesses (coherent_of_idle rfl) ok

/-- An image and the stack behind it. -/
def imageAndStack : List MemMap :=
  [{ ptr := fun _ => 0x80, start := 0, stop := 0x100 },
    { ptr := fun _ => 0, start := 0x100, stop := 0x1000000 }]

/-- Stores of three sizes into one word, with loads and a fetch of it. -/
def mixedAccesses : List (Option Access) :=
  [some (.store .long 0x10 0x11223344), some (.store .byte 0x11 0xff), none,
    some (.load .long 0x10), some (.load .byte 0x11), some (.fetch 8),
    some (.store .word 0x102 0x8001), some (.load .word 0x102)]

theorem accesses_refine_flat_mixedAccesses :
    ∃ bus, runBus ⟨.dbus, .nop⟩ (memBusInit imageAndStack) mixedAccesses =
        .ok (bus, (runFlat (flat imageAndStack) mixedAccesses).2) ∧
      flat bus.ranges = (runFlat (flat imageAndStack) mixedAccesses).1 :=
  accesses_refine_flat ⟨.dbus, .nop⟩ imageAndStack mixedAccesses (by
    intro access h
    simp only [mixedAccesses, List.mem_cons, Option.some.injEq, List.not_mem_nil, or_false,
      reduceCtorEq, false_or] at h
    rcases h with rfl | rfl | rfl | rfl | rfl | rfl | rfl
    all_goals refine ⟨by decide, ?_⟩
    · exact ⟨0, by decide⟩
    · exact ⟨0, by decide⟩
    · exact ⟨0, by decide⟩
    · exact ⟨0, by decide⟩
    · exact ⟨0, by decide⟩
    · exact ⟨1, by decide⟩
    · exact ⟨1, by decide⟩)

end Bus

end JCore.Sim
