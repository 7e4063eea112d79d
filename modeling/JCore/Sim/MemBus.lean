import JCore.Core.Datapath
import JCore.Lib.ByteMemory

/-!
# The simulator's memory bus

`sim/sim/mem_bus.c` with the memory callbacks of `sim/cpu_ctb.c` and
`splice_instr_data_bus` of `sim/data_bus_pkg.vhd`. A mapped range holds its
bytes in an array of the host that `ptr` reads by offset. One call of
`readWriteCb` stands for the operation that a request starts; the delays of the
acknowledgement and of its drop carry no data and are left out.

## Main definitions

* `mmapRead`, `mmapWrite`: the loops over the bytes of an access
* `readWriteCb`: the bus callback, with its exceptions
* `spliceDataO`, `spliceInstrI`: the instruction bus on the data bus
-/

namespace JCore.Sim

/-- A `mem_map` with its range; `stop = 0` leaves the range open. -/
structure MemMap where
  ptr : BitVec 32 → BitVec 8
  start : BitVec 32
  stop : BitVec 32

def MemMap.contains (m : MemMap) (addr : BitVec 32) : Bool :=
  decide (m.start ≤ addr) && (m.stop == 0 || decide (addr < m.stop))

/-- `default_find_range`: the index of the first range that holds the address. -/
def findRange (ranges : List MemMap) (addr : BitVec 32) : Option ℕ :=
  ranges.findIdx? fun m => m.contains addr

/-- `mmap_read`: `numBytes` bytes from `offset` on are shifted into `val`. -/
def mmapRead (ptr : BitVec 32 → BitVec 8) (offset : BitVec 32) :
    ℕ → BitVec 32 → BitVec 32
  | 0, val => val
  | numBytes + 1, val =>
    mmapRead ptr (offset + 1) numBytes (val <<< 8 ||| (ptr offset).setWidth 32)

/-- `mmap_write`: the bytes of `val` go out from the last one on. -/
def mmapWrite (ptr : BitVec 32 → BitVec 8) (offset : BitVec 32) :
    ℕ → BitVec 32 → (BitVec 32 → BitVec 8)
  | 0, _ => ptr
  | numBytes + 1, val =>
    mmapWrite (Function.update ptr (offset + BitVec.ofNat 32 numBytes) (val.setWidth 8)) offset
      numBytes (val >>> 8)

/-- What `BUSERR` reports. -/
inductive BusError where
  | unknownOperation | nonZeroWriteEnable | invalidReadAddr | invalidWriteEnable
  | misalignedWrite | invalidWriteAddr
  deriving DecidableEq, Repr

/-- The bus: its ranges, the input signals as the callback saw them last, and
the data signal. -/
structure MemBus where
  ranges : List MemMap
  sig : CpuDataO
  dout : BitVec 32

/-- `mem_bus_init`. -/
def memBusInit (ranges : List MemMap) : MemBus := { ranges, sig := nullDataO, dout := 0 }

/-- The number of bytes a read takes, by the alignment of its address. -/
def readNumBytes (addr : BitVec 32) : ℕ :=
  match addr &&& 3#32 with
  | 0#32 => 4
  | 1#32 => 1
  | 2#32 => 2
  | _ => 1

/-- The value read, shifted to where the CPU expects it. -/
def readShift (addr val : BitVec 32) : BitVec 32 :=
  match addr &&& 3#32 with
  | 1#32 => (val &&& 0xff#32) <<< 16
  | 2#32 => val &&& 0xffff#32
  | 3#32 => val &&& 0xff#32
  | _ => val

/-- The alignment that a write enable asks for, and its number of bytes. -/
def writeEnable (we : BitVec 4) : Option (BitVec 32 × ℕ) :=
  match we with
  | 0x1#4 => some (3, 1)
  | 0x2#4 => some (2, 1)
  | 0x3#4 => some (2, 2)
  | 0x4#4 => some (1, 1)
  | 0x8#4 => some (0, 1)
  | 0xc#4 => some (0, 2)
  | 0xf#4 => some (0, 4)
  | _ => none

/-- Zero out duplicated write bits. -/
def writeData (numBytes : ℕ) (data : BitVec 32) : BitVec 32 :=
  if numBytes = 1 then data &&& 0xff#32
  else if numBytes = 2 then data &&& 0xffff#32
  else data

def busRead (bus : MemBus) (sig : CpuDataO) : Except BusError MemBus :=
  if sig.we ≠ 0 then .error .nonZeroWriteEnable
  else
    match (findRange bus.ranges sig.a).bind (bus.ranges[·]?) with
    | none => .error .invalidReadAddr
    | some range =>
      .ok { bus with
        dout := readShift sig.a (mmapRead range.ptr (sig.a - range.start) (readNumBytes sig.a) 0) }

def busWrite (bus : MemBus) (sig : CpuDataO) : Except BusError MemBus :=
  match writeEnable sig.we with
  | none => .error .invalidWriteEnable
  | some (alignment, numBytes) =>
    if sig.a &&& 3#32 ≠ alignment then .error .misalignedWrite
    else
      match findRange bus.ranges sig.a with
      | none => .error .invalidWriteAddr
      | some index =>
        .ok { bus with
          ranges := bus.ranges.modify index fun range =>
            { range with
              ptr :=
                mmapWrite range.ptr (sig.a - range.start) numBytes (writeData numBytes sig.d) } }

/-- `read_write_cb`: an operation starts when the request is enabled and one of
the input signals has changed. -/
def readWriteCb (bus : MemBus) (sig : CpuDataO) : Except BusError MemBus :=
  if sig.en && !sig.wr && !sig.rd then .error .unknownOperation
  else if sig ≠ bus.sig ∧ sig.en then
    let seen := { bus with sig := sig }
    if sig.wr then busWrite seen sig else busRead seen sig
  else .ok { bus with sig := sig }

/-- The request path of `splice_instr_data_bus`. -/
def spliceDataO (instrO : CpuInstructionO) : CpuDataO where
  en := instrO.en
  a := instrO.a ++ 0#1
  rd := instrO.en
  wr := false
  we := 0
  d := 0

/-- The reply path of `splice_instr_data_bus`. -/
def spliceInstrI (instrO : CpuInstructionO) (dataI : CpuDataI) : CpuInstructionI where
  ack := dataI.ack
  d := if instrO.a.getLsbD 0 then dataI.d.extractLsb' 0 16 else dataI.d.extractLsb' 16 16

/-! ### The loops -/

section Loops

variable (ptr : BitVec 32 → BitVec 8) (offset : BitVec 32)

/-- The write loop stores the low bytes of the value in big-endian order. -/
theorem mmapWrite_eq (n : ℕ) (hn : n ≤ 4) (val : BitVec 32) :
    mmapWrite ptr offset n val = storeBytes ptr offset n (bigEndian val n) := by
  induction n generalizing ptr val with
  | zero =>
    funext x
    exact (storeBytes_of_not_lt (by simp)).symm
  | succ n ih =>
    have hlast : (offset + BitVec.ofNat 32 n - offset).toNat = n := by
      rw [BitVec.add_comm, BitVec.add_sub_cancel, BitVec.toNat_ofNat]
      omega
    rw [mmapWrite, ih _ (by omega)]
    funext x
    rcases Nat.lt_trichotomy (x - offset).toNat n with hx | hx | hx
    · -- a byte that the rest of the loop writes, from the shifted value
      rw [storeBytes_of_lt hx, storeBytes_of_lt (by omega), bigEndian, bigEndian]
      apply BitVec.eq_of_getLsbD_eq
      intro i hi
      simp only [BitVec.getLsbD_extractLsb', BitVec.getLsbD_ushiftRight, hi, decide_true,
        Bool.true_and]
      congr 1
      omega
    · -- the byte of this round
      have hat : x = offset + BitVec.ofNat 32 n := by rw [eq_add_of_sub x offset, hx]
      rw [storeBytes_of_not_lt (by omega), storeBytes_of_lt (by omega), hat,
        Function.update_self, hlast, bigEndian]
      apply BitVec.eq_of_getLsbD_eq
      intro i hi
      simp [hi]
    · have hne : x ≠ offset + BitVec.ofNat 32 n := by
        rintro rfl
        omega
      rw [storeBytes_of_not_lt (by omega), storeBytes_of_not_lt (by omega),
        Function.update_of_ne hne]

theorem mmapRead_one : mmapRead ptr offset 1 0 = (ptr offset).setWidth 32 := by
  simp [mmapRead]

end Loops

end JCore.Sim
