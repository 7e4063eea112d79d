import JCore.Testrom.Packet
import JCore.Testrom.Sh2

/-!
# The monitor

The command processor of the GDB stub: what each command does to the registers and the
memory, the packets it is answered with, and the loop that serves commands until one of
them leaves the monitor.

## Main definitions

* `command`: one command
* `gdbMonitor`, `gdbHandleException`: commands up to one that leaves

## Main results

* `readMemoryData_eq`: the text of a region, whatever the pieces
* `turns_readMemory`: the packets of a region, whose checksum runs on
* `peekAll_eq`: the registers in order
-/

namespace JCore.Gdb

open Sim

/-! ### Texts -/

/-- The characters of a text. -/
def text (s : String) : List (BitVec 8) := s.toList.map chr

/-- The bytes of a long in memory. -/
def longBytes (val : BitVec 32) : List (BitVec 8) :=
  (List.range (sizeBytes .long)).map (bigEndian val (sizeBytes .long))

/-- `mem_to_hexbuf` of a local variable. -/
def longToHexbuf (val : BitVec 32) : List (BitVec 8) := (longBytes val).flatMap byteToHex

/-- `hexbuf_to_mem` into a local variable. -/
def hexbufToLong (hbuf : List (BitVec 8)) : Option (BitVec 32) :=
  (takeBytes hexSpelling (sizeBytes .long) hbuf).map fun taken => ofBytes taken.1

/-- The digits of a long as `expedited` writes them. -/
def longDigits (val : BitVec 32) : List (BitVec 8) :=
  [28, 24, 20, 16, 12, 8, 4, 0].map fun shift => lnibbleToHex ((val.sshiftRight shift).setWidth 8)

/-- `_strcmp`; `none` is a text without its end. -/
def strcmp : List (BitVec 8) → List (BitVec 8) → Option (BitVec 32)
  | a :: as, b :: bs =>
    if a ≠ 0 ∧ b ≠ 0 ∧ a = b then strcmp as bs else some (a.signExtend 32 - b.signExtend 32)
  | _, _ => none

/-! ### Packets of replies -/

/-- `last_signal`. -/
def lastSignal (sigval : BitVec 32) : Sender :=
  putmsg (chr 'S')
    [lnibbleToHex ((sigval.sshiftRight 4).setWidth 8), lnibbleToHex (sigval.setWidth 8)]

/-- The numbers and values of the registers from `id` on, up to the first number that is none. -/
def peekAll (rf : RegisterFileS) : ℕ → BitVec 32 → List (BitVec 32 × BitVec 32)
  | 0, _ => []
  | fuel + 1, id =>
    match gdbPeekRegisterFile rf id with
    | some val => (id, val) :: peekAll rf fuel (id + 1)
    | none => []

/-- One more than there are registers. -/
def registerFuel : ℕ := RegisterId.all.length + 1

/-- The data of `expedited`. -/
def expeditedData (rf : RegisterFileS) (sigval : BitVec 32) : List (BitVec 8) :=
  chr 'T' :: lnibbleToHex ((sigval.sshiftRight 4).setWidth 8) :: lnibbleToHex (sigval.setWidth 8) ::
    (peekAll rf registerFuel 0).flatMap fun register =>
      lnibbleToHex ((register.1.sshiftRight 4).setWidth 8) ::
        lnibbleToHex (register.1.setWidth 8) :: chr ':' :: longDigits register.2 ++ [chr ';']

def expedited (rf : RegisterFileS) (sigval : BitVec 32) : Sender := fun _ =>
  let sum := checksum (expeditedData rf sigval)
  (chr '$' :: expeditedData rf sigval ++ footer sum, sum)

/-- The data of `read_registers`. -/
def readRegistersData (rf : RegisterFileS) : List (BitVec 8) :=
  (peekAll rf registerFuel 0).flatMap fun register => longToHexbuf register.2

def readRegisters (rf : RegisterFileS) : Sender := fun _ =>
  let sum := checksum (readRegistersData rf)
  (chr '$' :: readRegistersData rf ++ footer sum, sum)

/-- The pieces of a region that `read_memory` sends. The macro `min` compares a length with
`sizeof` without a sign, and two lengths with one. -/
def readMemoryData (mem : ByteMemory) : ℕ → BitVec 32 → BitVec 32 → List (BitVec 8)
  | 0, _, _ => []
  | fuel + 1, addr, len =>
    if len = 0 then []
    else
      let tx := min len.toNat (sizeBytes .long)
      let sent := if len.toInt < tx then len else BitVec.ofNat 32 tx
      memToHexbuf mem addr tx ++ readMemoryData mem fuel (addr + BitVec.ofNat 32 tx) (len - sent)

/-- The number of bytes that it sends. -/
def readCount (len : BitVec 32) : ℕ := if len.toNat < 2 ^ 31 then len.toNat else 4

/-- The checksum is not cleared at the top of the loop. -/
def readMemory (mem : ByteMemory) (addr len : BitVec 32) : Sender := fun sum =>
  let data := readMemoryData mem len.toNat addr len
  let sum := sum + checksum data
  (chr '$' :: data ++ footer sum, sum)

/-- `putmsg (0, "OK", 2)`. -/
def ok : Sender := putmsg 0 (text "OK")

/-! ### Commands -/

/-- How the monitor is left. -/
inductive Exit where
  | resume
  | reset
  | ret (value : BitVec 32)
  deriving DecidableEq, Repr

/-- What a command leaves, what it is answered with, and whether it is the last one. -/
structure Answer where
  stub : Stub
  reply : Option Sender
  exit : Option Exit

/-- The length of a loop `while (len > 0)`. -/
def count (len : BitVec 32) : ℕ := len.toInt.toNat

section Commands

variable (own : Storage) (stub : Stub) (hargs : List (BitVec 8))

/-- A command that only answers. -/
def Stub.answering (send : Sender) : Answer := { stub := stub, reply := some send, exit := none }

/-- There is no answer here to what reaches into the monitor itself. -/
def readMemoryCommand : Option Answer :=
  (hargsParseLong (chr ',') hargs 0).bind fun addr =>
    (hargsParseLong (chr '#') addr.2 0).bind fun len =>
      if own.Clear addr.1 (readCount len.1) then
        some (stub.answering (readMemory stub.mem addr.1 len.1))
      else none

/-- The two commands that write the memory, by the function that does. -/
def writeRegion
    (toMem : List (BitVec 8) → BitVec 32 → ℕ → ByteMemory → Option ByteMemory) : Option Answer :=
  (hargsParseLong (chr ',') hargs 0).bind fun addr =>
    (hargsParseLong (chr ':') addr.2 0).bind fun len =>
      if own.Clear addr.1 (count len.1) then
        (toMem len.2 addr.1 (count len.1) stub.mem).map fun mem =>
          Stub.answering { stub with mem := mem } ok
      else none

def writeMemory : Option Answer := writeRegion own stub hargs hexbufToMem

def writeXbinMemory : Option Answer := writeRegion own stub hargs xmemToMem

/-- The loop of `write_registers`, up to the first number that is no register. -/
def pokeAll : ℕ → BitVec 32 → RegisterFileS → List (BitVec 8) → Option RegisterFileS
  | 0, _, rf, _ => some rf
  | _, _, _, [] => none
  | fuel + 1, id, rf, c :: hargs =>
    if c = chr '#' then some rf
    else
      match gdbPeekRegisterFile rf id with
      | none => some rf
      | some _ =>
        (hexbufToLong (c :: hargs)).bind fun val =>
          pokeAll fuel (id + 1) (gdbPokeRegisterFile rf id val) ((c :: hargs).drop 8)

def writeRegistersCommand : Option Answer :=
  (pokeAll registerFuel 0 stub.registerFile hargs).map fun rf =>
    Stub.answering { stub with registerFile := rf } ok

/-- A number that is no register takes no digits. -/
def writeRegisterCommand : Option Answer :=
  (hargsParseLong (chr '=') hargs 0).bind fun id =>
    match gdbPeekRegisterFile stub.registerFile id.1 with
    | none => some (stub.answering ok)
    | some _ =>
      (hexbufToLong id.2).map fun val =>
        Stub.answering { stub with registerFile := gdbPokeRegisterFile stub.registerFile id.1 val } ok

def queryCommand : Option Answer :=
  (strcmp hargs (text "Offsets" ++ [0])).map fun order =>
    if order = 0 then stub.answering (putmsg 0 (text "Text=0;Data=0;Bss=0"))
    else stub.answering (putmsg 0 [])

/-- The result of a system call of the host. -/
def fileCommand : Option Answer :=
  if hargs.head? = some (chr '-') then
    some { stub := stub, reply := none, exit := some (.ret (-1)) }
  else
    (hargsParseLong (chr '#') hargs 0).map fun addr =>
      { stub := stub, reply := some ok, exit := some (.ret addr.1) }

/-- The switch of `gdb_monitor`. -/
def command (sigval : BitVec 32) : List (BitVec 8) → Option Answer
  | [] => none
  | c :: hargs =>
    if c = chr '?' then some (stub.answering (lastSignal sigval))
    else if c = chr 'c' then
      (hargsParseLong (chr '#') hargs 0).map fun addr =>
        { stub := gdbContinue stub addr.1, reply := none, exit := some .resume }
    else if c = chr 'D' then some { stub := stub, reply := some ok, exit := some .reset }
    else if c = chr 'F' then fileCommand stub hargs
    else if c = chr 'g' then some (stub.answering (readRegisters stub.registerFile))
    else if c = chr 'G' then writeRegistersCommand stub hargs
    else if c = chr 'H' then some (stub.answering ok)
    else if c = chr 'k' then some { stub := stub, reply := some ok, exit := some .reset }
    else if c = chr 'm' then readMemoryCommand own stub hargs
    else if c = chr 'M' then writeMemory own stub hargs
    else if c = chr 'P' then writeRegisterCommand stub hargs
    else if c = chr 'q' then queryCommand stub hargs
    else if c = chr 's' then
      (hargsParseLong (chr '#') hargs 0).bind fun addr =>
        if StepsClear own (stub.registerFile.startAt addr.1) stub.mem then
          some { stub := gdbStep stub addr.1, reply := none, exit := some .resume }
        else none
    else if c = chr 'X' then writeXbinMemory own stub hargs
    else some (stub.answering (putmsg 0 []))

end Commands

/-! ### The loop -/

/-- How the monitor was left, and what was sent. -/
structure Outcome where
  stub : Stub
  exit : Exit
  sent : List (BitVec 8)
  rest : List (BitVec 8)

def Answer.transmit (answer : Answer) (rx : List (BitVec 8)) : Option Traffic :=
  match answer.reply with
  | some send => untilAck send 0 rx
  | none => some { sent := [], rest := rx }

section Loop

variable (own : Storage) (sigval : BitVec 32)

/-- The loop of `gdb_monitor`, for at most `fuel` messages. -/
def serve :
    ℕ → Stub → List (BitVec 8) → List (BitVec 8) → Option Outcome
  | 0, _, _, _ => none
  | fuel + 1, stub, rxbuf, rx =>
    (getmsg rxbuf rx).bind fun message =>
      (command own stub sigval message.rxbuf).bind fun answer =>
        (answer.transmit message.rest).bind fun traffic =>
          match answer.exit with
          | some exit =>
            some
              { stub := answer.stub, exit := exit, sent := message.sent ++ traffic.sent,
                rest := traffic.rest }
          | none =>
            (serve fuel answer.stub message.rxbuf traffic.rest).map fun later =>
              { later with sent := message.sent ++ traffic.sent ++ later.sent }

/-- The length of the buffer, unless the build sets another. -/
def gdbRxbuflen : ℕ := 200

/-- Each message takes characters from the input. -/
def gdbMonitor (stub : Stub) (rxbuf rx : List (BitVec 8)) : Option Outcome :=
  if stub.EntersClear own then serve own sigval rx.length (gdbMonitorOnentry stub) rxbuf rx else none

/-- Whatever the monitor returns, the program goes on. -/
def Exit.ofException : Exit → Exit
  | .ret _ => .resume
  | exit => exit

def gdbHandleException (stub : Stub) (rxbuf rx : List (BitVec 8)) : Option Outcome :=
  (untilAck (expedited stub.registerFile sigval) 0 rx).bind fun traffic =>
    (gdbMonitor own sigval stub rxbuf traffic.rest).map fun later =>
      { later with exit := later.exit.ofException, sent := traffic.sent ++ later.sent }

end Loop

/-! ### System calls -/

/-- `syscall_name`. -/
def syscallName : List (List (BitVec 8)) :=
  ["Fopen,", "Fclose,", "Fread,", "Fwrite,", "Flseek,"].map text

def nrOpen : BitVec 32 := 1
def nrClose : BitVec 32 := 2
def nrSyscalls : BitVec 32 := 5

section FileIo

variable (own : Storage)

/-- The length of a text in memory that ends within `fuel` characters. -/
def strl (mem : ByteMemory) : ℕ → BitVec 32 → Option (BitVec 32)
  | 0, _ => none
  | fuel + 1, buf =>
    if own buf then none
    else if mem buf = 0 then some 0
    else (strl mem fuel (buf + 1)).map (1 + ·)

/-- The data of a request to the host. A text is passed with its length. -/
def fileIoData (mem : ByteMemory) (syscall arg1 arg2 arg3 : BitVec 32) :
    Option (List (BitVec 8)) :=
  (syscallName[(syscall - 1).toNat]?).bind fun name =>
    (if syscall = nrOpen then
        (strl own mem (2 ^ 32) arg1).map fun len => chr '/' :: longToHexbuf (len + 1)
      else some []).map fun len =>
        name ++ longToHexbuf arg1 ++ len ++
          if syscall ≠ nrClose then
            chr ',' :: longToHexbuf arg2 ++ chr ',' :: longToHexbuf arg3
          else []

/-- `gdb_file_io`; the packet is sent once, and its answer is not waited for. -/
def gdbFileIo (stub : Stub) (syscall arg1 arg2 arg3 : BitVec 32) (rxbuf rx : List (BitVec 8)) :
    Option Outcome :=
  if syscall = 0 ∨ nrSyscalls.slt syscall then
    some { stub := stub, exit := .ret (-1), sent := [], rest := rx }
  else
    (fileIoData own stub.mem syscall arg1 arg2 arg3).bind fun data =>
      (gdbMonitor own 0 stub rxbuf rx).map fun later => { later with sent := frame data ++ later.sent }

end FileIo

/-! ### Longs -/

/-- The digits that are shifted out are those of the bytes. -/
theorem longDigits_eq (val : BitVec 32) : longDigits val = longToHexbuf val := by
  have digit : ∀ x y : BitVec 8, x &&& 0xf = y &&& 0xf → lnibbleToHex x = lnibbleToHex y := by
    intro x y h
    rw [lnibbleToHex, lnibbleToHex, h]
  rw [longToHexbuf, longBytes, sizeBytes, show List.range 4 = [0, 1, 2, 3] from rfl]
  simp only [longDigits, byteToHex, List.map_cons, List.map_nil, List.flatMap_cons,
    List.flatMap_nil, List.cons_append, List.nil_append, List.cons.injEq, and_true]
  refine ⟨?_, ?_, ?_, ?_, ?_, ?_, ?_, ?_⟩ <;>
  · apply digit
    apply BitVec.eq_of_getLsbD_eq
    intro i hi
    interval_cases i <;> simp [bigEndian, BitVec.getElem_sshiftRight]

/-! ### Regions -/

theorem toInt_of_small {len : BitVec 32} (small : len.toNat < 2 ^ 31) : len.toInt = len.toNat := by
  rw [BitVec.toInt_eq_toNat_cond, if_pos (by omega)]

theorem readMemoryData_of_small (mem : ByteMemory) {fuel : ℕ} (addr : BitVec 32) {len : BitVec 32}
    (enough : len.toNat ≤ fuel) (small : len.toNat < 2 ^ 31) :
    readMemoryData mem fuel addr len = (region mem addr len.toNat).flatMap byteToHex := by
  induction fuel generalizing addr len with
  | zero =>
    rw [Nat.le_zero.mp enough]
    rfl
  | succ fuel ih =>
    rw [readMemoryData]
    split_ifs with zero
    · rw [zero]
      rfl
    · have some : 0 < len.toNat := by
        rw [Nat.pos_iff_ne_zero]
        intro none
        exact zero (BitVec.eq_of_toNat_eq none)
      let tx := min len.toNat (sizeBytes .long)
      have fits : tx ≤ len.toNat := min_le_left _ _
      have pos : 0 < tx := lt_min some (sizeBytes_pos _)
      have ordered : ¬len.toInt < tx := by
        rw [toInt_of_small small]
        omega
      have rest : (len - BitVec.ofNat 32 tx).toNat = len.toNat - tx := by
        rw [BitVec.toNat_sub, BitVec.toNat_ofNat]
        omega
      show memToHexbuf mem addr tx ++ readMemoryData mem fuel (addr + BitVec.ofNat 32 tx)
        (len - if len.toInt < tx then len else BitVec.ofNat 32 tx) = _
      rw [if_neg ordered, ih _ (by omega) (by omega), memToHexbuf_eq, rest, ← List.flatMap_append,
        ← region_add, Nat.add_sub_cancel' fits]

/-- A length with the sign bit stands for four bytes. -/
theorem readMemoryData_of_large (mem : ByteMemory) (addr : BitVec 32) {len : BitVec 32}
    (large : 2 ^ 31 ≤ len.toNat) :
    readMemoryData mem len.toNat addr len = (region mem addr 4).flatMap byteToHex := by
  obtain ⟨fuel, some⟩ := Nat.exists_eq_add_one_of_ne_zero
    (Nat.pos_iff_ne_zero.mp (lt_of_lt_of_le (by decide) large))
  have nonzero : len ≠ 0 := by
    rintro rfl
    exact absurd some (Nat.succ_ne_zero fuel).symm
  have tx : min len.toNat (sizeBytes .long) = 4 := min_eq_right (le_trans (by decide) large)
  have negative : len.toInt < (4 : ℕ) := by
    rw [BitVec.toInt_eq_toNat_cond, if_neg (by omega)]
    have := len.isLt
    omega
  rw [some, readMemoryData, if_neg nonzero]
  simp only [tx]
  rw [if_pos negative, BitVec.sub_self, memToHexbuf_eq]
  cases fuel <;> exact List.append_nil _

/-- The pieces make up the region. -/
theorem readMemoryData_eq (mem : ByteMemory) (addr len : BitVec 32) :
    readMemoryData mem len.toNat addr len = (region mem addr (readCount len)).flatMap byteToHex := by
  rw [readCount]
  split_ifs with small
  · exact readMemoryData_of_small mem addr le_rfl small
  · exact readMemoryData_of_large mem addr (not_lt.mp small)

/-- The packets that answer a read: only the first one has its own checksum. -/
theorem turns_readMemory (mem : ByteMemory) (addr len : BitVec 32) (n : ℕ) (sum : BitVec 8) :
    turns (readMemory mem addr len) n sum =
      (List.range n).flatMap fun k =>
        chr '$' :: readMemoryData mem len.toNat addr len ++
          footer (sum + BitVec.ofNat 8 (k + 1) * checksum (readMemoryData mem len.toNat addr len)) := by
  induction n generalizing sum with
  | zero => rfl
  | succ n ih =>
    have one : ∀ s : BitVec 8, BitVec.ofNat 8 (0 + 1) * s = s := BitVec.one_mul
    have next : ∀ (k : ℕ) (s : BitVec 8),
        sum + s + BitVec.ofNat 8 (k + 1) * s = sum + BitVec.ofNat 8 (k + 1 + 1) * s := by
      intro k s
      rw [BitVec.ofNat_add (k + 1) 1, BitVec.add_mul, BitVec.add_assoc, BitVec.add_comm s]
      congr 2
      exact (BitVec.one_mul s).symm
    rw [turns, ih, List.range_succ_eq_map, List.flatMap_cons, List.flatMap_map, one]
    congr 1
    refine List.flatMap_congr fun k _ => ?_
    show _ ++ footer (sum + checksum _ + _) = _ ++ footer _
    rw [next]

/-! ### Registers -/

theorem peekAll_eq_map (rf : RegisterFileS) {fuel n : ℕ} (fits : n ≤ 23) (enough : 23 < n + fuel) :
    peekAll rf fuel (BitVec.ofNat 32 n) =
      (RegisterId.all.drop n).map fun register => (register.toInt, rf.get register) := by
  induction fuel generalizing n with
  | zero => exact absurd enough (by omega)
  | succ fuel ih =>
    have at_n := RegisterId.all_getElem? n
    rcases Nat.lt_or_eq_of_le fits with less | rfl
    · rw [if_pos less] at at_n
      obtain ⟨register, some⟩ :
          ∃ register, RegisterId.ofInt (BitVec.ofNat 32 n) = some register := by
        rw [← Option.isSome_iff_exists, RegisterId.isSome_ofInt, BitVec.toNat_ofNat]
        omega
      rw [some] at at_n
      obtain ⟨bound, here⟩ := List.getElem?_eq_some_iff.mp at_n
      rw [peekAll, gdbPeekRegisterFile, some, Option.map_some, List.drop_eq_getElem_cons bound, here,
        List.map_cons, ← ih (n := n + 1) less (by omega), BitVec.ofNat_add,
        RegisterId.ofInt_eq_some_iff.mp some]
      rfl
    · rw [List.drop_eq_nil_of_le (show RegisterId.all.length ≤ 23 from le_rfl)]
      rfl

/-- The loops over the registers meet each of them once. -/
theorem peekAll_eq (rf : RegisterFileS) :
    peekAll rf registerFuel 0 =
      RegisterId.all.map fun register => (register.toInt, rf.get register) :=
  peekAll_eq_map rf (Nat.zero_le 23) (by decide)

end JCore.Gdb
