import JCore.Testrom.Monitor

/-!
# Requests

What a debugger asks for, in its own terms: the program that is debugged has registers and
a memory, a request reads or changes them, and a reply tells a part of them. The commands
of the monitor are how requests are spelled.

## Main definitions

* `Debuggee`, `Request`, `Reply`: the service
* `Debuggee.handle`: what a request does
* `Spells`: the texts of a request
* `Request.Served`: what the monitor answers as it should
* `Leave`: the requests that leave the monitor

## Main results

* `command_of_spells`: a command does what its request is to do
* `command_of_leaves`: and so does one that leaves
* `command_of_offsets`: the one query that it means to answer is not answered
* `takeBytes_escape`: every content has a text
-/

namespace JCore.Gdb

open Sim

/-! ### The service -/

/-- What a debugger sees of the program. -/
@[ext] structure Debuggee where
  regs : RegisterId → BitVec 32
  mem : ByteMemory

inductive Request where
  | lastSignal
  | readRegisters
  | writeRegisters (values : List (BitVec 32))
  | writeRegister (register : RegisterId) (val : BitVec 32)
  | readMemory (addr : BitVec 32) (len : ℕ)
  | writeMemory (addr : BitVec 32) (bytes : List (BitVec 8))
  | query (name : List (BitVec 8))
  | accepted
  | unknown

inductive Reply where
  | signal (sigval : BitVec 32)
  | values (list : List (BitVec 32))
  | bytes (list : List (BitVec 8))
  | offsets
  | ok
  | empty

namespace Debuggee

variable (d : Debuggee)

def registerFile : RegisterFileS where
  pr := d.regs .pr
  gbr := d.regs .gbr
  vbr := d.regs .vbr
  mach := d.regs .mach
  macl := d.regs .macl
  r := fun n => d.regs (.r n)
  pc := d.regs .pc
  sr := d.regs .sr

def writeRegister (register : RegisterId) (val : BitVec 32) : Debuggee :=
  { d with regs := fun other => if other = register then val else d.regs other }

/-- What a request leaves; a query, `accepted` and `unknown` change nothing. -/
def after : Request → Debuggee
  | .writeRegisters values =>
    (RegisterId.all.zip values).foldl (fun d write => d.writeRegister write.1 write.2) d
  | .writeRegister register val => d.writeRegister register val
  | .writeMemory addr bytes => { d with mem := storeRegion d.mem addr bytes }
  | _ => d

/-- What a request is answered with; of the queries only that for the offsets of the sections
is known. -/
def reply (sigval : BitVec 32) : Request → Reply
  | .lastSignal => .signal sigval
  | .readRegisters => .values (RegisterId.all.map d.regs)
  | .readMemory addr len => .bytes (region d.mem addr len)
  | .query name => if name = text "Offsets" then .offsets else .empty
  | .unknown => .empty
  | _ => .ok

end Debuggee

/-- The text of a reply. -/
def Reply.data : Reply → List (BitVec 8)
  | signal sigval =>
    [chr 'S', lnibbleToHex ((sigval.sshiftRight 4).setWidth 8), lnibbleToHex (sigval.setWidth 8)]
  | values list => list.flatMap longToHexbuf
  | bytes list => list.flatMap byteToHex
  | offsets => text "Text=0;Data=0;Bss=0"
  | ok => text "OK"
  | empty => []

/-- The packets of a reply that is sent `n` times. Where a region of the memory is sent again,
the checksum is a multiple of the right one. -/
def Request.packets (request : Request) (data : List (BitVec 8)) (n : ℕ) : List (BitVec 8) :=
  match request with
  | readMemory _ _ =>
    (List.range n).flatMap fun k =>
      chr '$' :: data ++ footer (BitVec.ofNat 8 (k + 1) * checksum data)
  | _ => (List.replicate n (frame data)).flatten

/-! ### Texts -/

/-- Another digit of a number. -/
def shiftIn (l : BitVec 32) (c : BitVec 8) : BitVec 32 := (l <<< 4) + hexToInt c

/-- The number that hex digits stand for. -/
def number (digits : List (BitVec 8)) : BitVec 32 := digits.foldl shiftIn 0

/-- The eight digits of a value. -/
def Spelt (digits : List (BitVec 8)) (val : BitVec 32) : Prop :=
  digits.length = 8 ∧ hexbufToLong digits = some val

/-- The characters that `gdb_monitor` knows. -/
def commandChars : List (BitVec 8) := text "?cDFgGHkmMPqsX"

/-- The data of the packets that ask for a request. -/
inductive Spells : List (BitVec 8) → Request → Prop where
  | lastSignal (more : List (BitVec 8)) : Spells (chr '?' :: more) .lastSignal
  | readRegisters (more : List (BitVec 8)) : Spells (chr 'g' :: more) .readRegisters
  | writeRegisters {digits : List (List (BitVec 8))} {values : List (BitVec 32)}
      (spelt : List.Forall₂ Spelt digits values) :
      Spells (chr 'G' :: digits.flatten) (.writeRegisters values)
  | writeRegister {id digits more : List (BitVec 8)} {register : RegisterId} {val : BitVec 32}
      (ends : chr '=' ∉ id) (named : number id = register.toInt) (spelt : Spelt digits val) :
      Spells (chr 'P' :: (id ++ chr '=' :: (digits ++ more))) (.writeRegister register val)
  | writeNone {id more : List (BitVec 8)} (ends : chr '=' ∉ id) (named : 23 ≤ (number id).toNat) :
      Spells (chr 'P' :: (id ++ chr '=' :: more)) .accepted
  | readMemory {addr len : List (BitVec 8)} (ends : chr ',' ∉ addr) :
      Spells (chr 'm' :: (addr ++ chr ',' :: len)) (.readMemory (number addr) (readCount (number len)))
  | writeMemory {addr len digits rest bytes : List (BitVec 8)} (ends : chr ',' ∉ addr)
      (ends' : chr ':' ∉ len)
      (spelt : takeBytes hexSpelling (count (number len)) digits = some (bytes, rest)) :
      Spells (chr 'M' :: (addr ++ chr ',' :: (len ++ chr ':' :: digits)))
        (.writeMemory (number addr) bytes)
  | writeBinary {addr len binary rest bytes : List (BitVec 8)} (ends : chr ',' ∉ addr)
      (ends' : chr ':' ∉ len)
      (spelt : takeBytes xbinToBin (count (number len)) binary = some (bytes, rest)) :
      Spells (chr 'X' :: (addr ++ chr ',' :: (len ++ chr ':' :: binary)))
        (.writeMemory (number addr) bytes)
  | setThread (more : List (BitVec 8)) : Spells (chr 'H' :: more) .accepted
  | query {name : List (BitVec 8)} (ends : 0 ∉ name) : Spells (chr 'q' :: name) (.query name)
  | unknown {c : BitVec 8} (more : List (BitVec 8)) (h : c ∉ commandChars) :
      Spells (c :: more) .unknown
  | nothing : Spells [] .unknown

/-- What the monitor is to be asked for: nothing that reaches into itself, and not the offsets,
which it does not recognise. -/
def Request.Served (own : Storage) : Request → Prop
  | readMemory addr len => own.Clear addr len
  | writeMemory addr bytes => own.Clear addr bytes.length
  | query name => name ≠ text "Offsets"
  | _ => True

/-- A request that leaves the monitor. -/
inductive Leave where
  | resume (addr : BitVec 32)
  | step (addr : BitVec 32)
  | reset
  | fileResult (value : BitVec 32)
  | fileError

namespace Leave

def exit : Leave → Exit
  | resume _ => .resume
  | step _ => .resume
  | reset => .reset
  | fileResult value => .ret value
  | fileError => .ret (-1)

def after (stub : Stub) : Leave → Stub
  | resume addr => gdbContinue stub addr
  | step addr => gdbStep stub addr
  | _ => stub

/-- A step does not reach into the monitor. -/
def Clear (own : Storage) (d : Debuggee) : Leave → Prop
  | step addr => StepsClear own (d.registerFile.startAt addr) d.mem
  | _ => True

/-- The program goes on without a reply. -/
def replies : Leave → Bool
  | resume _ | step _ | fileError => false
  | _ => true

/-- The data of the packets. -/
inductive Spells : List (BitVec 8) → Leave → Prop where
  | resume (addr : List (BitVec 8)) : Spells (chr 'c' :: addr) (.resume (number addr))
  | step (addr : List (BitVec 8)) : Spells (chr 's' :: addr) (.step (number addr))
  | detach (more : List (BitVec 8)) : Spells (chr 'D' :: more) .reset
  | kill (more : List (BitVec 8)) : Spells (chr 'k' :: more) .reset
  | fileResult {value : List (BitVec 8)} (positive : value.head? ≠ some (chr '-')) :
      Spells (chr 'F' :: value) (.fileResult (number value))
  | fileError (more : List (BitVec 8)) : Spells (chr 'F' :: chr '-' :: more) .fileError

end Leave

/-! ### What the stub keeps -/

/-- The program as the stub keeps it. -/
def Stub.view (stub : Stub) : Debuggee where
  regs := stub.registerFile.get
  mem := stub.mem

theorem get_poke (rf : RegisterFileS) {id : BitVec 32} {register : RegisterId}
    (named : id = register.toInt) (val : BitVec 32) (mem : ByteMemory) :
    Debuggee.mk (gdbPokeRegisterFile rf id val).get mem =
      (Debuggee.mk rf.get mem).writeRegister register val := by
  rw [gdbPokeRegisterFile, RegisterId.ofInt_eq_some_iff.mpr named]
  apply Debuggee.ext
  · funext other
    exact RegisterFileS.get_set rf register other val
  · rfl

theorem peek_of_named (rf : RegisterFileS) {id : BitVec 32} {register : RegisterId}
    (named : id = register.toInt) : gdbPeekRegisterFile rf id = some (rf.get register) := by
  rw [gdbPeekRegisterFile, RegisterId.ofInt_eq_some_iff.mpr named]
  rfl

theorem peek_of_large (rf : RegisterFileS) {id : BitVec 32} (large : 23 ≤ id.toNat) :
    gdbPeekRegisterFile rf id = none := by
  rw [gdbPeekRegisterFile, Option.map_eq_none_iff, ← Option.not_isSome_iff_eq_none,
    RegisterId.isSome_ofInt]
  exact not_lt.mpr large

/-! ### Reading texts -/

theorem hargsParseLong_append {delim : BitVec 8} {digits : List (BitVec 8)} (ends : delim ∉ digits)
    (rest : List (BitVec 8)) (l : BitVec 32) :
    hargsParseLong delim (digits ++ delim :: rest) l =
      some (digits.foldl shiftIn l, rest) := by
  induction digits generalizing l with
  | nil => rw [List.nil_append, hargsParseLong, if_pos rfl, List.foldl_nil]
  | cons c digits ih =>
    rw [List.mem_cons, not_or] at ends
    rw [List.cons_append, hargsParseLong, if_neg (Ne.symm ends.1), ih ends.2]
    rfl

theorem parse_number {delim : BitVec 8} {digits : List (BitVec 8)} (ends : delim ∉ digits)
    (rest : List (BitVec 8)) :
    hargsParseLong delim (digits ++ delim :: rest) 0 = some (number digits, rest) :=
  hargsParseLong_append ends rest 0

/-- What is behind a byte does not change it. -/
def Spelling.Local (spelling : Spelling) : Prop :=
  ∀ {buf rest : List (BitVec 8)} {b : BitVec 8}, spelling buf = some (b, rest) →
    ∀ more, spelling (buf ++ more) = some (b, rest ++ more)

theorem local_hexSpelling : hexSpelling.Local := by
  intro buf rest b h more
  rcases buf with _ | ⟨hi, _ | ⟨lo, buf⟩⟩
  · exact absurd h (Option.some_ne_none _).symm
  · exact absurd h (Option.some_ne_none _).symm
  · obtain ⟨rfl, rfl⟩ := Prod.mk.inj (Option.some.inj h)
    rfl

theorem local_xbinToBin : xbinToBin.Local := by
  intro buf rest b h more
  rcases buf with _ | ⟨x, buf⟩
  · exact absurd h (Option.some_ne_none _).symm
  · rw [xbinToBin] at h
    rw [List.cons_append, xbinToBin]
    by_cases mark : x = 0x7d
    · rw [if_pos mark] at h
      rw [if_pos mark]
      rcases buf with _ | ⟨y, buf⟩
      · exact absurd h (Option.some_ne_none _).symm
      · obtain ⟨rfl, rfl⟩ := Prod.mk.inj (Option.some.inj h)
        rfl
    · rw [if_neg mark] at h
      rw [if_neg mark]
      obtain ⟨rfl, rfl⟩ := Prod.mk.inj (Option.some.inj h)
      rfl

theorem takeBytes_append {spelling : Spelling} (hlocal : spelling.Local) {n : ℕ}
    {buf bytes rest : List (BitVec 8)} (h : takeBytes spelling n buf = some (bytes, rest))
    (more : List (BitVec 8)) : takeBytes spelling n (buf ++ more) = some (bytes, rest ++ more) := by
  induction n generalizing buf bytes with
  | zero =>
    obtain ⟨rfl, rfl⟩ := Prod.mk.inj (Option.some.inj h)
    rfl
  | succ n ih =>
    obtain ⟨b, after, tail, spelt, later, rfl⟩ := takeBytes_succ.mp h
    exact takeBytes_succ.mpr ⟨b, after ++ more, tail, hlocal spelt more, ih later, rfl⟩

theorem count_le (len : BitVec 32) : count len ≤ 2 ^ 32 := by
  have := @BitVec.toInt_lt 32 len
  rw [count]
  omega

theorem hexbufToLong_append {digits : List (BitVec 8)} {val : BitVec 32} (spelt : Spelt digits val)
    (more : List (BitVec 8)) : hexbufToLong (digits ++ more) = some val := by
  obtain ⟨-, spelt⟩ := spelt
  rw [hexbufToLong, Option.map_eq_some_iff] at spelt ⊢
  obtain ⟨taken, h, rfl⟩ := spelt
  exact ⟨_, takeBytes_append local_hexSpelling h more, rfl⟩

/-! ### Commands -/

/-- A command does what a request is to do. -/
structure Serves (stub : Stub) (sigval : BitVec 32) (request : Request) (answer : Answer) : Prop where
  view : answer.stub.view = stub.view.after request
  stepped : answer.stub.steppedOpcode = stub.steppedOpcode
  goesOn : answer.exit = none
  packets : ∃ send, answer.reply = some send ∧
    ∀ n, turns send n 0 = request.packets (stub.view.reply sigval request).data n

section Commands

variable {own : Storage} {stub : Stub} {sigval : BitVec 32} (more : List (BitVec 8))

/-- A reply that is the same each time. -/
theorem packets_of_const {send : Sender} {data : List (BitVec 8)}
    (h : ∀ sum, (send sum).1 = frame data) {request : Request}
    (other : ∀ n, request.packets data n = (List.replicate n (frame data)).flatten) :
    ∃ send', some send = some send' ∧ ∀ n, turns send' n 0 = request.packets data n := by
  refine ⟨send, rfl, fun n => ?_⟩
  rw [other, turns_const h]

theorem putmsg_ok (sum : BitVec 8) : (ok sum).1 = frame (text "OK") := putmsg_fst 0 _ sum

theorem serves_lastSignal : Serves stub sigval .lastSignal (stub.answering (lastSignal sigval)) where
  view := rfl
  stepped := rfl
  goesOn := rfl
  packets := packets_of_const (putmsg_fst _ _) fun _ => rfl

theorem serves_readRegisters :
    Serves stub sigval .readRegisters (stub.answering (readRegisters stub.registerFile)) where
  view := rfl
  stepped := rfl
  goesOn := rfl
  packets := by
    have data : readRegistersData stub.registerFile =
        (stub.view.reply sigval .readRegisters).data := by
      rw [readRegistersData, peekAll_eq, List.flatMap_map]
      exact (List.flatMap_map _ _ _).symm
    refine packets_of_const (fun sum => ?_) fun _ => rfl
    rw [← data]
    rfl

theorem serves_readMemory (addr len : BitVec 32) :
    Serves stub sigval (.readMemory addr (readCount len))
      (stub.answering (readMemory stub.mem addr len)) where
  view := rfl
  stepped := rfl
  goesOn := rfl
  packets := by
    refine ⟨readMemory stub.mem addr len, rfl, fun n => ?_⟩
    rw [turns_readMemory, readMemoryData_eq]
    refine List.flatMap_congr fun k _ => ?_
    rw [show ∀ x : BitVec 8, 0 + x = x from BitVec.zero_add]
    rfl

theorem serves_accepted : Serves stub sigval .accepted (stub.answering ok) where
  view := rfl
  stepped := rfl
  goesOn := rfl
  packets := packets_of_const putmsg_ok fun _ => rfl

theorem serves_unknown : Serves stub sigval .unknown (stub.answering (putmsg 0 [])) where
  view := rfl
  stepped := rfl
  goesOn := rfl
  packets := packets_of_const (putmsg_fst _ _) fun _ => rfl

theorem serves_query {name : List (BitVec 8)} (other : name ≠ text "Offsets") :
    Serves stub sigval (.query name) (stub.answering (putmsg 0 [])) where
  view := rfl
  stepped := rfl
  goesOn := rfl
  packets := by
    refine packets_of_const (fun sum => ?_) fun _ => rfl
    rw [Debuggee.reply, if_neg other]
    exact putmsg_fst _ _ sum

theorem serves_writeRegister {register : RegisterId} {id : BitVec 32} (named : id = register.toInt)
    (val : BitVec 32) :
    Serves stub sigval (.writeRegister register val)
      (Stub.answering
        { stub with registerFile := gdbPokeRegisterFile stub.registerFile id val } ok) where
  view := get_poke stub.registerFile named val stub.mem
  stepped := rfl
  goesOn := rfl
  packets := packets_of_const putmsg_ok fun _ => rfl

theorem serves_writeMemory (addr : BitVec 32) (bytes : List (BitVec 8)) :
    Serves stub sigval (.writeMemory addr bytes)
      (Stub.answering { stub with mem := storeRegion stub.mem addr bytes } ok) where
  view := rfl
  stepped := rfl
  goesOn := rfl
  packets := packets_of_const putmsg_ok fun _ => rfl

/-- A region is written from its text. -/
theorem writeRegion_eq {spelling : Spelling} (hlocal : spelling.Local)
    {addr len digits rest bytes : List (BitVec 8)} (ends : chr ',' ∉ addr) (ends' : chr ':' ∉ len)
    (spelt : takeBytes spelling (count (number len)) digits = some (bytes, rest))
    (clear : own.Clear (number addr) bytes.length) :
    writeRegion own stub (addr ++ chr ',' :: (len ++ chr ':' :: (digits ++ more)))
        (fun buf a n => bufToMem spelling (accesses a n) buf) =
      some (Stub.answering { stub with mem := storeRegion stub.mem (number addr) bytes } ok) := by
  rw [takeBytes_length spelt] at clear
  rw [writeRegion, parse_number ends, Option.bind_some, parse_number ends', Option.bind_some,
    if_pos clear, bufToMem_eq spelling _ (count_le _) _ (takeBytes_append hlocal spelt more)]
  rfl

/-- The registers are written in order, as long as there are both numbers and values. -/
theorem pokeAll_eq {digits : List (List (BitVec 8))} {values : List (BitVec 32)}
    (spelt : List.Forall₂ Spelt digits values) (clean : chr '#' ∉ digits.flatten) {fuel n : ℕ}
    (fits : n ≤ 23) (enough : 23 < n + fuel) (rf : RegisterFileS) (mem : ByteMemory) :
    ∃ rf', pokeAll fuel (BitVec.ofNat 32 n) rf (digits.flatten ++ chr '#' :: more) = some rf' ∧
      Debuggee.mk rf'.get mem =
        ((RegisterId.all.drop n).zip values).foldl (fun d write => d.writeRegister write.1 write.2)
          (Debuggee.mk rf.get mem) := by
  induction spelt generalizing fuel n rf with
  | nil =>
    obtain ⟨fuel, rfl⟩ := Nat.exists_eq_add_one_of_ne_zero (show fuel ≠ 0 by omega)
    refine ⟨rf, ?_, ?_⟩
    · rw [List.flatten_nil, List.nil_append, pokeAll, if_pos rfl]
    · rw [List.zip_nil_right, List.foldl_nil]
  | cons spelt rest ih =>
    rename_i chunk val chunks values
    obtain ⟨fuel, rfl⟩ := Nat.exists_eq_add_one_of_ne_zero (show fuel ≠ 0 by omega)
    rw [List.flatten_cons, List.mem_append, not_or] at clean
    obtain ⟨c, tail, rfl⟩ := List.exists_cons_of_length_pos (by rw [spelt.1]; decide)
    have first : c ≠ chr '#' := fun same => clean.1 (same ▸ List.mem_cons_self)
    have value := hexbufToLong_append spelt (chunks.flatten ++ chr '#' :: more)
    have further : (c :: tail ++ (chunks.flatten ++ chr '#' :: more)).drop 8 =
        chunks.flatten ++ chr '#' :: more := List.drop_left' spelt.1
    rw [List.flatten_cons, List.append_assoc]
    rw [List.cons_append] at value further ⊢
    rcases Nat.lt_or_eq_of_le fits with less | rfl
    · have at_n := RegisterId.all_getElem? n
      obtain ⟨register, some⟩ :
          ∃ register, RegisterId.ofInt (BitVec.ofNat 32 n) = some register := by
        rw [← Option.isSome_iff_exists, RegisterId.isSome_ofInt, BitVec.toNat_ofNat]
        omega
      rw [if_pos less, some] at at_n
      obtain ⟨bound, here⟩ := List.getElem?_eq_some_iff.mp at_n
      have named := RegisterId.ofInt_eq_some_iff.mp some
      have further' : 23 < n + 1 + fuel := by omega
      obtain ⟨rf', pokes, view⟩ := ih clean.2 (n := n + 1) less further'
        (gdbPokeRegisterFile rf (BitVec.ofNat 32 n) val)
      refine ⟨rf', ?_, ?_⟩
      · rw [pokeAll, if_neg first, peek_of_named rf named]
        show (hexbufToLong _).bind _ = _
        rw [value, Option.bind_some, further, ← pokes, BitVec.ofNat_add]
        rfl
      · rw [view, get_poke rf named, List.drop_eq_getElem_cons bound, here]
        rfl
    · refine ⟨rf, ?_, ?_⟩
      · rw [pokeAll, if_neg first, peek_of_large rf (by decide)]
      · rw [List.drop_eq_nil_of_le (show RegisterId.all.length ≤ 23 from le_rfl), List.zip_nil_left,
          List.foldl_nil]

/-- A text without a zero is not the one that is looked for, as the end of the packet is still
behind it. -/
theorem strcmp_ne_zero {name : List (BitVec 8)} (ends : 0 ∉ name) (target : List (BitVec 8))
    (clean : chr '#' ∉ target) (closed : 0 ∉ target) :
    ∃ order, strcmp (name ++ chr '#' :: more) (target ++ [0]) = some order ∧ order ≠ 0 := by
  have differ : ∀ a b : BitVec 8, a ≠ b → a.signExtend 32 - b.signExtend 32 ≠ 0 := by
    intro a b h zero
    refine h ?_
    rw [sub_eq_zero] at zero
    have low := congrArg (BitVec.setWidth 8) zero
    have back : ∀ x : BitVec 8, (x.signExtend 32).setWidth 8 = x := by decide
    rwa [back, back] at low
  induction name generalizing target with
  | nil =>
    cases target with
    | nil =>
      refine ⟨_, ?_, differ (chr '#') 0 (by decide)⟩
      rw [List.nil_append, List.nil_append, strcmp, if_neg (fun h => h.2.1 rfl)]
    | cons b target =>
      rw [List.mem_cons, not_or] at clean
      refine ⟨_, ?_, differ (chr '#') b clean.1⟩
      rw [List.nil_append, List.cons_append, strcmp, if_neg (fun h => clean.1 h.2.2)]
  | cons a name ih =>
    rw [List.mem_cons, not_or] at ends
    cases target with
    | nil =>
      refine ⟨_, ?_, differ a 0 (Ne.symm ends.1)⟩
      rw [List.cons_append, List.nil_append, strcmp, if_neg (fun h => h.2.1 rfl)]
    | cons b target =>
      rw [List.mem_cons, not_or] at clean closed
      by_cases same : a = b
      · obtain ⟨order, h, nonzero⟩ := ih ends.2 target clean.2 closed.2
        refine ⟨order, ?_, nonzero⟩
        rw [List.cons_append, List.cons_append, strcmp,
          if_pos ⟨Ne.symm ends.1, Ne.symm closed.1, same⟩, h]
      · refine ⟨_, ?_, differ a b same⟩
        rw [List.cons_append, List.cons_append, strcmp, if_neg (fun h => same h.2.2)]

/-- A character that the switch does not name. -/
theorem command_of_unknown {c : BitVec 8} (h : c ∉ commandChars) (hargs : List (BitVec 8)) :
    command own stub sigval (c :: hargs) = some (stub.answering (putmsg 0 [])) := by
  simp only [commandChars, text, show "?cDFgGHkmMPqsX".toList =
    ['?', 'c', 'D', 'F', 'g', 'G', 'H', 'k', 'm', 'M', 'P', 'q', 's', 'X'] from rfl, List.map_cons,
    List.map_nil, List.mem_cons, List.not_mem_nil, or_false, not_or] at h
  simp only [command, h, if_false]

variable (own stub sigval)

/-- A query is answered with nothing, the one for the offsets as well. -/
theorem command_of_query {name : List (BitVec 8)} (ends : 0 ∉ name) :
    command own stub sigval (chr 'q' :: name ++ chr '#' :: more) =
      some (stub.answering (putmsg 0 [])) := by
  obtain ⟨order, compared, nonzero⟩ :=
    strcmp_ne_zero more ends (text "Offsets") (by decide) (by decide)
  rw [List.cons_append]
  show queryCommand stub _ = _
  rw [queryCommand, compared, Option.map_some, if_neg nonzero]

/-- The request for the offsets is the one that is not served. -/
theorem command_of_offsets : Spells (text "qOffsets") (.query (text "Offsets")) ∧
    (∀ own, ¬(Request.query (text "Offsets")).Served own) ∧
    ¬∃ answer, command own stub sigval (text "qOffsets" ++ chr '#' :: more) = some answer ∧
      Serves stub sigval (.query (text "Offsets")) answer := by
  refine ⟨.query (by decide), fun _ other => other rfl, ?_⟩
  rintro ⟨answer, commanded, serves⟩
  have none : command own stub sigval (chr 'q' :: text "Offsets" ++ chr '#' :: more) =
      some (stub.answering (putmsg 0 [])) := command_of_query own stub sigval more (by decide)
  obtain rfl := Option.some.inj (none.symm.trans commanded)
  obtain ⟨send, reply, packets⟩ := serves.packets
  obtain rfl := Option.some.inj reply
  have empty := packets 1
  have due : (stub.view.reply sigval (.query (text "Offsets"))).data =
      text "Text=0;Data=0;Bss=0" := rfl
  rw [turns_const (putmsg_fst 0 []), due] at empty
  exact absurd empty (by decide)

/-- A command does what its request is to do. -/
theorem command_of_spells {data : List (BitVec 8)} {request : Request} (h : Spells data request)
    (served : request.Served own) (clean : chr '#' ∉ data) :
    ∃ answer, command own stub sigval (data ++ chr '#' :: more) = some answer ∧
      Serves stub sigval request answer := by
  cases h with
  | lastSignal _ => exact ⟨_, rfl, serves_lastSignal⟩
  | readRegisters _ => exact ⟨_, rfl, serves_readRegisters⟩
  | writeRegisters spelt =>
    rw [List.mem_cons, not_or] at clean
    obtain ⟨rf, pokes, view⟩ := pokeAll_eq more spelt clean.2 (Nat.zero_le 23)
      (show 23 < 0 + registerFuel by decide) stub.registerFile stub.mem
    refine ⟨Stub.answering { stub with registerFile := rf } ok, ?_, ⟨view, rfl, rfl,
      packets_of_const putmsg_ok fun _ => rfl⟩⟩
    rw [List.cons_append]
    show writeRegistersCommand stub _ = _
    rw [writeRegistersCommand, show (0 : BitVec 32) = BitVec.ofNat 32 0 from rfl, pokes]
    rfl
  | writeRegister ends named spelt =>
    refine ⟨_, ?_, serves_writeRegister named _⟩
    rw [List.cons_append, List.append_assoc, List.cons_append, List.append_assoc]
    show writeRegisterCommand stub _ = _
    rw [writeRegisterCommand, parse_number ends, Option.bind_some, peek_of_named _ named]
    show (hexbufToLong _).map _ = _
    rw [hexbufToLong_append spelt]
    rfl
  | writeNone ends named =>
    refine ⟨_, ?_, serves_accepted⟩
    rw [List.cons_append, List.append_assoc, List.cons_append]
    show writeRegisterCommand stub _ = _
    rw [writeRegisterCommand, parse_number ends, Option.bind_some, peek_of_large _ named]
  | readMemory ends =>
    refine ⟨_, ?_, serves_readMemory _ _⟩
    rw [List.mem_cons, List.mem_append, List.mem_cons, not_or, not_or, not_or] at clean
    rw [List.cons_append, List.append_assoc, List.cons_append]
    show readMemoryCommand own stub _ = _
    rw [readMemoryCommand, parse_number ends, Option.bind_some, parse_number clean.2.2.2,
      Option.bind_some]
    exact if_pos served
  | writeMemory ends ends' spelt =>
    refine ⟨_, ?_, serves_writeMemory _ _⟩
    rw [List.cons_append, List.append_assoc, List.cons_append, List.append_assoc, List.cons_append]
    exact writeRegion_eq _ local_hexSpelling ends ends' spelt served
  | writeBinary ends ends' spelt =>
    refine ⟨_, ?_, serves_writeMemory _ _⟩
    rw [List.cons_append, List.append_assoc, List.cons_append, List.append_assoc, List.cons_append]
    exact writeRegion_eq _ local_xbinToBin ends ends' spelt served
  | setThread _ => exact ⟨_, rfl, serves_accepted⟩
  | query ends => exact ⟨_, command_of_query own stub sigval more ends, serves_query served⟩
  | unknown _ named => exact ⟨_, command_of_unknown named _, serves_unknown⟩
  | nothing => exact ⟨_, command_of_unknown (by decide) _, serves_unknown⟩

/-- A command that leaves the monitor. -/
structure Leaves (stub : Stub) (leave : Leave) (answer : Answer) : Prop where
  stub : answer.stub = leave.after stub
  exit : answer.exit = some leave.exit
  reply : answer.reply = if leave.replies then some ok else none

theorem command_of_leaves {data : List (BitVec 8)} {leave : Leave} (h : leave.Spells data)
    (clear : leave.Clear own stub.view) (clean : chr '#' ∉ data) :
    ∃ answer, command own stub sigval (data ++ chr '#' :: more) = some answer ∧
      Leaves stub leave answer := by
  cases h with
  | resume addr =>
    rw [List.mem_cons, not_or] at clean
    refine ⟨{ stub := gdbContinue stub (number addr), reply := none, exit := some .resume }, ?_,
      ⟨rfl, rfl, rfl⟩⟩
    rw [List.cons_append]
    show (hargsParseLong _ _ 0).map _ = _
    rw [parse_number clean.2]
    rfl
  | step addr =>
    rw [List.mem_cons, not_or] at clean
    refine ⟨{ stub := gdbStep stub (number addr), reply := none, exit := some .resume }, ?_,
      ⟨rfl, rfl, rfl⟩⟩
    rw [List.cons_append]
    show (hargsParseLong _ _ 0).bind _ = _
    rw [parse_number clean.2, Option.bind_some]
    exact if_pos clear
  | detach _ => exact ⟨_, rfl, ⟨rfl, rfl, rfl⟩⟩
  | kill _ => exact ⟨_, rfl, ⟨rfl, rfl, rfl⟩⟩
  | fileResult positive =>
    rename_i value
    rw [List.mem_cons, not_or] at clean
    refine ⟨{ stub := stub, reply := some ok, exit := some (.ret (number value)) }, ?_,
      ⟨rfl, rfl, rfl⟩⟩
    have first : (value ++ chr '#' :: more).head? ≠ some (chr '-') := by
      cases value with
      | nil =>
        show some (chr '#') ≠ some (chr '-')
        decide
      | cons c value => exact positive
    rw [List.cons_append]
    show fileCommand stub _ = _
    rw [fileCommand, if_neg first, parse_number clean.2]
    rfl
  | fileError _ => exact ⟨_, rfl, ⟨rfl, rfl, rfl⟩⟩

end Commands

/-! ### Texts of contents -/

/-- A byte that would end the packet, or begin one, or look like the mark, stands behind the
mark. -/
def escape (b : BitVec 8) : List (BitVec 8) :=
  if b = chr '#' ∨ b = chr '$' ∨ b = 0x7d then [0x7d, b ^^^ 0x20] else [b]

theorem takeBytes_escape (bytes more : List (BitVec 8)) :
    takeBytes xbinToBin bytes.length (bytes.flatMap escape ++ more) = some (bytes, more) := by
  induction bytes with
  | nil => rfl
  | cons b bytes ih =>
    refine takeBytes_succ.mpr ⟨b, bytes.flatMap escape ++ more, bytes, ?_, ih, rfl⟩
    rw [List.flatMap_cons, escape]
    split_ifs with special
    · rw [List.append_assoc, List.cons_append, xbinToBin, if_pos rfl]
      show some (b ^^^ 0x20 ^^^ 0x20, _) = _
      rw [BitVec.xor_assoc, BitVec.xor_self, BitVec.xor_zero]
      rfl
    · rw [List.append_assoc, List.singleton_append, xbinToBin, if_neg fun h => special (.inr (.inr h))]

end JCore.Gdb
