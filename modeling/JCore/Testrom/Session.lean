import JCore.Testrom.Requests

/-!
# Debug sessions

A whole session of the GDB stub over a serial line that loses and garbles packets: the
debugger is told why the program stopped, has requests served, and lets the program go. On
both sides packets are refused and sent again. The registers and the memory are those of
the service, and the packets are its replies.

## Main definitions

* `Exchange`, `Parting`: a request on the line, and the last one
* `Debuggee.run`, `Debuggee.transcript`: what requests leave, and what they are answered with

## Main results

* `gdbHandleException_session`: the stub carries out a session
* `session_reads_back`: what was written is read back later
* `read_again`: which packets of a region may be accepted
-/

namespace JCore.Gdb

open Sim

/-! ### The line -/

/-- A request on the line: the packets that were refused before it, and the answers that
refused its reply. -/
structure Exchange where
  refused : List Heard
  taken : Heard
  request : Request
  naks : List (BitVec 8)

/-- What comes in until a packet is taken. -/
def arrival (refused : List Heard) (taken : Heard) : List (BitVec 8) :=
  refused.flatMap Heard.bytes ++ taken.bytes

/-- Only the last packet is right. -/
structure Arrives (room : ℕ) (refused : List Heard) (taken : Heard) : Prop where
  fits : ∀ heard ∈ refused, heard.Fits room
  refused : ∀ heard ∈ refused, ¬heard.Intact
  takenFits : taken.Fits room
  taken : taken.Intact

/-- What is answered to packets up to the one that is taken. -/
def receipt (refused : List Heard) : List (BitVec 8) :=
  List.replicate refused.length (chr '-') ++ [chr '+']

namespace Exchange

variable (x : Exchange)

def input : List (BitVec 8) := arrival x.refused x.taken ++ (x.naks ++ [chr '+'])

structure Proper (own : Storage) (room : ℕ) : Prop where
  arrives : Arrives room x.refused x.taken
  spells : Spells x.taken.data x.request
  served : x.request.Served own
  naks : chr '+' ∉ x.naks

/-- What is sent, with the program in the state `d`. -/
def output (sigval : BitVec 32) (d : Debuggee) : List (BitVec 8) :=
  receipt x.refused ++ x.request.packets (d.reply sigval x.request).data (x.naks.length + 1)

end Exchange

/-- The last request on the line. -/
structure Parting where
  refused : List Heard
  taken : Heard
  leave : Leave
  naks : List (BitVec 8)

namespace Parting

variable (p : Parting)

def input : List (BitVec 8) :=
  arrival p.refused p.taken ++ if p.leave.replies then p.naks ++ [chr '+'] else []

structure Proper (room : ℕ) : Prop where
  arrives : Arrives room p.refused p.taken
  spells : p.leave.Spells p.taken.data
  naks : chr '+' ∉ p.naks

def output : List (BitVec 8) :=
  receipt p.refused ++
    if p.leave.replies then (List.replicate (p.naks.length + 1) (frame (text "OK"))).flatten else []

end Parting

namespace Debuggee

/-- What requests leave. -/
def run (d : Debuggee) (xs : List Exchange) : Debuggee := xs.foldl (fun d x => d.after x.request) d

/-- What is sent for requests. -/
def transcript (sigval : BitVec 32) : Debuggee → List Exchange → List (BitVec 8)
  | _, [] => []
  | d, x :: xs => x.output sigval d ++ transcript sigval (d.after x.request) xs

theorem transcript_append (sigval : BitVec 32) (d : Debuggee) (xs ys : List Exchange) :
    d.transcript sigval (xs ++ ys) = d.transcript sigval xs ++ (d.run xs).transcript sigval ys := by
  induction xs generalizing d with
  | nil => rfl
  | cons x xs ih =>
    rw [List.cons_append, transcript, ih, transcript, List.append_assoc]
    rfl

/-- The packet that says why the program stopped. -/
def stopReply (d : Debuggee) (sigval : BitVec 32) : List (BitVec 8) :=
  chr 'T' :: lnibbleToHex ((sigval.sshiftRight 4).setWidth 8) :: lnibbleToHex (sigval.setWidth 8) ::
    RegisterId.all.flatMap fun register =>
      byteToHex (register.toInt.setWidth 8) ++
        chr ':' :: longToHexbuf (d.regs register) ++ [chr ';']

end Debuggee

/-! ### One request -/

section Serving

variable {own : Storage} (sigval : BitVec 32) (stub : Stub) {rxbuf : List (BitVec 8)}

/-- A packet is taken behind those that are refused. -/
theorem getmsg_arrival {refused : List Heard} {taken : Heard}
    (arrives : Arrives rxbuf.length refused taken) (rest : List (BitVec 8)) :
    getmsg rxbuf (arrival refused taken ++ rest) =
      some
        { rxbuf := received (refusals rxbuf refused) taken.data, sent := receipt refused,
          rest := rest } := by
  have room := length_refusals arrives.fits
  rw [arrival, List.append_assoc, getmsg_refusals arrives.fits arrives.refused,
    getmsg_heard (by rw [room]; exact arrives.takenFits), if_pos arrives.taken]
  rfl

theorem length_buffer {refused : List Heard} {taken : Heard}
    (arrives : Arrives rxbuf.length refused taken) :
    (received (refusals rxbuf refused) taken.data).length = rxbuf.length := by
  have room := length_refusals arrives.fits
  rw [length_received (by rw [room]; exact arrives.takenFits.room), room]

/-- The monitor serves a request and goes on. -/
theorem serve_exchange {x : Exchange} (proper : x.Proper own rxbuf.length) (rest : List (BitVec 8))
    (fuel : ℕ) :
    ∃ stub' : Stub, ∃ rxbuf' : List (BitVec 8), rxbuf'.length = rxbuf.length ∧
      stub'.view = stub.view.after x.request ∧ stub'.steppedOpcode = stub.steppedOpcode ∧
      serve own sigval (fuel + 1) stub rxbuf (x.input ++ rest) =
        (serve own sigval fuel stub' rxbuf' rest).map fun later =>
          { later with sent := x.output sigval stub.view ++ later.sent } := by
  obtain ⟨answer, commanded, serves⟩ := command_of_spells own stub sigval
    (0 :: (refusals rxbuf x.refused).drop (x.taken.data.length + 2))
    proper.spells proper.served proper.arrives.takenFits.data
  obtain ⟨send, reply, packets⟩ := serves.packets
  have sent : answer.transmit (x.naks ++ chr '+' :: rest) =
      some
        { sent := x.request.packets (stub.view.reply sigval x.request).data (x.naks.length + 1),
          rest := rest } := by
    rw [Answer.transmit, reply]
    show untilAck send 0 _ = _
    rw [untilAck_append proper.naks, packets]
  refine ⟨answer.stub, _, length_buffer proper.arrives, serves.view, serves.stepped, ?_⟩
  rw [serve, Exchange.input, List.append_assoc, getmsg_arrival proper.arrives, Option.bind_some]
  show (command own stub sigval (x.taken.data ++ chr '#' :: 0 :: _)).bind _ = _
  rw [commanded, Option.bind_some, List.append_assoc]
  show (answer.transmit (x.naks ++ chr '+' :: rest)).bind _ = _
  rw [sent, Option.bind_some, serves.goesOn]
  rfl

/-- The monitor is left. -/
theorem serve_parting {p : Parting} (proper : p.Proper rxbuf.length) (clear : p.leave.Clear own stub.view)
    (rest : List (BitVec 8)) (fuel : ℕ) :
    serve own sigval (fuel + 1) stub rxbuf (p.input ++ rest) =
      some
        { stub := p.leave.after stub, exit := p.leave.exit, sent := p.output, rest := rest } := by
  obtain ⟨answer, commanded, leaves⟩ := command_of_leaves own stub sigval
    (0 :: (refusals rxbuf p.refused).drop (p.taken.data.length + 2))
    proper.spells clear proper.arrives.takenFits.data
  have sent : answer.transmit ((if p.leave.replies then p.naks ++ [chr '+'] else []) ++ rest) =
      some
        { sent :=
            if p.leave.replies then (List.replicate (p.naks.length + 1) (frame (text "OK"))).flatten
            else []
          rest := rest } := by
    rw [Answer.transmit, leaves.reply]
    by_cases replies : p.leave.replies = true
    · rw [if_pos replies, if_pos replies, if_pos replies, List.append_assoc]
      show untilAck ok 0 (p.naks ++ chr '+' :: rest) = _
      rw [untilAck_append proper.naks, turns_const putmsg_ok]
    · rw [if_neg replies, if_neg replies, if_neg replies]
      rfl
  rw [serve, Parting.input, List.append_assoc, getmsg_arrival proper.arrives, Option.bind_some]
  show (command own stub sigval (p.taken.data ++ chr '#' :: 0 :: _)).bind _ = _
  rw [commanded, Option.bind_some, sent, Option.bind_some, leaves.exit]
  show some (Outcome.mk answer.stub _ _ _) = _
  rw [leaves.stub]
  rfl

/-! ### Sessions -/

/-- Requests are served one after the other. -/
theorem serve_session {xs : List Exchange} (proper : ∀ x ∈ xs, x.Proper own rxbuf.length)
    {p : Parting} (leaves : p.Proper rxbuf.length)
    (clear : p.leave.Clear own (stub.view.run xs)) {fuel : ℕ} (enough : xs.length < fuel) (rest : List (BitVec 8)) :
    ∃ last : Stub, last.view = stub.view.run xs ∧ last.steppedOpcode = stub.steppedOpcode ∧
      serve own sigval fuel stub rxbuf (xs.flatMap Exchange.input ++ (p.input ++ rest)) =
        some
          { stub := p.leave.after last, exit := p.leave.exit,
            sent := stub.view.transcript sigval xs ++ p.output, rest := rest } := by
  induction xs generalizing stub rxbuf fuel with
  | nil =>
    obtain ⟨fuel, rfl⟩ := Nat.exists_eq_add_one_of_ne_zero (Nat.ne_of_gt enough)
    refine ⟨stub, rfl, rfl, ?_⟩
    rw [List.flatMap_nil, List.nil_append, serve_parting sigval stub leaves clear]
    rfl
  | cons x xs ih =>
    obtain ⟨fuel, rfl⟩ := Nat.exists_eq_add_one_of_ne_zero (Nat.ne_of_gt (Nat.zero_lt_of_lt enough))
    rw [List.forall_mem_cons] at proper
    obtain ⟨stub', rxbuf', same, view, stepped, served⟩ := serve_exchange sigval stub
      proper.1 (xs.flatMap Exchange.input ++ (p.input ++ rest)) fuel
    obtain ⟨last, run, stepped', later⟩ := ih stub' (by rw [same]; exact proper.2)
      (by rw [same]; exact leaves) (by rw [view]; exact clear) (Nat.lt_of_succ_lt_succ enough)
    refine ⟨last, ?_, stepped'.trans stepped, ?_⟩
    · rw [run, view]
      rfl
    · rw [List.flatMap_cons, List.append_assoc, served, later, view, Debuggee.transcript,
        List.append_assoc]
      rfl

theorem length_input_pos (x : Exchange) : 0 < x.input.length := by
  rw [Exchange.input, List.length_append, List.length_append, List.length_singleton]
  omega

theorem length_le_input (xs : List Exchange) :
    xs.length ≤ (xs.flatMap Exchange.input).length := by
  induction xs with
  | nil => exact le_rfl
  | cons x xs ih =>
    have pos := length_input_pos x
    rw [List.flatMap_cons, List.length_append, List.length_cons]
    omega

theorem length_parting_pos (p : Parting) : 0 < p.input.length := by
  rw [Parting.input, List.length_append, arrival, List.length_append, Heard.bytes,
    List.length_append, List.length_cons]
  omega

end Serving

/-- The first packet is the state of the program. -/
theorem expedited_fst (stub : Stub) (sigval : BitVec 32) (sum : BitVec 8) :
    (expedited stub.registerFile sigval sum).1 = frame (stub.view.stopReply sigval) := by
  have digits : ∀ register : RegisterId,
      lnibbleToHex ((register.toInt.sshiftRight 4).setWidth 8) =
        lnibbleToHex ((register.toInt.setWidth 8).sshiftRight 4) := by
    intro register
    cases register with
    | r n =>
      have all : ∀ n : BitVec 4, lnibbleToHex (((n.setWidth 32).sshiftRight 4).setWidth 8) =
          lnibbleToHex (((n.setWidth 32).setWidth 8).sshiftRight 4) := by decide
      exact all n
    | _ => rfl
  have data : expeditedData stub.registerFile sigval = stub.view.stopReply sigval := by
    rw [expeditedData, Debuggee.stopReply, peekAll_eq, List.flatMap_map]
    congr 3
    refine List.flatMap_congr fun register _ => ?_
    rw [digits, longDigits_eq]
    rfl
  rw [← data]
  rfl

/-- The monitor serves a session. -/
theorem gdbMonitor_session {own : Storage} (sigval : BitVec 32) {stub : Stub}
    (enters : stub.EntersClear own) {rxbuf : List (BitVec 8)} {xs : List Exchange}
    (proper : ∀ x ∈ xs, x.Proper own rxbuf.length) {p : Parting} (leaves : p.Proper rxbuf.length)
    (clear : p.leave.Clear own ((gdbMonitorOnentry stub).view.run xs)) (rest : List (BitVec 8)) :
    ∃ last : Stub, last.view = (gdbMonitorOnentry stub).view.run xs ∧ last.steppedOpcode = 0 ∧
      gdbMonitor own sigval stub rxbuf (xs.flatMap Exchange.input ++ (p.input ++ rest)) =
        some
          { stub := p.leave.after last
            exit := p.leave.exit
            sent := (gdbMonitorOnentry stub).view.transcript sigval xs ++ p.output
            rest := rest } := by
  have cleared : (gdbMonitorOnentry stub).steppedOpcode = 0 := by
    rw [gdbMonitorOnentry]
    split_ifs with stepping
    · rfl
    · exact not_not.mp stepping
  have enough : xs.length < (xs.flatMap Exchange.input ++ (p.input ++ rest)).length := by
    have requests := length_le_input xs
    have last := length_parting_pos p
    rw [List.length_append, List.length_append]
    omega
  obtain ⟨last, run, stepped, served⟩ := serve_session sigval (gdbMonitorOnentry stub) proper
    leaves clear enough rest
  refine ⟨last, run, stepped.trans cleared, ?_⟩
  rw [gdbMonitor, if_pos enters, served]

/-- The state of the program is sent until it is accepted; then the monitor is entered. -/
theorem gdbHandleException_announce (own : Storage) (sigval : BitVec 32) (stub : Stub)
    (rxbuf : List (BitVec 8)) {naks : List (BitVec 8)} (refused : chr '+' ∉ naks)
    (rx : List (BitVec 8)) :
    gdbHandleException own sigval stub rxbuf (naks ++ chr '+' :: rx) =
      (gdbMonitor own sigval stub rxbuf rx).map fun later =>
        { later with
          exit := later.exit.ofException
          sent :=
            (List.replicate (naks.length + 1) (frame (stub.view.stopReply sigval))).flatten ++
              later.sent } := by
  rw [gdbHandleException, untilAck_append refused, Option.bind_some,
    turns_const (expedited_fst stub sigval)]

/-- The stub carries out a session: it reports why the program stopped, serves the requests
with what they do to the registers and the memory, and leaves the program as the last
request says. Nothing is asked for that reaches into the monitor itself. -/
theorem gdbHandleException_session (own : Storage) (sigval : BitVec 32) (stub : Stub)
    (enters : stub.EntersClear own) (rxbuf naks : List (BitVec 8)) (refused : chr '+' ∉ naks)
    (xs : List Exchange) (proper : ∀ x ∈ xs, x.Proper own rxbuf.length) (p : Parting)
    (leaves : p.Proper rxbuf.length)
    (clear : p.leave.Clear own ((gdbMonitorOnentry stub).view.run xs)) (rest : List (BitVec 8)) :
    ∃ last : Stub, last.view = (gdbMonitorOnentry stub).view.run xs ∧ last.steppedOpcode = 0 ∧
      gdbHandleException own sigval stub rxbuf
          (naks ++ chr '+' :: (xs.flatMap Exchange.input ++ (p.input ++ rest))) =
        some
          { stub := p.leave.after last
            exit := p.leave.exit.ofException
            sent :=
              (List.replicate (naks.length + 1) (frame (stub.view.stopReply sigval))).flatten ++
                ((gdbMonitorOnentry stub).view.transcript sigval xs ++ p.output)
            rest := rest } := by
  obtain ⟨last, run, stepped, served⟩ := gdbMonitor_session sigval enters proper leaves clear rest
  refine ⟨last, run, stepped, ?_⟩
  rw [gdbHandleException_announce own sigval stub rxbuf refused, served]
  rfl

/-- A system call of the program: the request is sent once, whatever the line does, the host
reads and writes the memory meanwhile, apart from the monitor itself, and its result is
returned. -/
theorem gdbFileIo_session (own : Storage) (stub : Stub) (enters : stub.EntersClear own)
    {syscall : BitVec 32} (arg1 arg2 arg3 : BitVec 32)
    (known : syscall ≠ 0 ∧ nrSyscalls.slt syscall = false) {data : List (BitVec 8)}
    (asked : fileIoData own stub.mem syscall arg1 arg2 arg3 = some data) (rxbuf : List (BitVec 8))
    (xs : List Exchange) (proper : ∀ x ∈ xs, x.Proper own rxbuf.length) (p : Parting)
    (leaves : p.Proper rxbuf.length) {value : BitVec 32} (result : p.leave = .fileResult value)
    (rest : List (BitVec 8)) :
    ∃ last : Stub, last.view = (gdbMonitorOnentry stub).view.run xs ∧ last.steppedOpcode = 0 ∧
      gdbFileIo own stub syscall arg1 arg2 arg3 rxbuf
          (xs.flatMap Exchange.input ++ (p.input ++ rest)) =
        some
          { stub := last
            exit := .ret value
            sent :=
              frame data ++ ((gdbMonitorOnentry stub).view.transcript 0 xs ++ p.output)
            rest := rest } := by
  obtain ⟨last, run, stepped, served⟩ := gdbMonitor_session 0 enters proper leaves
    (by rw [result]; trivial) rest
  refine ⟨last, run, stepped, ?_⟩
  have call : ¬(syscall = 0 ∨ nrSyscalls.slt syscall = true) := by
    rw [known.2]
    exact not_or.mpr ⟨known.1, Bool.false_ne_true⟩
  rw [gdbFileIo, if_neg call, asked, Option.bind_some, served, result]
  rfl

/-! ### A sample -/

/-- A packet that comes in undisturbed. -/
def Heard.clear (data : List (BitVec 8)) : Heard where
  noise := []
  data := data
  hi := lnibbleToHex ((checksum data).sshiftRight 4)
  lo := lnibbleToHex (checksum data)

theorem arrives_clear {room : ℕ} {data : List (BitVec 8)} (ends : chr '#' ∉ data)
    (fits : data.length + 1 < room) : Arrives room [] (Heard.clear data) where
  fits := fun _ none => absurd none List.not_mem_nil
  refused := fun _ none => absurd none List.not_mem_nil
  takenFits := ⟨List.not_mem_nil, ends, fits⟩
  taken := (hexToByte_byteToHex _).symm

/-- The monitor lies in the upper half of the memory. -/
def Storage.upper : Storage := fun a => a.msb

/-- A program with nothing but zeros. -/
def Stub.zero : Stub where
  registerFile :=
    { pr := 0, gbr := 0, vbr := 0, mach := 0, macl := 0, r := fun _ => 0, pc := 0, sr := 0 }
  mem := fun _ => 0
  steppedOpcode := 0

/-- Two bytes are written as `#` and `$`. -/
def sampleWrite : Exchange where
  refused := []
  taken := Heard.clear (text "X10,2:" ++ [chr '#', chr '$'].flatMap escape)
  request := .writeMemory 0x10 [chr '#', chr '$']
  naks := []

/-- They are read, and the reply is lost once. -/
def sampleRead : Exchange where
  refused := []
  taken := Heard.clear (text "m10,2")
  request := .readMemory 0x10 2
  naks := [chr '-']

/-- The host answers a system call. -/
def sampleResult : Parting where
  refused := []
  taken := Heard.clear (text "F3")
  leave := .fileResult 3
  naks := []

/-- The program goes on for one instruction. -/
def sampleStep : Parting where
  refused := []
  taken := Heard.clear (text "s")
  leave := .step 0
  naks := []

def sampleParting : Parting where
  refused := []
  taken := Heard.clear (text "c")
  leave := .resume 0
  naks := []

theorem proper_sampleWrite : sampleWrite.Proper .upper gdbRxbuflen where
  arrives := arrives_clear (by decide) (by decide)
  spells := by
    have spelt := takeBytes_escape [chr '#', chr '$'] []
    exact @Spells.writeBinary (text "10") (text "2") _ _ _ (by decide) (by decide) spelt
  served := by
    show ∀ k < 2, Storage.upper (0x10 + BitVec.ofNat 32 k) = false
    decide
  naks := List.not_mem_nil

theorem proper_sampleRead : sampleRead.Proper .upper gdbRxbuflen where
  arrives := arrives_clear (by decide) (by decide)
  spells := @Spells.readMemory (text "10") (text "2") (by decide)
  served := by
    show ∀ k < 2, Storage.upper (0x10 + BitVec.ofNat 32 k) = false
    decide
  naks := by decide

theorem proper_sampleParting : sampleParting.Proper gdbRxbuflen where
  arrives := arrives_clear (by decide) (by decide)
  spells := Leave.Spells.resume []
  naks := List.not_mem_nil

theorem proper_sampleStep : sampleStep.Proper gdbRxbuflen where
  arrives := arrives_clear (by decide) (by decide)
  spells := Leave.Spells.step []
  naks := List.not_mem_nil

theorem proper_sampleResult : sampleResult.Proper gdbRxbuflen where
  arrives := arrives_clear (by decide) (by decide)
  spells := @Leave.Spells.fileResult (text "3") (by decide)
  naks := List.not_mem_nil

/-- The buffer of the sample. -/
def Stub.rxbuf : List (BitVec 8) := List.replicate gdbRxbuflen 0

theorem enters_zero : Stub.zero.EntersClear .upper := fun stepping => absurd rfl stepping

theorem length_rxbuf : Stub.rxbuf.length = gdbRxbuflen := List.length_replicate

/-- The session with these two requests and a step. -/
theorem session_sample :
    ∃ last : Stub, last.view = (gdbMonitorOnentry .zero).view.run [sampleWrite, sampleRead] ∧
      last.steppedOpcode = 0 ∧
      gdbHandleException .upper 5 .zero Stub.rxbuf
          ([] ++ chr '+' ::
            ([sampleWrite, sampleRead].flatMap Exchange.input ++ (sampleStep.input ++ []))) =
        some
          { stub := gdbStep last 0
            exit := .resume
            sent :=
              (List.replicate 1 (frame (Stub.zero.view.stopReply 5))).flatten ++
                ((gdbMonitorOnentry .zero).view.transcript 5 [sampleWrite, sampleRead] ++
                  sampleStep.output)
            rest := [] } := by
  have proper : ∀ x ∈ [sampleWrite, sampleRead], x.Proper .upper Stub.rxbuf.length := by
    rw [length_rxbuf, List.forall_mem_cons, List.forall_mem_cons]
    exact ⟨proper_sampleWrite, proper_sampleRead, fun _ none => absurd none List.not_mem_nil⟩
  have leaves : sampleStep.Proper Stub.rxbuf.length := by
    rw [length_rxbuf]
    exact proper_sampleStep
  have clear : sampleStep.leave.Clear .upper
      ((gdbMonitorOnentry .zero).view.run [sampleWrite, sampleRead]) := by
    let d := (gdbMonitorOnentry .zero).view.run [sampleWrite, sampleRead]
    show StepsClear .upper (d.registerFile.startAt 0) d.mem
    decide +kernel
  exact gdbHandleException_session .upper 5 .zero enters_zero Stub.rxbuf [] List.not_mem_nil _ proper
    _ leaves clear []

/-- A file is read, and the host writes two bytes of it. -/
theorem fileIo_sample :
    ∃ last : Stub, last.view = (gdbMonitorOnentry .zero).view.run [sampleWrite] ∧
      last.steppedOpcode = 0 ∧
      gdbFileIo .upper .zero 3 0 0x10 2 Stub.rxbuf
          ([sampleWrite].flatMap Exchange.input ++ (sampleResult.input ++ [])) =
        some
          { stub := last
            exit := .ret 3
            sent :=
              frame (text "Fread,00000000,00000010,00000002") ++
                ((gdbMonitorOnentry .zero).view.transcript 0 [sampleWrite] ++ sampleResult.output)
            rest := [] } := by
  have proper : ∀ x ∈ [sampleWrite], x.Proper .upper Stub.rxbuf.length := by
    rw [length_rxbuf, List.forall_mem_cons]
    exact ⟨proper_sampleWrite, fun _ none => absurd none List.not_mem_nil⟩
  have leaves : sampleResult.Proper Stub.rxbuf.length := by
    rw [length_rxbuf]
    exact proper_sampleResult
  have asked : fileIoData .upper Stub.zero.mem 3 0 0x10 2 =
      some (text "Fread,00000000,00000010,00000002") := by
    decide +kernel
  exact gdbFileIo_session .upper .zero enters_zero 0 0x10 2 (by decide) asked Stub.rxbuf _ proper _
    leaves rfl []

/-! ### Memory -/

/-- The request leaves a region alone. -/
def Request.Spares (request : Request) (addr : BitVec 32) (n : ℕ) : Prop :=
  ∀ addr' bytes, request = .writeMemory addr' bytes →
    ∀ k < n, bytes.length ≤ (addr + BitVec.ofNat 32 k - addr').toNat

theorem region_after {request : Request} {addr : BitVec 32} {n : ℕ} (spares : request.Spares addr n)
    (d : Debuggee) : region (d.after request).mem addr n = region d.mem addr n := by
  cases request with
  | writeMemory addr' bytes => exact region_storeRegion_of_disjoint d.mem addr' (spares addr' bytes rfl)
  | writeRegisters values =>
    have kept : ∀ (writes : List (RegisterId × BitVec 32)) (d : Debuggee),
        (writes.foldl (fun d write => d.writeRegister write.1 write.2) d).mem = d.mem := by
      intro writes
      induction writes with
      | nil => exact fun _ => rfl
      | cons write writes ih => exact fun d => ih _
    exact congrArg (fun mem => region mem addr n) (kept _ d)
  | _ => rfl

theorem region_run {addr : BitVec 32} {n : ℕ} {ys : List Exchange}
    (spared : ∀ y ∈ ys, y.request.Spares addr n) (d : Debuggee) :
    region (d.run ys).mem addr n = region d.mem addr n := by
  induction ys generalizing d with
  | nil => rfl
  | cons y ys ih =>
    rw [List.forall_mem_cons] at spared
    exact (ih spared.2 _).trans (region_after spared.1 d)

theorem length_of_spells {data bytes : List (BitVec 8)} {addr : BitVec 32}
    (h : Spells data (.writeMemory addr bytes)) : bytes.length ≤ 2 ^ 32 := by
  cases h with
  | writeMemory _ _ spelt =>
    rw [takeBytes_length spelt]
    exact count_le _
  | writeBinary _ _ spelt =>
    rw [takeBytes_length spelt]
    exact count_le _

/-- What was written, in hex or in binary, is read back later in the session, if nothing was
written over it; the packets around it may have been lost any number of times. -/
theorem session_reads_back (own : Storage) (sigval : BitVec 32) (stub : Stub)
    (enters : stub.EntersClear own) (rxbuf naks : List (BitVec 8)) (refused : chr '+' ∉ naks)
    (xs ys zs : List Exchange) (w r : Exchange)
    (proper : ∀ x ∈ xs ++ w :: (ys ++ r :: zs), x.Proper own rxbuf.length) (p : Parting)
    (leaves : p.Proper rxbuf.length)
    (clear : p.leave.Clear own ((gdbMonitorOnentry stub).view.run (xs ++ w :: (ys ++ r :: zs))))
    (rest : List (BitVec 8)) {addr : BitVec 32}
    {bytes : List (BitVec 8)} (write : w.request = .writeMemory addr bytes)
    (read : r.request = .readMemory addr bytes.length)
    (spared : ∀ y ∈ ys, y.request.Spares addr bytes.length) :
    ∃ outcome later, gdbHandleException own sigval stub rxbuf
        (naks ++ chr '+' ::
          ((xs ++ w :: (ys ++ r :: zs)).flatMap Exchange.input ++ (p.input ++ rest))) = some outcome ∧
      outcome.sent =
        (List.replicate (naks.length + 1) (frame (stub.view.stopReply sigval))).flatten ++
          ((gdbMonitorOnentry stub).view.transcript sigval (xs ++ w :: ys) ++
            (receipt r.refused ++
              r.request.packets (bytes.flatMap byteToHex) (r.naks.length + 1) ++ later)) := by
  obtain ⟨last, -, -, served⟩ := gdbMonitor_session sigval enters proper leaves clear rest
  have small : bytes.length ≤ 2 ^ 32 := by
    have spells := (proper w (List.mem_append_right _ List.mem_cons_self)).spells
    rw [write] at spells
    exact length_of_spells spells
  have order : xs ++ w :: (ys ++ r :: zs) = (xs ++ w :: ys) ++ r :: zs := by
    rw [List.append_assoc, List.cons_append]
  let start := (gdbMonitorOnentry stub).view
  have there : region (start.run (xs ++ w :: ys)).mem addr bytes.length = bytes := by
    have written : (start.run (xs ++ w :: ys)) = (((start.run xs).after w.request).run ys) := by
      rw [Debuggee.run, List.foldl_append]
      rfl
    rw [written, region_run spared, write]
    exact region_storeRegion _ _ small
  have reply : ((start.run (xs ++ w :: ys)).reply sigval r.request).data =
      bytes.flatMap byteToHex := by
    rw [read]
    show (region _ _ _).flatMap byteToHex = _
    rw [there]
  rw [gdbHandleException_announce own sigval stub rxbuf refused, served]
  refine ⟨_, ((start.run (xs ++ w :: ys)).after r.request).transcript sigval zs ++ p.output,
    rfl, ?_⟩
  show _ ++ (start.transcript sigval (xs ++ w :: (ys ++ r :: zs)) ++ p.output) = _
  rw [order, Debuggee.transcript_append, Debuggee.transcript, Exchange.output, reply,
    List.append_assoc, List.append_assoc]

/-- The two bytes that were written are read back. -/
theorem session_reads_back_sample :
    ∃ outcome later, gdbHandleException .upper 5 .zero Stub.rxbuf
        ([] ++ chr '+' ::
          (([] ++ sampleWrite :: ([] ++ sampleRead :: [])).flatMap Exchange.input ++
            (sampleParting.input ++ []))) = some outcome ∧
      outcome.sent =
        (List.replicate 1 (frame (Stub.zero.view.stopReply 5))).flatten ++
          ((gdbMonitorOnentry .zero).view.transcript 5 ([] ++ sampleWrite :: []) ++
            (receipt [] ++
              sampleRead.request.packets ([chr '#', chr '$'].flatMap byteToHex) 2 ++ later)) := by
  have proper : ∀ x ∈ [] ++ sampleWrite :: ([] ++ sampleRead :: []),
      x.Proper .upper Stub.rxbuf.length := by
    rw [length_rxbuf, List.nil_append, List.forall_mem_cons, List.nil_append, List.forall_mem_cons]
    exact ⟨proper_sampleWrite, proper_sampleRead, fun _ none => absurd none List.not_mem_nil⟩
  have leaves : sampleParting.Proper Stub.rxbuf.length := by
    rw [length_rxbuf]
    exact proper_sampleParting
  exact session_reads_back .upper 5 .zero enters_zero Stub.rxbuf [] List.not_mem_nil [] [] []
    sampleWrite sampleRead proper sampleParting leaves trivial [] rfl rfl
    fun _ none => absurd none List.not_mem_nil

/-! ### Retransmissions -/

/-- A region as it is sent for the `k`-th time, counted from 0. -/
def resent (data : List (BitVec 8)) (k : ℕ) : Heard where
  noise := []
  data := data
  hi := lnibbleToHex ((BitVec.ofNat 8 (k + 1) * checksum data).sshiftRight 4)
  lo := lnibbleToHex (BitVec.ofNat 8 (k + 1) * checksum data)

/-- Whatever the answers are, a region is sent until the first `+`. The first packet is
right; a later one only if its number times the checksum is a multiple of 256. -/
theorem read_again (mem : ByteMemory) (addr len : BitVec 32) (rx : List (BitVec 8))
    (traffic : Traffic) :
    let data := (region mem addr (readCount len)).flatMap byteToHex
    (untilAck (readMemory mem addr len) 0 rx = some traffic ↔
      ∃ naks, chr '+' ∉ naks ∧ rx = naks ++ chr '+' :: traffic.rest ∧
        traffic.sent = (List.range (naks.length + 1)).flatMap fun k => (resent data k).bytes) ∧
    ∀ k, (resent data k).Intact ↔ 256 ∣ k * (checksum data).toNat := by
  intro data
  constructor
  · have packets : ∀ n, turns (readMemory mem addr len) n 0 =
        (List.range n).flatMap fun k => (resent data k).bytes := by
      intro n
      rw [turns_readMemory, readMemoryData_eq]
      refine List.flatMap_congr fun k _ => ?_
      rw [show ∀ x : BitVec 8, 0 + x = x from BitVec.zero_add]
      rfl
    rw [untilAck_eq_some_iff]
    simp only [packets]
  · intro k
    have digits : hexToByte (resent data k).hi (resent data k).lo =
        BitVec.ofNat 8 (k + 1) * checksum data := hexToByte_byteToHex _
    rw [Heard.Intact, digits, ← BitVec.toNat_inj, BitVec.toNat_mul, BitVec.toNat_ofNat]
    show (checksum data).toNat = _ ↔ _
    generalize sum : (checksum data).toNat = c
    have bound : c < 256 := by
      rw [← sum]
      exact (checksum data).isLt
    rw [Nat.mod_mul_mod, Nat.succ_mul, Nat.dvd_iff_mod_eq_zero]
    omega

end JCore.Gdb
