import JCore.Testrom.Monitor

/-!
# What the monitor leaves out

No command looks at the cells where the monitor itself lies, or writes them, so it does not
matter what the memory of the program is said to hold there.

## Main definitions

* `Stub.Agree`, `Answer.Agree`, `Outcome.Agree`: the same but for these cells
* `Confined`: a command that keeps away from them

## Main results

* `confined_command`: every command keeps away from them
* `gdbHandleException_agree`, `gdbFileIo_agree`: and so do whole sessions
-/

namespace JCore.Gdb

open Sim

variable {own : Storage}

/-- The memory is the same in the cells of the monitor. -/
def Storage.Kept (own : Storage) (mem mem' : ByteMemory) : Prop := ∀ x, own x = true → mem' x = mem x

/-- The stubs differ in the cells of the monitor alone. -/
structure Stub.Agree (own : Storage) (stub stub' : Stub) : Prop where
  registerFile : stub.registerFile = stub'.registerFile
  mem : own.Agree stub.mem stub'.mem
  steppedOpcode : stub.steppedOpcode = stub'.steppedOpcode

structure Answer.Agree (own : Storage) (answer answer' : Answer) : Prop where
  stub : answer.stub.Agree own answer'.stub
  reply : answer.reply = answer'.reply
  exit : answer.exit = answer'.exit

structure Outcome.Agree (own : Storage) (outcome outcome' : Outcome) : Prop where
  stub : outcome.stub.Agree own outcome'.stub
  exit : outcome.exit = outcome'.exit
  sent : outcome.sent = outcome'.sent
  rest : outcome.rest = outcome'.rest

theorem Stub.Agree.answering {stub stub' : Stub} (h : stub.Agree own stub') (send : Sender) :
    (stub.answering send).Agree own (stub'.answering send) := ⟨h, rfl, rfl⟩

/-- The command neither looks at the cells of the monitor nor writes them. -/
def Confined (own : Storage) (f : Stub → Option Answer) : Prop :=
  ∀ stub stub' answer, stub.Agree own stub' → f stub = some answer →
    own.Kept stub.mem answer.stub.mem ∧
      ∃ answer', f stub' = some answer' ∧ answer.Agree own answer'

/-! ### Commands -/

/-- A command that has to do with the registers alone. -/
theorem confined_of_registers {f : Stub → Option Answer}
    (g : RegisterFileS → Option (RegisterFileS × Option Sender × Option Exit))
    (h : ∀ stub, f stub = (g stub.registerFile).map fun r =>
      { stub := { stub with registerFile := r.1 }, reply := r.2.1, exit := r.2.2 }) :
    Confined own f := by
  intro stub stub' answer agree answered
  rw [h, Option.map_eq_some_iff] at answered
  obtain ⟨r, made, rfl⟩ := answered
  refine ⟨fun _ _ => rfl,
    { stub := { stub' with registerFile := r.1 }, reply := r.2.1, exit := r.2.2 }, ?_,
    ⟨⟨rfl, agree.mem, agree.steppedOpcode⟩, rfl, rfl⟩⟩
  rw [h, ← agree.registerFile, made]
  rfl

theorem confined_answering (send : RegisterFileS → Sender) :
    Confined own fun stub => some (stub.answering (send stub.registerFile)) :=
  confined_of_registers (fun rf => some (rf, some (send rf), none)) fun _ => rfl

theorem confined_writeRegisters (hargs : List (BitVec 8)) :
    Confined own fun stub => writeRegistersCommand stub hargs := by
  refine confined_of_registers
    (fun rf => (pokeAll registerFuel 0 rf hargs).map fun rf => (rf, some ok, none)) fun stub => ?_
  rw [writeRegistersCommand, Option.map_map]
  rfl

theorem confined_writeRegister (hargs : List (BitVec 8)) :
    Confined own fun stub => writeRegisterCommand stub hargs := by
  refine confined_of_registers
    (fun rf => (hargsParseLong (chr '=') hargs 0).bind fun id =>
      if (gdbPeekRegisterFile rf id.1).isNone then some (rf, some ok, none)
      else (hexbufToLong id.2).map fun val =>
        (gdbPokeRegisterFile rf id.1 val, some ok, none)) fun stub => ?_
  rw [writeRegisterCommand, Option.map_bind]
  congr 1
  funext id
  rw [Function.comp_apply]
  cases gdbPeekRegisterFile stub.registerFile id.1 with
  | none => rfl
  | some _ =>
    rw [Option.isNone_some, if_neg Bool.false_ne_true, Option.map_map]
    rfl

theorem confined_query (hargs : List (BitVec 8)) :
    Confined own fun stub => queryCommand stub hargs := by
  refine confined_of_registers
    (fun rf => (strcmp hargs (text "Offsets" ++ [0])).map fun order =>
      (rf, some (if order = 0 then putmsg 0 (text "Text=0;Data=0;Bss=0") else putmsg 0 []), none))
    fun stub => ?_
  rw [queryCommand, Option.map_map]
  congr 1
  funext order
  rw [Function.comp_apply]
  by_cases offsets : order = 0
  · rw [if_pos offsets, if_pos offsets]
    rfl
  · rw [if_neg offsets, if_neg offsets]
    rfl

theorem confined_file (hargs : List (BitVec 8)) :
    Confined own fun stub => fileCommand stub hargs := by
  refine confined_of_registers
    (fun rf => if hargs.head? = some (chr '-') then some (rf, none, some (.ret (-1)))
      else (hargsParseLong (chr '#') hargs 0).map fun addr => (rf, some ok, some (.ret addr.1)))
    fun stub => ?_
  rw [fileCommand]
  split_ifs
  · rfl
  · rw [Option.map_map]
    rfl

theorem readMemory_agree {mem mem' : ByteMemory} (h : own.Agree mem mem') {addr len : BitVec 32}
    (clear : own.Clear addr (readCount len)) : readMemory mem addr len = readMemory mem' addr len := by
  have data : readMemoryData mem len.toNat addr len = readMemoryData mem' len.toNat addr len := by
    rw [readMemoryData_eq, readMemoryData_eq, h.region_eq clear]
  funext sum
  simp only [readMemory, data]

theorem confined_readMemory (hargs : List (BitVec 8)) :
    Confined own fun stub => readMemoryCommand own stub hargs := by
  intro stub stub' answer agree answered
  simp only [readMemoryCommand, Option.bind_eq_some_iff] at answered ⊢
  obtain ⟨addr, parsed, len, parsed', read⟩ := answered
  obtain ⟨clear, made⟩ := Option.ite_none_right_eq_some.mp read
  obtain rfl := Option.some.inj made
  refine ⟨fun _ _ => rfl, stub'.answering (readMemory stub.mem addr.1 len.1),
    ⟨addr, parsed, len, parsed', ?_⟩, agree.answering _⟩
  rw [if_pos clear, readMemory_agree agree.mem clear]

theorem confined_writeRegion {spelling : Spelling} (hargs : List (BitVec 8)) :
    Confined own fun stub =>
      writeRegion own stub hargs fun buf a n => bufToMem spelling (accesses a n) buf := by
  intro stub stub' answer agree answered
  simp only [writeRegion, Option.bind_eq_some_iff] at answered ⊢
  obtain ⟨addr, parsed, len, parsed', write⟩ := answered
  obtain ⟨clear, made⟩ := Option.ite_none_right_eq_some.mp write
  obtain ⟨written, fills, rfl⟩ := Option.map_eq_some_iff.mp made
  obtain ⟨kept, written', fills', agree'⟩ := Storage.bufToMem_rel (fun _ h => clear.accesses h) agree.mem fills
  refine ⟨kept, Stub.answering { stub' with mem := written' } ok, ⟨addr, parsed, len, parsed', ?_⟩,
    ⟨agree.registerFile, agree', agree.steppedOpcode⟩, rfl, rfl⟩
  rw [if_pos clear, fills']
  rfl

/-! ### Steps -/

section Steps

variable {rf : RegisterFileS} {mem mem' : ByteMemory}

/-- The destination of a step that keeps away is the same. -/
theorem getStepiDest_agree (h : own.Agree mem mem') (clear : StepsClear own rf mem) :
    getStepiDest rf mem = getStepiDest rf mem' ∧ shortAt mem rf.pc = shortAt mem' rf.pc := by
  have op : shortAt mem rf.pc = shortAt mem' rf.pc :=
    congrArg (BitVec.setWidth 16) (h.loadAt_eq (clear (.word, rf.pc) List.mem_cons_self))
  have rte : opcodeRte (shortAt mem rf.pc) = true → longAt mem (rf.r 15) = longAt mem' (rf.r 15) := by
    intro here
    refine h.loadAt_eq (clear (.long, rf.r 15) ?_)
    simp [stepUnits, here]
  have trapa : opcodeTrapa (shortAt mem rf.pc) = true →
      longAt mem (rf.vbr + opcodeTrapaDisp (shortAt mem rf.pc) <<< 2) =
        longAt mem' (rf.vbr + opcodeTrapaDisp (shortAt mem rf.pc) <<< 2) := by
    intro here
    refine h.loadAt_eq (clear (.long, _) ?_)
    simp [stepUnits, here]
  refine ⟨?_, op⟩
  rw [getStepiDest, getStepiDest, ← op]
  -- the eight branches before `RTE` do not load
  iterate 8 refine if_congr Iff.rfl rfl ?_
  exact ite_congr rfl rte fun _ => ite_congr rfl trapa fun _ => rfl

theorem stepsClear_agree (h : own.Agree mem mem') (clear : StepsClear own rf mem) :
    StepsClear own rf mem' := by
  obtain ⟨dest, op⟩ := getStepiDest_agree h clear
  rw [StepsClear, stepUnits, ← dest, ← op]
  exact clear

theorem confined_step (hargs : List (BitVec 8)) :
    Confined own fun stub => (hargsParseLong (chr '#') hargs 0).bind fun addr =>
      if StepsClear own (stub.registerFile.startAt addr.1) stub.mem then
        some { stub := gdbStep stub addr.1, reply := none, exit := some .resume }
      else none := by
  intro stub stub' answer agree answered
  simp only [Option.bind_eq_some_iff] at answered ⊢
  obtain ⟨addr, parsed, step⟩ := answered
  obtain ⟨clear, made⟩ := Option.ite_none_right_eq_some.mp step
  obtain rfl := Option.some.inj made
  obtain ⟨dest, -⟩ := getStepiDest_agree agree.mem clear
  have target : own.ClearAt (.word, getStepiDest (stub.registerFile.startAt addr.1) stub.mem) :=
    clear _ (List.mem_cons_of_mem _ List.mem_cons_self)
  have clear' := stepsClear_agree agree.mem clear
  rw [agree.registerFile] at clear'
  refine ⟨fun x mine => Storage.storeAt_own target _ mine, _, ⟨addr, parsed, if_pos clear'⟩, ⟨?_, ?_, ?_⟩,
    rfl, rfl⟩
  · exact congrArg (fun rf => rf.startAt addr.1) agree.registerFile
  · show own.Agree (storeShort stub.mem _ _) (storeShort stub'.mem _ _)
    rw [← agree.registerFile, ← dest]
    exact agree.mem.storeAt .word _ _
  · show shortAt stub.mem _ = shortAt stub'.mem _
    rw [← agree.registerFile, ← dest]
    exact congrArg (BitVec.setWidth 16) (agree.mem.loadAt_eq target)

end Steps

/-! ### The switch -/

theorem confined_ite {c : Prop} [Decidable c] {f g : Stub → Option Answer} (h : Confined own f)
    (h' : Confined own g) : Confined own fun stub => if c then f stub else g stub := by
  by_cases choice : c
  · simp only [if_pos choice]
    exact h
  · simp only [if_neg choice]
    exact h'

theorem confined_continue (hargs : List (BitVec 8)) :
    Confined own fun stub => (hargsParseLong (chr '#') hargs 0).map fun addr =>
      { stub := gdbContinue stub addr.1, reply := none, exit := some .resume } := by
  refine confined_of_registers (fun rf => (hargsParseLong (chr '#') hargs 0).map fun addr =>
    (rf.startAt addr.1, none, some .resume)) fun stub => ?_
  rw [Option.map_map]
  rfl

/-- Detaching and the end of the program. -/
theorem confined_leave : Confined own fun stub =>
    some { stub := stub, reply := some ok, exit := some .reset } :=
  confined_of_registers (fun rf => some (rf, some ok, some .reset)) fun _ => rfl

/-- No command has to do with the cells of the monitor. -/
theorem confined_command (sigval : BitVec 32) (data : List (BitVec 8)) :
    Confined own fun stub => command own stub sigval data := by
  cases data with
  | nil => exact fun _ _ _ _ none => absurd none (Option.some_ne_none _).symm
  | cons c hargs =>
    refine confined_ite (confined_answering fun _ => lastSignal sigval) ?_
    refine confined_ite (confined_continue hargs) ?_
    refine confined_ite confined_leave ?_
    refine confined_ite (confined_file hargs) ?_
    refine confined_ite (confined_answering readRegisters) ?_
    refine confined_ite (confined_writeRegisters hargs) ?_
    refine confined_ite (confined_answering fun _ => ok) ?_
    refine confined_ite confined_leave ?_
    refine confined_ite (confined_readMemory hargs) ?_
    refine confined_ite (confined_writeRegion hargs) ?_
    refine confined_ite (confined_writeRegister hargs) ?_
    refine confined_ite (confined_query hargs) ?_
    refine confined_ite (confined_step hargs) ?_
    exact confined_ite (confined_writeRegion hargs) (confined_answering fun _ => putmsg 0 [])

/-! ### Sessions -/

section Sessions

variable {sigval : BitVec 32} {stub stub' : Stub} {rxbuf rx : List (BitVec 8)} {outcome : Outcome}

theorem Storage.Kept.trans {mem mem' mem'' : ByteMemory} (h : own.Kept mem mem')
    (h' : own.Kept mem' mem'') : own.Kept mem mem'' := fun x mine => (h' x mine).trans (h x mine)

theorem transmit_agree {answer answer' : Answer} (h : answer.Agree own answer') :
    answer.transmit rx = answer'.transmit rx := by
  rw [Answer.transmit, Answer.transmit, h.reply]

theorem serve_agree {fuel : ℕ} (agree : stub.Agree own stub')
    (served : serve own sigval fuel stub rxbuf rx = some outcome) :
    own.Kept stub.mem outcome.stub.mem ∧
      ∃ outcome', serve own sigval fuel stub' rxbuf rx = some outcome' ∧
        outcome.Agree own outcome' := by
  induction fuel generalizing stub stub' rxbuf rx outcome with
  | zero => exact absurd served (Option.some_ne_none _).symm
  | succ fuel ih =>
    rw [serve, Option.bind_eq_some_iff] at served
    obtain ⟨message, heard, served⟩ := served
    rw [Option.bind_eq_some_iff] at served
    obtain ⟨answer, commanded, served⟩ := served
    rw [Option.bind_eq_some_iff] at served
    obtain ⟨traffic, sent, served⟩ := served
    obtain ⟨kept, answer', commanded', same⟩ := confined_command sigval message.rxbuf stub stub'
      answer agree commanded
    have commanded' : command own stub' sigval message.rxbuf = some answer' := commanded'
    rw [serve, heard, Option.bind_some, commanded', Option.bind_some, ← transmit_agree same, sent,
      Option.bind_some, ← same.exit]
    cases leaves : answer.exit with
    | some exit =>
      rw [leaves] at served
      obtain rfl := Option.some.inj served
      exact ⟨kept, { stub := answer'.stub, exit := exit, sent := _, rest := _ }, rfl, same.stub, rfl,
        rfl, rfl⟩
    | none =>
      rw [leaves] at served
      obtain ⟨later, goesOn, rfl⟩ := Option.map_eq_some_iff.mp served
      obtain ⟨kept', later', goesOn', same'⟩ := ih same.stub goesOn
      refine ⟨kept.trans kept',
        { later' with sent := message.sent ++ traffic.sent ++ later'.sent }, ?_, same'.stub,
        same'.exit, congrArg (message.sent ++ traffic.sent ++ ·) same'.sent, same'.rest⟩
      rw [goesOn']
      rfl

theorem onentry_agree (agree : stub.Agree own stub') :
    (gdbMonitorOnentry stub).Agree own (gdbMonitorOnentry stub') := by
  rw [gdbMonitorOnentry, gdbMonitorOnentry, ← agree.steppedOpcode, ← agree.registerFile]
  by_cases stepping : stub.steppedOpcode ≠ 0
  · rw [if_pos stepping, if_pos stepping]
    exact ⟨rfl, agree.mem.storeAt .word _ _, rfl⟩
  · rw [if_neg stepping, if_neg stepping]
    exact agree

theorem kept_onentry (enters : stub.EntersClear own) :
    own.Kept stub.mem (gdbMonitorOnentry stub).mem := by
  intro x mine
  rw [gdbMonitorOnentry]
  by_cases stepping : stub.steppedOpcode ≠ 0
  · rw [if_pos stepping]
    exact Storage.storeAt_own (enters stepping) _ mine
  · rw [if_neg stepping]

theorem gdbMonitor_agree (agree : stub.Agree own stub')
    (left : gdbMonitor own sigval stub rxbuf rx = some outcome) :
    own.Kept stub.mem outcome.stub.mem ∧
      ∃ outcome', gdbMonitor own sigval stub' rxbuf rx = some outcome' ∧
        outcome.Agree own outcome' := by
  rw [gdbMonitor] at left
  obtain ⟨enters, served⟩ := Option.ite_none_right_eq_some.mp left
  obtain ⟨kept, outcome', served', same⟩ := serve_agree (onentry_agree agree) served
  have enters' : stub'.EntersClear own := by
    rw [Stub.EntersClear, ← agree.steppedOpcode, ← agree.registerFile]
    exact enters
  refine ⟨(kept_onentry enters).trans kept, outcome', ?_, same⟩
  rw [gdbMonitor, if_pos enters', served']

/-- Whatever a debugger asks for, the cells of the monitor stay as they are, and what is sent
and left elsewhere does not depend on them. -/
theorem gdbHandleException_agree (agree : stub.Agree own stub')
    (left : gdbHandleException own sigval stub rxbuf rx = some outcome) :
    own.Kept stub.mem outcome.stub.mem ∧
      ∃ outcome', gdbHandleException own sigval stub' rxbuf rx = some outcome' ∧
        outcome.Agree own outcome' := by
  rw [gdbHandleException, Option.bind_eq_some_iff] at left
  obtain ⟨traffic, sent, left⟩ := left
  obtain ⟨later, monitored, rfl⟩ := Option.map_eq_some_iff.mp left
  obtain ⟨kept, later', monitored', same⟩ := gdbMonitor_agree agree monitored
  refine ⟨kept,
    { later' with exit := later'.exit.ofException, sent := traffic.sent ++ later'.sent }, ?_,
    same.stub, congrArg Exit.ofException same.exit, congrArg (traffic.sent ++ ·) same.sent, same.rest⟩
  rw [gdbHandleException, ← agree.registerFile, sent, Option.bind_some, monitored']
  rfl

theorem strl_agree {mem mem' : ByteMemory} (h : own.Agree mem mem') {fuel : ℕ} {buf : BitVec 32} :
    strl own mem fuel buf = strl own mem' fuel buf := by
  induction fuel generalizing buf with
  | zero => rfl
  | succ fuel ih =>
    rw [strl, strl, ih]
    by_cases mine : own buf = true
    · rw [if_pos mine, if_pos mine]
    · rw [h buf (Bool.eq_false_iff.mpr mine)]

theorem gdbFileIo_agree {syscall arg1 arg2 arg3 : BitVec 32} (agree : stub.Agree own stub')
    (left : gdbFileIo own stub syscall arg1 arg2 arg3 rxbuf rx = some outcome) :
    own.Kept stub.mem outcome.stub.mem ∧
      ∃ outcome', gdbFileIo own stub' syscall arg1 arg2 arg3 rxbuf rx = some outcome' ∧
        outcome.Agree own outcome' := by
  have asks : fileIoData own stub.mem syscall arg1 arg2 arg3 =
      fileIoData own stub'.mem syscall arg1 arg2 arg3 := by
    rw [fileIoData, fileIoData, strl_agree agree.mem]
  rw [gdbFileIo] at left ⊢
  by_cases unknown : syscall = 0 ∨ nrSyscalls.slt syscall = true
  · rw [if_pos unknown] at left ⊢
    obtain rfl := Option.some.inj left
    exact ⟨fun _ _ => rfl, { stub := stub', exit := .ret (-1), sent := [], rest := rx }, rfl, agree,
      rfl, rfl, rfl⟩
  · rw [if_neg unknown, Option.bind_eq_some_iff] at left
    obtain ⟨data, asked, left⟩ := left
    obtain ⟨later, monitored, rfl⟩ := Option.map_eq_some_iff.mp left
    obtain ⟨kept, later', monitored', same⟩ := gdbMonitor_agree agree monitored
    refine ⟨kept, { later' with sent := frame data ++ later'.sent }, ?_, same.stub, same.exit,
      congrArg (frame data ++ ·) same.sent, same.rest⟩
    rw [if_neg unknown, ← asks, asked, Option.bind_some, monitored']
    rfl

end Sessions

end JCore.Gdb
