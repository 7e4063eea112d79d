import JCore.Lib.Buffer
import JCore.Lib.Trace
import JCore.Sim.DebugSkt

/-!
# Debug plans for the memory

`debug_plan.c`: the requests with which a debugger reads or writes a block of words through
instructions that the CPU is made to execute. The counters of a plan are C `int`s of 32 bits;
the one that delays the collection of the replies runs on to the end of a plan.

## Main definitions

* `memReadNext`, `memWriteNext`, `debugPlanNext`: one call
* `call`: the calls on a plan
* `execute`: what the requests make the CPU do
* `ReadsBlock`, `WritesBlock`: what a plan is for

## Main results

* `state_read`, `state_write`: the plan before each call
* `plans_iff`: the plans do what they are for as long as the counter has room
-/

namespace JCore.Debugger

open DebugSkt (DebugCmd DebugRequest)

/-- The state of a memory plan. The buffer is a pointer, as an offset from the first word that
the caller has given, or null. -/
structure DebugPlanMem where
  i : BitVec 32
  numWords : BitVec 32
  addr : BitVec 32
  buf : Option ℤ
  r0 : BitVec 32
  deriving DecidableEq, Repr

/-- The functions that `next` may point to. -/
inductive PlanNext where
  | memRead | memWrite
  deriving DecidableEq, Repr

structure DebugPlan where
  next : PlanNext
  mem : DebugPlanMem
  deriving DecidableEq, Repr

/-- What a call does: the state and the request that it leaves, whether it returns 1, and the
word of the buffer that it writes or reads. -/
structure Call where
  mem : DebugPlanMem
  request : DebugRequest
  more : Bool
  stored : Option (ℤ × BitVec 32)
  loaded : Option ℤ
  deriving DecidableEq, Repr

/-- The request for a `NOP`. -/
def nop : DebugRequest := { cmd := .insert, instr := 0x0009, data := 0, dataEn := 0 }

/-- The request for an instruction with an operand of its own. -/
def override (instr : BitVec 16) (data : BitVec 32) : DebugRequest :=
  { cmd := .insert, instr := instr, data := data, dataEn := 1 }

/-- `MOV.L @R1,R0` -/
def load (addr : BitVec 32) : DebugRequest := override 0x6012 addr

/-- `MOV.L R1,@-R0` -/
def store (data : BitVec 32) : DebugRequest := override 0x2016 data

/-- `MOV R0,R0` -/
def setR0 (data : BitVec 32) : DebugRequest := override 0x6003 data

/-- `mem_read_next` -/
def memReadNext (mem : DebugPlanMem) (rep : BitVec 32) : Call :=
  let collects : Bool := 6 ≤ mem.i.toInt
  let stored := if collects then mem.buf.map fun p => (p, rep) else none
  let buf := if collects then mem.buf.map (· + 1) else mem.buf
  let next := { mem with i := mem.i + 1, numWords := mem.numWords - 1, buf := buf }
  if 0 < mem.numWords.toInt then
    { mem := { next with addr := mem.addr + 4 }, request := load mem.addr, more := true
      stored := stored, loaded := none }
  else if mem.numWords.toInt = -2 then
    { mem := next, request := setR0 mem.r0, more := true, stored := stored, loaded := none }
  else if mem.numWords.toInt = -5 then
    { mem := { mem with buf := buf }, request := nop, more := false, stored := stored
      loaded := none }
  else { mem := next, request := nop, more := true, stored := stored, loaded := none }

/-- `mem_write_next`, with the words that the pointer of the buffer leads to. -/
def memWriteNext (mem : DebugPlanMem) (words : ℤ → BitVec 32) : Call :=
  let next := { mem with i := mem.i + 1, numWords := mem.numWords - 1 }
  if mem.i = 0 then
    { mem := next, request := setR0 mem.addr, more := true, stored := none, loaded := none }
  else if 0 ≤ mem.numWords.toInt then
    { mem := { next with buf := mem.buf.map (· - 1) }, request := store ((mem.buf.map words).getD 0)
      more := true, stored := none, loaded := mem.buf }
  else if mem.numWords.toInt = -1 then
    { mem := next, request := setR0 mem.r0, more := true, stored := none, loaded := none }
  else if mem.numWords.toInt = -3 then
    { mem := mem, request := nop, more := false, stored := none, loaded := none }
  else { mem := next, request := nop, more := true, stored := none, loaded := none }

/-- `debug_plan_init_mem_read` -/
def debugPlanInitMemRead (addr numWords : BitVec 32) (buf : Option ℤ) (r0 : BitVec 32) :
    DebugPlan :=
  { next := .memRead, mem := { i := 0, numWords := numWords, addr := addr, buf := buf, r0 := r0 } }

/-- `debug_plan_init_mem_write`: the stores go from the highest word down. -/
def debugPlanInitMemWrite (addr numWords : BitVec 32) (buf : Option ℤ) (r0 : BitVec 32) :
    DebugPlan :=
  { next := .memWrite
    mem :=
      { i := 0, numWords := numWords, addr := addr + numWords * 4
        buf := buf.map (· + numWords.toNat - 1), r0 := r0 } }

/-- `debug_plan_next` -/
def debugPlanNext (plan : DebugPlan) (prevReply : BitVec 32) (words : ℤ → BitVec 32) : Call :=
  match plan.next with
  | .memRead => memReadNext plan.mem prevReply
  | .memWrite => memWriteNext plan.mem words

/-! ### The calls on a plan -/

section Calls

variable (plan : DebugPlan) (given : ℕ → BitVec 32) (words : ℤ → BitVec 32)

/-- The plan before call `k`, when call `k` is given the reply `given k`. -/
def state : ℕ → DebugPlan :=
  trace (fun plan rep => { plan with mem := (debugPlanNext plan rep words).mem }) plan given

def call (k : ℕ) : Call := debugPlanNext (state plan given words k) (given k) words

/-- The requests of the first `n` calls. -/
def issued (n : ℕ) : List DebugRequest :=
  (List.range n).map fun k => (call plan given words k).request

/-- The words of the buffer that the first `n` calls write. -/
def storedWords (n : ℕ) : List (ℤ × BitVec 32) :=
  history (fun k => (call plan given words k).stored) n

/-- Those that they read. -/
def loadedWords (n : ℕ) : List ℤ := history (fun k => (call plan given words k).loaded) n

end Calls

/-- The reply to request `k` is given to the next call. -/
def replyTo (given : ℕ → BitVec 32) (k : ℕ) : BitVec 32 := given (k + 1)

/-- `R0` of the CPU, and the words that it has written to the memory. -/
structure Cpu where
  r0 : BitVec 32
  stores : List (BitVec 32 × BitVec 32)

/-- What the CPU does on a request whose data replaces the first operand; the memory answers
its loads. -/
def execute (mem : BitVec 32 → BitVec 32) (cpu : Cpu) (req : DebugRequest) : Cpu :=
  if req.dataEn = 0 then cpu
  else if req.instr = 0x6003 then { cpu with r0 := req.data }
  else if req.instr = 0x6012 then { cpu with r0 := mem req.data }
  else if req.instr = 0x2016 then
    { r0 := cpu.r0 - 4, stores := cpu.stores ++ [(cpu.r0 - 4, req.data)] }
  else cpu

/-! ### What the plans are for -/

section Blocks

variable (addr numWords r0 : BitVec 32) (given : ℕ → BitVec 32) (words : ℤ → BitVec 32)

/-- The calls on a plan for reading a block: a load for each word, then the restored `R0`, and
each reply at its place in the buffer. -/
structure ReadsBlock : Prop where
  issued : issued (debugPlanInitMemRead addr numWords (some 0) r0) given words
      (numWords.toNat + 6) =
    (List.range numWords.toNat).map (fun j => load (addr + 4 * BitVec.ofNat 32 j)) ++
      [nop, nop, setR0 r0, nop, nop, nop]
  executed : ∀ mem cpu, (Debugger.issued (debugPlanInitMemRead addr numWords (some 0) r0) given
      words (numWords.toNat + 6)).foldl (execute mem) cpu = { cpu with r0 := r0 }
  stored : storedWords (debugPlanInitMemRead addr numWords (some 0) r0) given words
      (numWords.toNat + 6) =
    (List.range numWords.toNat).map fun j : ℕ => ((j : ℤ), replyTo given (j + 5))
  loaded : loadedWords (debugPlanInitMemRead addr numWords (some 0) r0) given words
      (numWords.toNat + 6) = []
  more : ∀ k ≤ numWords.toNat + 5,
    (call (debugPlanInitMemRead addr numWords (some 0) r0) given words k).more = true ↔
      k < numWords.toNat + 5

/-- The calls on a plan for writing a block: the address behind it, a store for each word from
the last one down, then the restored `R0`. The CPU writes each word to its place. -/
structure WritesBlock : Prop where
  issued : issued (debugPlanInitMemWrite addr numWords (some 0) r0) given words
      (numWords.toNat + 4) =
    setR0 (addr + 4 * numWords) ::
      (List.range numWords.toNat).reverse.map (fun j : ℕ => store (words j)) ++
        [setR0 r0, nop, nop]
  executed : ∀ mem cpu, (Debugger.issued (debugPlanInitMemWrite addr numWords (some 0) r0) given
      words (numWords.toNat + 4)).foldl (execute mem) cpu =
    { r0 := r0
      stores := cpu.stores ++ (List.range numWords.toNat).reverse.map fun j : ℕ =>
        (addr + 4 * BitVec.ofNat 32 j, words j) }
  stored : storedWords (debugPlanInitMemWrite addr numWords (some 0) r0) given words
      (numWords.toNat + 4) = []
  loaded : loadedWords (debugPlanInitMemWrite addr numWords (some 0) r0) given words
      (numWords.toNat + 4) = (List.range numWords.toNat).reverse.map fun j : ℕ => (j : ℤ)
  more : ∀ k ≤ numWords.toNat + 3,
    (call (debugPlanInitMemWrite addr numWords (some 0) r0) given words k).more = true ↔
      k < numWords.toNat + 3

end Blocks

/-! ### The counters -/

theorem toInt_left {n : ℕ} (h : n < 2 ^ 31) {k : ℕ} (hk : k ≤ n + 5) :
    (BitVec.ofInt 32 ((n : ℤ) - k)).toInt = n - k := by
  rw [BitVec.toInt_ofInt]
  exact Int.bmod_eq_of_le (by omega) (by omega)

theorem ofInt_left_succ (n : ℤ) (k : ℕ) :
    BitVec.ofInt 32 (n - k) - 1 = BitVec.ofInt 32 (n - (k + 1 : ℕ)) := by
  have split : n - (k : ℤ) = n - (k + 1 : ℕ) + 1 := by omega
  rw [split, BitVec.ofInt_add]
  exact BitVec.add_sub_cancel _ _

/-- The counter of the calls turns negative when it has run through the positive numbers. -/
theorem six_le_toInt {k : ℕ} (h : k < 2 ^ 32) :
    6 ≤ (BitVec.ofNat 32 k).toInt ↔ 6 ≤ k ∧ k < 2 ^ 31 := by
  rw [BitVec.toInt_eq_toNat_cond, BitVec.toNat_ofNat, Nat.mod_eq_of_lt h]
  split <;> omega

variable {addr numWords r0 : BitVec 32} {given : ℕ → BitVec 32} {words : ℤ → BitVec 32}

/-! ### Reading -/

section Read

variable (mem : DebugPlanMem) (rep : BitVec 32)

theorem memReadNext_request : (memReadNext mem rep).request =
    if 0 < mem.numWords.toInt then load mem.addr
    else if mem.numWords.toInt = -2 then setR0 mem.r0
    else nop := by
  rw [memReadNext]
  split_ifs <;> rfl

theorem memReadNext_more : (memReadNext mem rep).more = true ↔ mem.numWords.toInt ≠ -5 := by
  rw [memReadNext]
  split_ifs with h1 h2 h3 <;> simp <;> omega

theorem memReadNext_stored : (memReadNext mem rep).stored =
    if 6 ≤ mem.i.toInt then mem.buf.map fun p => (p, rep) else none := by
  rw [memReadNext]
  split_ifs <;> simp_all

theorem memReadNext_loaded : (memReadNext mem rep).loaded = none := by
  rw [memReadNext]
  split_ifs <;> rfl

/-- A call that is not the last one goes on to the next word. -/
theorem memReadNext_mem (h : mem.numWords.toInt ≠ -5) : (memReadNext mem rep).mem =
    { i := mem.i + 1, numWords := mem.numWords - 1
      addr := if 0 < mem.numWords.toInt then mem.addr + 4 else mem.addr
      buf := if 6 ≤ mem.i.toInt then mem.buf.map (· + 1) else mem.buf, r0 := mem.r0 } := by
  rw [memReadNext]
  split_ifs <;> simp_all

end Read

/-- The plan for reading before call `k`. -/
def readPlan (addr numWords r0 : BitVec 32) (k : ℕ) : DebugPlan :=
  { next := .memRead
    mem :=
      { i := BitVec.ofNat 32 k, numWords := BitVec.ofInt 32 ((numWords.toNat : ℤ) - k)
        addr := addr + 4 * BitVec.ofNat 32 (min k numWords.toNat)
        buf := some ((min k (2 ^ 31) - 6 : ℕ) : ℤ), r0 := r0 } }

theorem readPlan_zero :
    debugPlanInitMemRead addr numWords (some 0) r0 = readPlan addr numWords r0 0 := by
  simp [debugPlanInitMemRead, readPlan]

theorem state_read (h : numWords.toNat < 2 ^ 31) {k : ℕ} (hk : k ≤ numWords.toNat + 5) :
    state (debugPlanInitMemRead addr numWords (some 0) r0) given words k =
      readPlan addr numWords r0 k := by
  induction k with
  | zero => exact readPlan_zero
  | succ k ih =>
    have left := toInt_left h (Nat.le_of_succ_le hk)
    have collects := six_le_toInt (k := k) (by omega)
    have next : debugPlanNext (readPlan addr numWords r0 k) (given k) words =
        memReadNext (readPlan addr numWords r0 k).mem (given k) := rfl
    have more : (readPlan addr numWords r0 k).mem.numWords.toInt ≠ -5 := by
      rw [readPlan, left]
      omega
    rw [state, trace_succ, ← state, ih (Nat.le_of_succ_le hk), next, memReadNext_mem _ _ more]
    simp only [readPlan, left, collects, DebugPlan.mk.injEq, DebugPlanMem.mk.injEq, true_and,
      and_true]
    refine ⟨(BitVec.ofNat_add k 1).symm, ofInt_left_succ _ k, ?_, ?_⟩
    · split_ifs with words
      · have hmin : min (k + 1) numWords.toNat = k + 1 := by omega
        have hmin' : min k numWords.toNat = k := by omega
        rw [hmin, hmin', BitVec.ofNat_add, BitVec.mul_add, BitVec.add_assoc]
        rfl
      · congr 3
        omega
    · split_ifs with full
      · rw [Option.map_some]
        congr 1
        omega
      · congr 1
        omega

section ReadCalls

variable {k : ℕ} (h : numWords.toNat < 2 ^ 31) (hk : k ≤ numWords.toNat + 5)

include h hk

theorem call_read : call (debugPlanInitMemRead addr numWords (some 0) r0) given words k =
    memReadNext (readPlan addr numWords r0 k).mem (given k) := by
  rw [call, state_read h hk]
  rfl

theorem request_read : (call (debugPlanInitMemRead addr numWords (some 0) r0) given words k).request =
    if k < numWords.toNat then load (addr + 4 * BitVec.ofNat 32 k)
    else if k = numWords.toNat + 2 then setR0 r0
    else nop := by
  rw [call_read h hk, memReadNext_request]
  simp only [readPlan, toInt_left h hk]
  have positive : 0 < (numWords.toNat : ℤ) - k ↔ k < numWords.toNat := by omega
  have restores : (numWords.toNat : ℤ) - k = -2 ↔ k = numWords.toNat + 2 := by omega
  rw [if_congr positive rfl (if_congr restores rfl rfl)]
  split_ifs with words
  · rw [Nat.min_eq_left words.le]
  · rfl
  · rfl

theorem more_read :
    (call (debugPlanInitMemRead addr numWords (some 0) r0) given words k).more = true ↔
      k < numWords.toNat + 5 := by
  rw [call_read h hk, memReadNext_more]
  simp only [readPlan, toInt_left h hk]
  omega

theorem stored_read :
    (call (debugPlanInitMemRead addr numWords (some 0) r0) given words k).stored =
      if 6 ≤ k ∧ k < 2 ^ 31 then some (((k - 6 : ℕ) : ℤ), given k) else none := by
  rw [call_read h hk, memReadNext_stored]
  have collects := six_le_toInt (k := k) (by omega)
  simp only [readPlan, collects]
  split_ifs with full
  · rw [Nat.min_eq_left full.2.le]
    rfl
  · rfl

theorem loaded_read :
    (call (debugPlanInitMemRead addr numWords (some 0) r0) given words k).loaded = none := by
  rw [call_read h hk, memReadNext_loaded]

end ReadCalls

theorem issued_read (h : numWords.toNat < 2 ^ 31) :
    issued (debugPlanInitMemRead addr numWords (some 0) r0) given words (numWords.toNat + 6) =
      (List.range numWords.toNat).map (fun j => load (addr + 4 * BitVec.ofNat 32 j)) ++
        [nop, nop, setR0 r0, nop, nop, nop] := by
  rw [issued, List.range_add, List.map_append, List.map_map]
  congr 1
  · apply List.map_congr_left
    intro k hk
    rw [List.mem_range] at hk
    rw [request_read h (by omega), if_pos hk]
  · have after : ∀ j ∈ List.range 6, (call (debugPlanInitMemRead addr numWords (some 0) r0) given
        words (numWords.toNat + j)).request = if j = 2 then setR0 r0 else nop := by
      intro j hj
      rw [List.mem_range] at hj
      rw [request_read h (by omega), if_neg (by omega)]
      exact if_congr (by omega) rfl rfl
    exact List.map_congr_left after

/-- Loads write nothing to the memory. -/
theorem execute_loads (mem : BitVec 32 → BitVec 32) (cpu : Cpu) (addrs : List (BitVec 32)) :
    ((addrs.map load).foldl (execute mem) cpu).stores = cpu.stores := by
  induction addrs generalizing cpu with
  | nil => rfl
  | cons addr addrs ih => exact ih (execute mem cpu (load addr))

theorem readsBlock (h : numWords.toNat + 5 < 2 ^ 31) :
    ReadsBlock addr numWords r0 given words where
  issued := issued_read (by omega)
  executed mem cpu := by
    have loads := execute_loads mem cpu
      ((List.range numWords.toNat).map fun j => addr + 4 * BitVec.ofNat 32 j)
    rw [List.map_map] at loads
    rw [issued_read (by omega), List.foldl_append]
    exact congrArg (Cpu.mk r0) loads
  stored := by
    rw [storedWords, Nat.add_comm]
    apply history_stretch
    · intro k hk
      rw [stored_read (by omega) (by omega), if_neg (by omega)]
    · intro j hj
      rw [stored_read (by omega) (by omega), if_pos (by omega), replyTo, Nat.add_sub_cancel_left]
      congr 3
      omega
  loaded := by
    apply history_quiet (Nat.zero_le _)
    intro k _ hk
    rw [loaded_read (by omega) (by omega)]
  more k hk := more_read (by omega) hk

/-- Past the room of the counter the last word is not collected. -/
theorem not_readsBlock (h : numWords.toNat < 2 ^ 31) (long : 2 ^ 31 ≤ numWords.toNat + 5) :
    ¬ ReadsBlock addr numWords r0 given words := by
  intro reads
  have last : (((numWords.toNat - 1 : ℕ) : ℤ), replyTo given (numWords.toNat - 1 + 5)) ∈
      storedWords (debugPlanInitMemRead addr numWords (some 0) r0) given words
        (numWords.toNat + 6) := by
    rw [reads.stored]
    exact List.mem_map.mpr ⟨numWords.toNat - 1, List.mem_range.mpr (by omega), rfl⟩
  obtain ⟨k, hk, stored⟩ := mem_history.mp last
  rw [stored_read h (by omega)] at stored
  split_ifs at stored with collected
  have place := congrArg Prod.fst (Option.some.inj stored)
  simp only [Nat.cast_inj] at place
  omega

/-! ### Writing -/

section Write

variable (mem : DebugPlanMem)

theorem memWriteNext_request : (memWriteNext mem words).request =
    if mem.i = 0 then setR0 mem.addr
    else if 0 ≤ mem.numWords.toInt then store ((mem.buf.map words).getD 0)
    else if mem.numWords.toInt = -1 then setR0 mem.r0
    else nop := by
  rw [memWriteNext]
  split_ifs <;> rfl

theorem memWriteNext_more :
    (memWriteNext mem words).more = true ↔ mem.i = 0 ∨ mem.numWords.toInt ≠ -3 := by
  rw [memWriteNext]
  split_ifs <;> simp_all
  omega

theorem memWriteNext_stored : (memWriteNext mem words).stored = none := by
  rw [memWriteNext]
  split_ifs <;> rfl

theorem memWriteNext_loaded : (memWriteNext mem words).loaded =
    if mem.i ≠ 0 ∧ 0 ≤ mem.numWords.toInt then mem.buf else none := by
  rw [memWriteNext]
  split_ifs <;> simp_all

/-- A call that is not the last one goes on to the next word. -/
theorem memWriteNext_mem (h : mem.i = 0 ∨ mem.numWords.toInt ≠ -3) :
    (memWriteNext mem words).mem =
      { mem with
        i := mem.i + 1, numWords := mem.numWords - 1
        buf := if mem.i ≠ 0 ∧ 0 ≤ mem.numWords.toInt then mem.buf.map (· - 1) else mem.buf } := by
  rw [memWriteNext]
  split_ifs <;> simp_all

end Write

/-- The plan for writing before call `k`. -/
def writePlan (addr numWords r0 : BitVec 32) (k : ℕ) : DebugPlan :=
  { next := .memWrite
    mem :=
      { i := BitVec.ofNat 32 k, numWords := BitVec.ofInt 32 ((numWords.toNat : ℤ) - k)
        addr := addr + numWords * 4
        buf := some (numWords.toNat - (max 1 (min k (numWords.toNat + 1)) : ℕ)), r0 := r0 } }

theorem writePlan_zero :
    debugPlanInitMemWrite addr numWords (some 0) r0 = writePlan addr numWords r0 0 := by
  simp [debugPlanInitMemWrite, writePlan]

theorem ofNat_eq_zero_iff {k : ℕ} (h : k < 2 ^ 32) : BitVec.ofNat 32 k = 0 ↔ k = 0 := by
  rw [← BitVec.toNat_inj, BitVec.toNat_ofNat, Nat.mod_eq_of_lt h]
  rfl

theorem state_write (h : numWords.toNat < 2 ^ 31) {k : ℕ} (hk : k ≤ numWords.toNat + 3) :
    state (debugPlanInitMemWrite addr numWords (some 0) r0) given words k =
      writePlan addr numWords r0 k := by
  induction k with
  | zero => exact writePlan_zero
  | succ k ih =>
    have left := toInt_left (k := k) h (by omega)
    have first := ofNat_eq_zero_iff (k := k) (by omega)
    have next : debugPlanNext (writePlan addr numWords r0 k) (given k) words =
        memWriteNext (writePlan addr numWords r0 k).mem words := rfl
    have more : (writePlan addr numWords r0 k).mem.numWords.toInt ≠ -3 := by
      rw [writePlan, left]
      omega
    rw [state, trace_succ, ← state, ih (Nat.le_of_succ_le hk), next,
      memWriteNext_mem _ (.inr more)]
    simp only [writePlan, left, ne_eq, first, DebugPlan.mk.injEq, DebugPlanMem.mk.injEq, true_and,
      and_true]
    refine ⟨(BitVec.ofNat_add k 1).symm, ofInt_left_succ _ k, ?_⟩
    split_ifs with words
    · rw [Option.map_some]
      congr 1
      omega
    · congr 3
      omega

section WriteCalls

variable {k : ℕ} (h : numWords.toNat < 2 ^ 31) (hk : k ≤ numWords.toNat + 3)

include h hk

theorem call_write : call (debugPlanInitMemWrite addr numWords (some 0) r0) given words k =
    memWriteNext (writePlan addr numWords r0 k).mem words := by
  rw [call, state_write h hk]
  rfl

theorem request_write :
    (call (debugPlanInitMemWrite addr numWords (some 0) r0) given words k).request =
      if k = 0 then setR0 (addr + 4 * numWords)
      else if k ≤ numWords.toNat then store (words (numWords.toNat - k : ℕ))
      else if k = numWords.toNat + 1 then setR0 r0
      else nop := by
  rw [call_write h hk, memWriteNext_request]
  have first := ofNat_eq_zero_iff (k := k) (by omega)
  simp only [writePlan, toInt_left (k := k) h (by omega), first]
  have stores : 0 ≤ (numWords.toNat : ℤ) - k ↔ k ≤ numWords.toNat := by omega
  have restores : (numWords.toNat : ℤ) - k = -1 ↔ k = numWords.toNat + 1 := by omega
  rw [if_congr stores rfl (if_congr restores rfl rfl)]
  split_ifs with start words
  · rw [BitVec.mul_comm]
  · rw [Option.map_some, Option.getD_some]
    congr 2
    omega
  · rfl
  · rfl

theorem more_write :
    (call (debugPlanInitMemWrite addr numWords (some 0) r0) given words k).more = true ↔
      k < numWords.toNat + 3 := by
  rw [call_write h hk, memWriteNext_more]
  have first := ofNat_eq_zero_iff (k := k) (by omega)
  simp only [writePlan, toInt_left (k := k) h (by omega), first]
  omega

theorem stored_write :
    (call (debugPlanInitMemWrite addr numWords (some 0) r0) given words k).stored = none := by
  rw [call_write h hk, memWriteNext_stored]

theorem loaded_write :
    (call (debugPlanInitMemWrite addr numWords (some 0) r0) given words k).loaded =
      if k ≠ 0 ∧ k ≤ numWords.toNat then some ((numWords.toNat - k : ℕ) : ℤ) else none := by
  rw [call_write h hk, memWriteNext_loaded]
  have first := ofNat_eq_zero_iff (k := k) (by omega)
  have stores : 0 ≤ (numWords.toNat : ℤ) - k ↔ k ≤ numWords.toNat := by omega
  simp only [writePlan, toInt_left (k := k) h (by omega), ne_eq, first, stores]
  split_ifs with words
  · congr 1
    omega
  · rfl

end WriteCalls

/-- From the last one down. -/
theorem range_reverse (n : ℕ) {α : Type*} (f : ℕ → α) :
    (List.range n).reverse.map f = (List.range n).map fun j => f (n - 1 - j) := by
  apply List.ext_getElem
  · simp
  · intro j _ _
    simp

theorem issued_write (h : numWords.toNat < 2 ^ 31) :
    issued (debugPlanInitMemWrite addr numWords (some 0) r0) given words (numWords.toNat + 4) =
      setR0 (addr + 4 * numWords) ::
        (List.range numWords.toNat).reverse.map (fun j : ℕ => store (words j)) ++
          [setR0 r0, nop, nop] := by
  have count : numWords.toNat + 4 = 1 + numWords.toNat + 3 := by omega
  rw [issued, count, List.range_add, List.range_add, List.map_append, List.map_append,
    range_reverse, List.map_map, List.map_map]
  congr 1
  · apply congrArg₂ List.cons
    · exact request_write h (Nat.zero_le _)
    · apply List.map_congr_left
      intro k hk
      rw [List.mem_range] at hk
      change (call _ _ _ (1 + k)).request = _
      rw [request_write h (by omega), if_neg (by omega), if_pos (by omega)]
      congr 3
      omega
  · have after : ∀ j ∈ List.range 3, (call (debugPlanInitMemWrite addr numWords (some 0) r0) given
        words (1 + numWords.toNat + j)).request = if j = 0 then setR0 r0 else nop := by
      intro j hj
      rw [List.mem_range] at hj
      rw [request_write h (by omega), if_neg (by omega), if_neg (by omega)]
      exact if_congr (by omega) rfl rfl
    exact List.map_congr_left after

/-- Stores in turn go to lower and lower addresses. -/
theorem execute_stores (mem : BitVec 32 → BitVec 32) (cpu : Cpu) (data : ℕ → BitVec 32) (n : ℕ) :
    ((List.range n).map fun j => store (data j)).foldl (execute mem) cpu =
      { r0 := cpu.r0 - 4 * BitVec.ofNat 32 n
        stores := cpu.stores ++ (List.range n).map fun j =>
          (cpu.r0 - 4 * BitVec.ofNat 32 (j + 1), data j) } := by
  have next (j : ℕ) : cpu.r0 - 4 * BitVec.ofNat 32 j - 4 =
      cpu.r0 - 4 * BitVec.ofNat 32 (j + 1) := by
    rw [BitVec.ofNat_add, BitVec.mul_add, BitVec.sub_sub]
    rfl
  induction n with
  | zero => simp
  | succ n ih =>
    rw [List.range_succ, List.map_append, List.foldl_append, ih, List.map_append]
    simp only [List.map_cons, List.map_nil, List.foldl_cons, List.foldl_nil]
    rw [← List.append_assoc, ← next n]
    rfl

theorem writesBlock (h : numWords.toNat < 2 ^ 31) : WritesBlock addr numWords r0 given words where
  issued := issued_write h
  executed mem cpu := by
    rw [issued_write h, range_reverse, List.cons_append, List.foldl_cons, List.foldl_append,
      execute_stores, range_reverse]
    change Cpu.mk r0 (cpu.stores ++ _) = _
    congr 2
    apply List.map_congr_left
    intro j hj
    rw [List.mem_range] at hj
    -- the stores come from the last word down
    have split : numWords = BitVec.ofNat 32 (numWords.toNat - 1 - j) + BitVec.ofNat 32 (j + 1) := by
      rw [← BitVec.ofNat_add]
      have sum : numWords.toNat - 1 - j + (j + 1) = numWords.toNat := by omega
      rw [sum, BitVec.ofNat_toNat, BitVec.setWidth_eq]
    congr 1
    change addr + 4 * numWords - 4 * BitVec.ofNat 32 (j + 1) = _
    nth_rewrite 1 [split]
    rw [BitVec.mul_add, ← BitVec.add_assoc, BitVec.add_sub_cancel]
  stored := by
    apply history_quiet (Nat.zero_le _)
    intro k _ hk
    rw [stored_write h (by omega)]
  loaded := by
    -- the words are loaded after the address, and three calls load nothing
    have count : numWords.toNat + 4 = 1 + numWords.toNat + 3 := by omega
    have rest : loadedWords (debugPlanInitMemWrite addr numWords (some 0) r0) given words
        (1 + numWords.toNat + 3) =
        loadedWords (debugPlanInitMemWrite addr numWords (some 0) r0) given words
          (1 + numWords.toNat) := by
      apply history_quiet (Nat.le_add_right _ _)
      intro k le hk
      rw [loaded_write h (by omega), if_neg (by omega)]
    rw [count, rest, range_reverse]
    apply history_stretch
    · intro k hk
      rw [loaded_write h (by omega), if_neg (by omega)]
    · intro j hj
      rw [loaded_write h (by omega), if_pos (by omega)]
      congr 2
      omega
  more k hk := more_write h hk

/-- The plans read and write their blocks exactly if the counter of the calls has room. -/
theorem plans_iff (addr numWords r0 : BitVec 32) (given : ℕ → BitVec 32) (words : ℤ → BitVec 32)
    (h : numWords.toNat < 2 ^ 31) :
    ReadsBlock addr numWords r0 given words ∧ WritesBlock addr numWords r0 given words ↔
      numWords.toNat + 5 < 2 ^ 31 := by
  constructor
  · rintro ⟨reads, -⟩
    by_contra long
    exact not_readsBlock h (by omega) reads
  · exact fun room => ⟨readsBlock room, writesBlock h⟩

/-- Three words. -/
theorem plans_iff_three :
    ReadsBlock 0xfffffffc 3 0x1234 (fun k => BitVec.ofNat 32 k) (fun _ => 0) ∧
      WritesBlock 0xfffffffc 3 0x1234 (fun _ => 0) (fun k => BitVec.ofInt 32 k) :=
  ⟨((plans_iff 0xfffffffc 3 0x1234 _ _ (by decide)).mpr (by decide)).1,
    ((plans_iff 0xfffffffc 3 0x1234 _ _ (by decide)).mpr (by decide)).2⟩

/-- The shortest block for which the counter of the calls has no room. -/
theorem readsBlock_overflow : (0x7ffffffb#32).toNat < 2 ^ 31 ∧
    ¬ ReadsBlock 0 0x7ffffffb 0 (fun _ => 0) (fun _ => 0) :=
  ⟨by decide, not_readsBlock (by decide) (by decide)⟩

end JCore.Debugger
