import JCore.Mult.Arith
import JCore.Mult.Schedule

/-!
# A stream of MAC.W instructions

`MULT_CODE` selects `m1` for both states of `MACW`, although the command copies
the operand to `mb`. A load of the next instruction in the clock after the
command therefore replaces the operand between the two states. The magnitudes
and the cross terms are already in `abh` and `p23` by then, but the product of
the sign bits is taken in the second state, from the new operand.

## Main results

* `run_stream_macw`: what a stream of `MAC.W` leaves in `MACH:MACL`
* `macw_stream_eq_iff`: that is the sum of the products exactly if the sign
  errors of the overlapping pairs cancel modulo `2 ^ 34`
* `macw_stream_overlap_wrong`: two pairs for which they do not
-/

namespace JCore.Mult

open BitVec

/-- The sign of a 16-bit operand. -/
def sign16 (x : BitVec 32) : ℤ := (x.getLsbD 15).toNat

/-- The magnitudes' product and the cross terms of a 16-bit product. -/
def macwRegistered (a b : BitVec 32) : ℤ :=
  (a.extractLsb' 0 15).toNat * (b.extractLsb' 0 15).toNat -
    2 ^ 15 * (sign16 a * (b.extractLsb' 0 15).toNat + sign16 b * (a.extractLsb' 0 15).toNat)

/-- What `MACW` adds when `m1` holds `m` in its second state. -/
def macwAddend (m a b : BitVec 32) : ℤ := macwRegistered a b + 2 ^ 30 * (sign16 m * sign16 b)

theorem macwAddend_eq (m a b : BitVec 32) :
    macwAddend m a b =
      signed16 a * signed16 b + 2 ^ 30 * ((sign16 m - sign16 a) * sign16 b) := by
  rw [macwAddend, macwRegistered, signed16_eq, signed16_eq, sign16, sign16, sign16]
  ring

/-! ### The states between two clocks -/

/-- The unit rests with `m` in `m1` and `total` in `MACH:MACL`. -/
structure Resting (m : BitVec 32) (total : BitVec 64) (this : MultReg) : Prop where
  state : this.state = .nop
  m1 : this.m1 = m
  mac : mac this = total

/-- A `MACW` command for the pair `a`, `b` was just taken. -/
structure MacwFirst (a b : BitVec 32) (total : BitVec 64) (this : MultReg) : Prop where
  state : this.state = .macw
  op : this.resultOp = .identity
  m1 : this.m1 = a
  m2 : this.m2 = b
  mac : mac this = total

/-- The product of `a` and `b` is registered, `m1` holds `m`. -/
structure MacwSecond (m a b : BitVec 32) (total : BitVec 64) (this : MultReg) : Prop where
  state : this.state = .macw1
  op : this.resultOp = .identity
  shift : this.shift = false
  m1 : this.m1 = m
  m2 : this.m2 = b
  abh : this.abh.toNat = (a.extractLsb' 0 15).toNat * (b.extractLsb' 0 15).toNat
  p23 : (this.p23.toNat : ℤ) =
    sign16 a * (b.extractLsb' 0 15).toNat + sign16 b * (a.extractLsb' 0 15).toNat
  mac : mac this = total

variable {this : MultReg} {m a b : BitVec 32} {total : BitVec 64} {i : Clock}

theorem Resting.busy (h : Resting m total this) : (code this).busy = false := by
  rw [code, h.state]
  rfl

theorem Resting.mac_step (h : Resting m total this) (hi : Passive i) :
    Mult.mac (step this i.1 i.2) = total := by
  rw [mac_step_keep this hi (by simp [h.state]) (by rw [code, h.state]; rfl)
    (by rw [code, h.state]; rfl), h.mac]

theorem Resting.idle (h : Resting m total this) (hi : Idle i) :
    Resting m total (step this i.1 i.2) where
  state := by rw [state_step_of_noCommand this hi.noCommand, code, h.state]; rfl
  m1 := by rw [m1_step_of_idle this hi, h.m1]
  mac := h.mac_step hi.noCommand.passive

theorem Resting.load (h : Resting m total this) (hi : Loads a i) :
    Resting a total (step this i.1 i.2) where
  state := by rw [state_step_of_noCommand this hi.noCommand, code, h.state]; rfl
  m1 := m1_step_of_loads this hi
  mac := h.mac_step hi.noCommand.passive

/-- A command that comes while the unit is free opens the first state. -/
theorem MacwFirst.of_command (free : (code this).busy = false) (hi : Commands .macw false b i)
    (hm1 : this.m1 = a) (hmac : Mult.mac (step this i.1 i.2) = total) :
    MacwFirst a b total (step this i.1 i.2) where
  state := state_step_of_commands this hi free (.inr rfl)
  op := by
    obtain ⟨hslot, -, -, hcmd, hs, -⟩ := hi
    simp [step, nextResultOp, free, hslot, hcmd, hs]
  m1 := by rw [m1_step_of_commands this hi, hm1]
  m2 := m2_step_of_commands this hi (.inr rfl)
  mac := hmac

theorem Resting.command (h : Resting a total this) (hi : Commands .macw false b i) :
    MacwFirst a b total (step this i.1 i.2) :=
  .of_command h.busy hi h.m1 (h.mac_step (hi.passive (.inr rfl)))

/-- The first state registers the product of the operands it sees. -/
theorem MacwFirst.second (h : MacwFirst a b total this) (hi : NoCommand i)
    (hm1 : (step this i.1 i.2).m1 = m) : MacwSecond m a b total (step this i.1 i.2) := by
  have hcode : code this = multCode .macw := by rw [code, h.state]
  have haa : aa this = a := by simp [aa, hcode, multCode, h.m1]
  refine ⟨?_, ?_, ?_, hm1, ?_, ?_, ?_, ?_⟩
  · rw [state_step_of_noCommand this hi, hcode]
    rfl
  · rw [resultOp_step_of_busy this (by rw [hcode]; rfl), h.op]
  · show (code this).shift = false
    rw [hcode]
    rfl
  · rw [m2_step_of_noCommand this hi, h.m2]
  · show (product this).toNat = _
    rw [toNat_product_b16 this (by rw [hcode]; rfl), haa, h.m2]
  · show ((p2 this + p3 this).toNat : ℤ) = _
    rw [toNat_p23_b16 this (by rw [hcode]; rfl) (by rw [hcode]; rfl), haa, h.m2, sign16, sign16]
    push_cast
    ring
  · rw [mac_step_keep this hi.passive (by simp [h.state]) (by rw [hcode]; rfl)
      (by rw [hcode]; rfl), h.mac]

theorem MacwFirst.idle (h : MacwFirst a b total this) (hi : Idle i) :
    MacwSecond a a b total (step this i.1 i.2) :=
  h.second hi.noCommand (by rw [m1_step_of_idle this hi, h.m1])

theorem MacwFirst.load (h : MacwFirst a b total this) (hi : Loads m i) :
    MacwSecond m a b total (step this i.1 i.2) :=
  h.second hi.noCommand (m1_step_of_loads this hi)

/-- The second state adds the registered product with the sign product of what
`m1` holds now. -/
theorem MacwSecond.toInt_c (h : MacwSecond m a b total this) :
    (c this).toInt = macwAddend m a b := by
  have hcode : code this = multCode .macw1 := by rw [code, h.state]
  have haa : aa this = m := by simp [aa, hcode, multCode, h.m1]
  have small : this.abh.toNat < 2 ^ 30 := by
    rw [h.abh, show 2 ^ 30 = 2 ^ 15 * 2 ^ 15 by rfl]
    exact Nat.mul_lt_mul'' (isLt _) (isLt _)
  rw [toInt_c_b16 this (by rw [hcode]; rfl) (by rw [hcode]; rfl) h.shift small, haa, h.m2, h.abh,
    h.p23, macwAddend, macwRegistered]
  push_cast
  simp only [sign16]
  ring

theorem MacwSecond.mac_step (h : MacwSecond m a b total this) (hi : Passive i) :
    Mult.mac (step this i.1 i.2) = total + BitVec.ofInt 64 (macwAddend m a b) := by
  have hcode : code this = multCode .macw1 := by rw [code, h.state]
  rw [mac_step_write this hi (by simp [h.state]) (by rw [hcode]; rfl) (by rw [hcode]; rfl),
    saturate, h.op]
  simp only
  rw [acc_eq this (by rw [hcode]; rfl), h.mac, ← h.toInt_c, ofInt_toInt, BitVec.add_comm]

theorem MacwSecond.resting (h : MacwSecond m a b total this) (hi : NoCommand i)
    {n : BitVec 32} (hm1 : (step this i.1 i.2).m1 = n) :
    Resting n (total + BitVec.ofInt 64 (macwAddend m a b)) (step this i.1 i.2) where
  state := by rw [state_step_of_noCommand this hi, code, h.state]; rfl
  m1 := hm1
  mac := h.mac_step hi.passive

theorem MacwSecond.command {b' : BitVec 32} (h : MacwSecond m a b total this)
    (hi : Commands .macw false b' i) :
    MacwFirst m b' (total + BitVec.ofInt 64 (macwAddend m a b)) (step this i.1 i.2) :=
  .of_command (by rw [code, h.state]; rfl) hi h.m1 (h.mac_step (hi.passive (.inr rfl)))

/-! ### Streams -/

variable {clocks : List Clock}

theorem Resting.idles (h : Resting m total this) (hi : ∀ i ∈ clocks, Idle i) :
    Resting m total (run this clocks) := by
  induction clocks generalizing this with
  | nil => exact h
  | cons i rest ih =>
    exact ih (h.idle (hi i (by simp))) fun j hj => hi j (List.mem_cons_of_mem i hj)

/-- From the load on, a resting unit takes the instruction's command. -/
theorem Resting.idles_command (h : Resting a total this) (hi : ∀ i ∈ clocks, Idle i)
    {c : Clock} (hc : Commands .macw false b c) :
    MacwFirst a b total (run this (clocks ++ [c])) := by
  rw [run_append]
  exact (h.idles hi).command hc

variable (issue next : Issue .macw false) (rest : List (Issue .macw false))

theorem Resting.first (h : Resting m total this) :
    MacwFirst issue.a issue.b total (run this issue.clocks) := by
  rw [Issue.clocks, Issue.lead, List.append_assoc, run_append, List.cons_append, run_cons]
  exact ((h.idles issue.before_idle).load issue.load_ok).idles_command issue.between_idle
    issue.command_ok

/-- The operand that `m1` holds in the second state of `MACW`. -/
def heldOperand (a : BitVec 32) (next : Issue .macw false) : BitVec 32 :=
  if next.Overlaps then next.a else a

/-- From the command of one instruction to the command of the next: the product
is added with the sign of whatever `m1` holds by then. -/
theorem MacwFirst.advance (h : MacwFirst a b total this) :
    MacwFirst next.a next.b (total + BitVec.ofInt 64 (macwAddend (heldOperand a next) a b))
      (run this next.clocks) := by
  obtain ⟨a', b', before, load, between, command, hbefore, hload, hbetween, hcommand⟩ := next
  simp only [Issue.clocks, Issue.lead, heldOperand, Issue.Overlaps]
  rcases before with _ | ⟨k, _ | ⟨l, before⟩⟩
  · -- the load falls between the two states of the command
    have second := h.load hload
    rcases between with _ | ⟨k, between⟩
    · exact second.command hcommand
    · have rest := second.resting (hbetween k (by simp)).noCommand
        (by rw [m1_step_of_idle _ (hbetween k (by simp)), second.m1])
      exact rest.idles_command (fun i hi => hbetween i (by simp [hi])) hcommand
  · have second := h.idle (hbefore k (by simp))
    have rest := second.resting hload.noCommand (m1_step_of_loads _ hload)
    exact rest.idles_command hbetween hcommand
  · have second := h.idle (hbefore k (by simp))
    have rest := second.resting (hbefore l (by simp)).noCommand
      (by rw [m1_step_of_idle _ (hbefore l (by simp)), second.m1])
    simp only [List.cons_append, run_cons, List.append_assoc, run_append]
    have later : ∀ i ∈ before, Idle i := fun i hi => hbefore i (by simp [hi])
    have loaded := (rest.idles later).load hload
    have := loaded.idles_command hbetween hcommand
    simpa only [run_append, run_cons, run_nil, reduceCtorEq, if_false] using this

/-- What a stream adds, with the operand held in each second state. -/
def streamAddend : List (Issue .macw false) → ℤ
  | [] => 0
  | [issue] => macwAddend issue.a issue.a issue.b
  | issue :: next :: rest =>
    macwAddend (heldOperand issue.a next) issue.a issue.b + streamAddend (next :: rest)

/-- After the last command two clocks finish the product. -/
theorem MacwFirst.finish (h : MacwFirst a b total this) (hi : ∀ i ∈ clocks, Idle i)
    (done : (run this clocks).state = .nop) :
    Mult.mac (run this clocks) = total + BitVec.ofInt 64 (macwAddend a a b) := by
  rcases clocks with _ | ⟨k, _ | ⟨l, clocks⟩⟩
  · simp [h.state] at done
  · simp [(h.idle (hi k (by simp))).state] at done
  · have second := h.idle (hi k (by simp))
    have rest := second.resting (hi l (by simp)).noCommand
      (by rw [m1_step_of_idle _ (hi l (by simp)), second.m1])
    exact (rest.idles fun i hmem => hi i (by simp [hmem])).mac

theorem MacwFirst.run_stream (h : MacwFirst issue.a issue.b total this)
    (hi : ∀ i ∈ clocks, Idle i)
    (done : (run this (stream rest ++ clocks)).state = .nop) :
    Mult.mac (run this (stream rest ++ clocks)) =
      total + BitVec.ofInt 64 (streamAddend (issue :: rest)) := by
  induction rest generalizing this issue total with
  | nil => exact h.finish hi done
  | cons next rest ih =>
    simp only [stream, List.flatMap_cons, List.append_assoc, run_append] at done ⊢
    rw [← run_append, ← stream] at done ⊢
    rw [ih next (h.advance next) done, streamAddend, BitVec.ofInt_add, BitVec.add_assoc]

/-- What a stream of `MAC.W` leaves in `MACH:MACL` once the unit is back at rest. -/
theorem run_stream_macw (this : MultReg) (issues : List (Issue .macw false))
    (idle : this.state = .nop) (hi : ∀ i ∈ clocks, Idle i)
    (done : (run this (stream issues ++ clocks)).state = .nop) :
    mac (run this (stream issues ++ clocks)) =
      mac this + BitVec.ofInt 64 (streamAddend issues) := by
  have rest : Resting this.m1 (mac this) this := ⟨idle, rfl, rfl⟩
  cases issues with
  | nil =>
    rw [show stream ([] : List (Issue .macw false)) ++ clocks = clocks from rfl,
      (rest.idles hi).mac, streamAddend]
    simp
  | cons issue issues =>
    simp only [stream, List.flatMap_cons, List.append_assoc, run_append] at done ⊢
    rw [← run_append, ← stream] at done ⊢
    exact (rest.first issue).run_stream issue issues hi done

/-- The sum of the products of a stream. -/
def productSum (issues : List (Issue .macw false)) : ℤ :=
  (issues.map fun issue => signed16 issue.a * signed16 issue.b).sum

/-- The sign of each overlapped pair's second operand, times the difference of
the first operand's sign from its successor's. -/
def signErrors : List (Issue .macw false) → ℤ
  | issue :: next :: rest =>
    (if next.Overlaps then (sign16 next.a - sign16 issue.a) * sign16 issue.b else 0) +
      signErrors (next :: rest)
  | _ => 0

theorem streamAddend_eq (issues : List (Issue .macw false)) :
    streamAddend issues = productSum issues + 2 ^ 30 * signErrors issues := by
  induction issues with
  | nil => simp [streamAddend, productSum, signErrors]
  | cons issue rest ih =>
    cases rest with
    | nil => simp [streamAddend, productSum, signErrors, macwAddend_eq]
    | cons next rest =>
      rw [streamAddend, ih, macwAddend_eq, signErrors, heldOperand]
      simp only [productSum, List.map_cons, List.sum_cons]
      split_ifs <;> ring

/-- A stream of `MAC.W` accumulates the sum of its products exactly if the sign
errors of the overlapped pairs cancel modulo `2 ^ 34`. -/
theorem macw_stream_eq_iff (this : MultReg) (issues : List (Issue .macw false))
    (tail : List Clock) (idle : this.state = .nop) (hi : ∀ i ∈ tail, Idle i)
    (done : (run this (stream issues ++ tail)).state = .nop) :
    mac (run this (stream issues ++ tail)) = mac this + BitVec.ofInt 64 (productSum issues) ↔
      (2 : ℤ) ^ 34 ∣ signErrors issues := by
  have cancel : ∀ x y : ℤ, BitVec.ofInt 64 (x + y) = BitVec.ofInt 64 x ↔ (2 : ℤ) ^ 64 ∣ y := by
    intro x y
    rw [BitVec.ofInt_add, ← BitVec.toNat_inj]
    simp only [BitVec.toNat_add, BitVec.toNat_ofInt]
    omega
  rw [run_stream_macw this issues idle hi done, streamAddend_eq]
  constructor
  · intro h
    have := (cancel _ _).mp ((BitVec.add_right_inj _).mp h)
    omega
  · intro h
    rw [(cancel _ _).mpr (by omega)]

/-- Two tight pairs: the first product is `1 * -1`, and the load of the second
pair's `-1` comes between its two states. -/
def overlappedPairs : List (Issue .macw false) :=
  [.tight .macw false 0x00000001#32 0x0000ffff#32, .tight .macw false 0x0000ffff#32 0x00000000#32]

theorem macw_stream_eq_iff_overlappedPairs :
    mac (run multReset (stream overlappedPairs ++ [waitClock, waitClock])) =
        mac multReset + BitVec.ofInt 64 (productSum overlappedPairs) ↔
      (2 : ℤ) ^ 34 ∣ signErrors overlappedPairs :=
  macw_stream_eq_iff multReset overlappedPairs [waitClock, waitClock] rfl
    (by simp [idle_waitClock]) (by decide)

/-- The unit accepts both commands and comes to rest, but `MACH:MACL` is off by
`2 ^ 30`. -/
theorem macw_stream_overlap_wrong :
    Accepted multReset overlappedPairs ∧
      (run multReset (stream overlappedPairs ++ [waitClock, waitClock])).state = .nop ∧
      mac (run multReset (stream overlappedPairs ++ [waitClock, waitClock])) = 0x3fffffff#64 ∧
      mac multReset + BitVec.ofInt 64 (productSum overlappedPairs) = 0xffffffffffffffff#64 :=
  ⟨⟨by decide, by decide, trivial⟩, by decide, by decide, by decide⟩

end JCore.Mult
