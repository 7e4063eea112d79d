import JCore.Cache.Modes
import JCore.Lib.Buffer
import JCore.Lib.Round

/-!
# The traffic of the data cache

What the memory side makes of the commands it is given: reads of whole lines from the
critical word on, single reads, single writes. A store is acknowledged before it is
written, so the next command may arrive meanwhile; it waits until the write is done.

## Main definitions

* `Transaction`, `traffic`: the transactions of the memory port, and those that a
  command stands for
* `MclRun.todo`: the transactions that are still to come

## Main results

* `MclRun.tally`: the transactions so far and those to come are those of the commands
-/

namespace JCore

/-- A transaction that the memory has acknowledged. -/
inductive Transaction where
  | read (a : BitVec 28)
  | write (a : BitVec 28) (we : BitVec 4) (d : BitVec 32)
  deriving DecidableEq, Repr

/-- Reads of `n` words of a line from the given one on, wrapping around. -/
def lineReads (a : BitVec 28) (n : ℕ) : List Transaction :=
  (List.range n).map fun k => .read (DcacheMcl.withWord a (toCacheWord a + BitVec.ofNat 3 k))

/-- The write of a store. -/
def storeWrite (b0d : BitVec 65) : Transaction :=
  .write (b0dAddr b0d) (b0dWe b0d) (b0dData b0d)

/-- The transactions of a command. -/
def traffic (b0d : BitVec 65) : List Transaction :=
  if b0dCmd b0d = cacheDcmdReadmiss then lineReads (b0dAddr b0d) 8
  else if b0dCmd b0d = cacheDcmdWritemiss then lineReads (b0dAddr b0d) 8 ++ [storeWrite b0d]
  else if b0dCmd b0d = cacheDcmdReadsglNm ∨ b0dCmd b0d = cacheDcmdReadsglLo then
    [.read (b0dAddr b0d)]
  else if b0dCmd b0d = cacheDcmdNegateLo then []
  else [storeWrite b0d]

/-! ### Lines -/

theorem lineReads_zero (a : BitVec 28) : lineReads a 0 = [] := rfl

/-- The first word, and the rest from the next one on. -/
theorem lineReads_succ (a : BitVec 28) (n : ℕ) :
    lineReads a (n + 1) =
      .read (DcacheMcl.withWord a (toCacheWord a)) ::
        lineReads (DcacheMcl.withWord a (toCacheWord a + 1)) n := by
  rw [lineReads, List.range_succ_eq_map, List.map_cons, List.map_map, lineReads]
  congr 1
  · simp
  · apply List.map_congr_left
    intro k _
    have next : toCacheWord a + BitVec.ofNat 3 (k + 1) =
        toCacheWord a + 1 + BitVec.ofNat 3 k := by
      rw [Nat.add_comm, BitVec.ofNat_add, BitVec.add_assoc]
      rfl
    simp [next]

/-- Only the line and the word matter. -/
theorem lineReads_withWord (a : BitVec 28) (n : ℕ) :
    lineReads (DcacheMcl.withWord a (toCacheWord a)) n = lineReads a n := by
  simp [lineReads]

theorem withWord_injective (a : BitVec 28) : Function.Injective (DcacheMcl.withWord a) := by
  intro v w h
  simpa using congrArg toCacheWord h

/-- The eight reads of a line start at the given word and meet every word once. -/
theorem lineReads_eight (a : BitVec 28) :
    (lineReads a 8).head? = some (.read (DcacheMcl.withWord a (toCacheWord a))) ∧
      ∀ w, (lineReads a 8).count (.read (DcacheMcl.withWord a w)) = 1 := by
  constructor
  · rw [lineReads_succ, List.head?_cons]
  · intro w
    have inj : Function.Injective fun w => Transaction.read (DcacheMcl.withWord a w) := by
      intro v w h
      exact withWord_injective a (Transaction.read.inj h)
    rw [← Round.count_eq_one (toCacheWord a) w, ← List.count_map_of_injective _ _ inj, List.map_map]
    rfl

/-- Only the end of a lock brings no transaction. -/
theorem traffic_eq_nil {b0d : BitVec 65} : traffic b0d = [] ↔ b0dCmd b0d = cacheDcmdNegateLo := by
  rw [traffic]
  split_ifs with c1 c2 c3 c4
  · simp [lineReads_succ, c1, cacheDcmdReadmiss, cacheDcmdNegateLo]
  · simp [c2, cacheDcmdWritemiss, cacheDcmdNegateLo]
  · rcases c3 with c3 | c3 <;>
      simp [c3, cacheDcmdReadsglNm, cacheDcmdReadsglLo, cacheDcmdNegateLo]
  · simp [c4]
  · simp [c4]

/-! ### Transactions of a run -/

namespace MclRun

section Todo

variable (run : MclRun) (t : ℕ)

/-- The memory acknowledges a transaction in clock `t`. -/
def transaction : Option Transaction :=
  let my := DcacheMcl.my (run.state t) (run.clk t)
  if my.en && (run.clk t).ma.ack then
    some (if my.wr then .write my.a my.we my.d else .read my.a)
  else none

/-- The words of the line that are still to be read. -/
def linesLeft : ℕ := ((run.state t).reqw - toCacheWord (run.state t).ma0 - 1).toNat + 1

/-- The store in the buffer. -/
def buffered : Transaction := .write (run.state t).ma0 (run.state t).sbwe (run.state t).sbdata

/-- The transactions that are still to come. -/
def todo : Mode → List Transaction
  | .free | .cooling | .answering0 | .answering1 => []
  | .remembered => traffic (run.port t).payload
  | .filling => lineReads (run.state t).ma0 (run.linesLeft t)
  | .missFilling =>
    lineReads (run.state t).ma0 (run.linesLeft t) ++ [storeWrite (run.port t).payload]
  | .merging | .storing | .early => [storeWrite (run.port t).payload]
  | .reading => [.read (b0dAddr (run.port t).payload)]
  | .buffering => [run.buffered t]
  | .queued => run.buffered t :: traffic (run.port t).payload

end Todo

variable {run : MclRun} {t : ℕ}

attribute [local grind =] DcacheMcl.nextStatemcl DcacheMcl.sboutEn1 DcacheMcl.sboutCmd
  DcacheMcl.sboutD DcacheMcl.sboutWe DcacheMcl.isWritesgl DcacheMcl.sbwe DcacheMcl.sbdata
  DcacheMcl.maAckG DcacheMcl.ma0 DcacheMcl.reqw DcacheMcl.my MclRun.seen

attribute [local grind =] cacheDcmdReadmiss cacheDcmdNegateLo cacheDcmdReadsglNm
  cacheDcmdReadsglLo cacheDcmdWritemiss cacheDcmdWritesglFa cacheDcmdWritesglSl

theorem transaction_of_men (h : (run.state t).men = false) : run.transaction t = none := by
  simp [transaction, DcacheMcl.my, h]

theorem transaction_of_ack (h : (run.clk t).ma.ack = false) : run.transaction t = none := by
  simp [transaction, h]

/-- A line that is taken over has all its words to come. -/
theorem lineReads_taken {a : BitVec 28}
    (ma0 : (run.state t).ma0 = DcacheMcl.withWord a (toCacheWord a))
    (reqw : (run.state t).reqw = toCacheWord a) :
    lineReads (run.state t).ma0 (run.linesLeft t) = lineReads a 8 := by
  have left : run.linesLeft t = 8 := by
    rw [linesLeft, ma0, reqw, DcacheMcl.toCacheWord_withWord, BitVec.sub_self]
    rfl
  rw [left, ma0, lineReads_withWord]

/-- A command that is taken over brings its transactions. -/
theorem todo_accept (rests : run.Rests t) (en : DcacheMcl.sboutEn1 (run.state t) (run.clk t) = true)
    (payload : (run.port (t + 1)).payload = (run.clk t).ctom.b0d)
    (command : b0dCmd (run.clk t).ctom.b0d ≠ 0b101) (gap : DcachemwiState) :
    run.todo (t + 1) (.accept (b0dCmd (run.clk t).ctom.b0d) gap) =
      traffic (run.clk t).ctom.b0d := by
  obtain ⟨h1, h2, h3, h4, h5, h6⟩ := rests
  have cmd : DcacheMcl.sboutCmd (run.state t) (run.clk t) = b0dCmd (run.clk t).ctom.b0d := by
    simp [DcacheMcl.sboutCmd, h5]
  rw [Mode.accept, traffic]
  split_ifs with c1 c2 c3 c4 c5 c6
  -- a line, a line and the store, one word, or the store
  · apply lineReads_taken
    · simp only [state_succ, DcacheMcl.step]
      grind
    · simp only [state_succ, DcacheMcl.step]
      grind
  · rw [todo, payload, lineReads_taken (a := b0dAddr (run.clk t).ctom.b0d)]
    · simp only [state_succ, DcacheMcl.step]
      grind
    · simp only [state_succ, DcacheMcl.step]
      grind
  · rw [todo, payload]
  · grind
  · rw [todo, payload]
  · rw [todo]
  · rw [todo, payload]
  -- what is left is a fast store
  · have fa := writesglFa_of_ne c1 c2 c3 c4 c6 command
    clear command c1 c2 c3 c4 c6
    have ma0 : (run.state (t + 1)).ma0 = b0dAddr (run.clk t).ctom.b0d := by
      simp only [state_succ, DcacheMcl.step]
      grind
    have sbwe : (run.state (t + 1)).sbwe = b0dWe (run.clk t).ctom.b0d := by
      simp only [state_succ, DcacheMcl.step]
      grind
    have sbdata : (run.state (t + 1)).sbdata = b0dData (run.clk t).ctom.b0d := by
      simp only [state_succ, DcacheMcl.step]
      grind
    rw [todo, buffered, ma0, sbwe, sbdata, storeWrite]

/-- The next word of a line. -/
theorem lineReads_next (fills : run.Fills t) (ack : (run.clk t).ma.ack = true)
    (filling : DcacheMcl.nextStatemcl (run.state t) (run.clk t) = (run.state t).statemcl)
    (state : (run.state t).statemcl = .rfill ∨ (run.state t).statemcl = .wfill)
    (last : DcacheMcl.cwLast (run.state t) = false) :
    lineReads (run.state t).ma0 (run.linesLeft t) =
      .read (run.state t).ma0 :: lineReads (run.state (t + 1)).ma0 (run.linesLeft (t + 1)) := by
  have ma0 : (run.state (t + 1)).ma0 =
      DcacheMcl.withWord (run.state t).ma0 (toCacheWord (run.state t).ma0 + 1) := by
    simp only [state_succ, DcacheMcl.step]
    grind
  have reqw : (run.state (t + 1)).reqw = (run.state t).reqw := by
    simp only [state_succ, DcacheMcl.step]
    grind
  have left : run.linesLeft t = run.linesLeft (t + 1) + 1 := by
    rw [linesLeft, linesLeft, ma0, reqw, DcacheMcl.toCacheWord_withWord]
    rw [DcacheMcl.cwLast, beq_eq_false_iff_ne] at last
    bv_omega
  have self : DcacheMcl.withWord (run.state t).ma0 (toCacheWord (run.state t).ma0) =
      (run.state t).ma0 := by
    rw [fills.ma0, DcacheMcl.withWord_withWord, DcacheMcl.toCacheWord_withWord]
  rw [left, lineReads_succ, self, ma0]

/-- The last word of a line. -/
theorem lineReads_last (fills : run.Fills t) (last : DcacheMcl.cwLast (run.state t) = true) :
    lineReads (run.state t).ma0 (run.linesLeft t) = [.read (run.state t).ma0] := by
  have left : run.linesLeft t = 1 := by
    rw [linesLeft]
    rw [DcacheMcl.cwLast, beq_iff_eq] at last
    bv_omega
  rw [left, lineReads_succ, lineReads_zero, fills.ma0, DcacheMcl.withWord_withWord,
    DcacheMcl.toCacheWord_withWord]

/-- While a command is open none arrives. -/
theorem seen_of_fillvDel1 (h : (run.state t).fillvDel1 = false) : run.seen t = none := by
  simp [MclRun.seen, DcacheMcl.seen, h]

theorem payload_of_quiet (h : run.seen t = none) :
    (run.port (t + 1)).payload = (run.port t).payload := by
  rw [port_succ, h]

theorem transaction_read (men : (run.state t).men = true) (mwr : (run.state t).mwr = false)
    (ack : (run.clk t).ma.ack = true) : run.transaction t = some (.read (run.state t).ma0) := by
  simp [transaction, DcacheMcl.my, men, mwr, ack]

/-- A store is written from the buffer. -/
theorem transaction_buffered (buffers : run.Buffers t) (gap : (run.state t).statemwi = .idle)
    (ack : (run.clk t).ma.ack = true) : run.transaction t = some (run.buffered t) := by
  obtain ⟨h5, h6, men, mwr, -⟩ := buffers
  simp [transaction, DcacheMcl.my, DcacheMcl.sboutD, buffered, men, mwr, gap, h6, ack]

/-- The buffer keeps its store until it is written. -/
theorem buffered_succ (state : (run.state t).statemcl = .wthi) (ack : (run.clk t).ma.ack = false)
    (buffers : run.Buffers t) : run.buffered (t + 1) = run.buffered t := by
  have sbbufin := buffers.sbbufin
  rw [buffered, buffered]
  congr 1
  all_goals simp only [state_succ, DcacheMcl.step]
  all_goals grind

theorem todo_free (delivers : run.Delivers t) (h : run.Holds t .free) :
    run.todo t .free ++ (run.seen t).toList.flatMap traffic =
      (run.transaction t).toList ++ run.todo (t + 1) (run.nextMode t .free) := by
  obtain ⟨rests, -, -, -, -⟩ := h
  rw [transaction_of_men rests.men, nextMode, Mode.next]
  cases hs : run.seen t with
  | none => simp [seen_eq_none hs, todo]
  | some b0d =>
    obtain ⟨arrives, rfl⟩ := seen_eq_some hs
    have taken : DcacheMcl.sboutEn1 (run.state t) (run.clk t) = true := by
      simp [DcacheMcl.sboutEn1, rests.statemcl, arrives]
    rw [if_pos arrives, todo_accept rests taken (by rw [port_succ, hs]) (delivers.command _ hs)]
    simp [todo]

theorem todo_remembered (delivers : run.Delivers t) (h : run.Holds t .remembered) :
    run.todo t .remembered ++ (run.seen t).toList.flatMap traffic =
      (run.transaction t).toList ++ run.todo (t + 1) (run.nextMode t .remembered) := by
  obtain ⟨rests, h7, -, -, -, ⟨hopen, hdel, hcmd⟩⟩ := h
  obtain ⟨-, payload⟩ := delivers.lines (.inl hopen)
  have quiet := seen_of_fillvDel1 hdel
  have taken : DcacheMcl.sboutEn1 (run.state t) (run.clk t) = true := by
    simp [DcacheMcl.sboutEn1, rests.statemcl, h7]
  rw [transaction_of_men rests.men, quiet, nextMode, Mode.next, todo_accept rests taken
    (by rw [payload_of_quiet quiet, payload]) (payload ▸ hcmd), payload]
  simp [todo]

/-- What one clock does to the words of a line that are to come. -/
theorem lineReads_clock (fills : run.Fills t)
    (state : (run.state t).statemcl = .rfill ∨ (run.state t).statemcl = .wfill) :
    lineReads (run.state t).ma0 (run.linesLeft t) =
      (run.transaction t).toList ++
        if (run.clk t).ma.ack && DcacheMcl.cwLast (run.state t) then []
        else lineReads (run.state (t + 1)).ma0 (run.linesLeft (t + 1)) := by
  cases ack : (run.clk t).ma.ack with
  | false =>
    have ma0 : (run.state (t + 1)).ma0 = (run.state t).ma0 := by
      simp only [state_succ, DcacheMcl.step]
      grind
    have reqw : (run.state (t + 1)).reqw = (run.state t).reqw := by
      simp only [state_succ, DcacheMcl.step]
      grind
    have left : run.linesLeft (t + 1) = run.linesLeft t := by
      rw [linesLeft, linesLeft, ma0, reqw]
    simp [transaction_of_ack ack, ma0, left]
  | true =>
    rw [transaction_read fills.men fills.mwr ack]
    cases last : DcacheMcl.cwLast (run.state t) with
    | false =>
      have filling : DcacheMcl.nextStatemcl (run.state t) (run.clk t) = (run.state t).statemcl := by
        rcases state with state | state <;> simp [DcacheMcl.nextStatemcl, state, last]
      simp [lineReads_next fills ack filling state last]
    | true => simp [lineReads_last fills last]

theorem todo_filling (h : run.Holds t .filling) :
    run.todo t .filling ++ (run.seen t).toList.flatMap traffic =
      (run.transaction t).toList ++ run.todo (t + 1) (run.nextMode t .filling) := by
  obtain ⟨state, -, fills, -, ⟨-, hdel, -⟩⟩ := h
  rw [seen_of_fillvDel1 hdel, nextMode, Mode.next, todo, lineReads_clock fills (.inl state)]
  split_ifs <;> simp [todo]

theorem todo_missFilling (h : run.Holds t .missFilling) :
    run.todo t .missFilling ++ (run.seen t).toList.flatMap traffic =
      (run.transaction t).toList ++ run.todo (t + 1) (run.nextMode t .missFilling) := by
  obtain ⟨state, -, fills, ⟨-, hdel, -⟩⟩ := h
  have quiet := seen_of_fillvDel1 hdel
  rw [quiet, nextMode, Mode.next, todo, lineReads_clock fills (.inr state)]
  split_ifs <;> simp [todo, payload_of_quiet quiet]

theorem todo_merging (delivers : run.Delivers t) (h : run.Holds t .merging) :
    run.todo t .merging ++ (run.seen t).toList.flatMap traffic =
      (run.transaction t).toList ++ run.todo (t + 1) (run.nextMode t .merging) := by
  obtain ⟨state, -, gap, men, mwr, -, h6, ha, hw, ⟨hopen, hdel, hcmd⟩⟩ := h
  obtain ⟨-, payload⟩ := delivers.lines (.inl hopen)
  have quiet := seen_of_fillvDel1 hdel
  rw [quiet, nextMode, Mode.next]
  cases ack : (run.clk t).ma.ack with
  | false => simp [todo, transaction_of_ack ack, payload_of_quiet quiet]
  | true =>
    simp [todo, transaction, storeWrite, DcacheMcl.my, DcacheMcl.sboutD, men, mwr, h6, ack, ha,
      hw, payload]

theorem todo_reading (h : run.Holds t .reading) :
    run.todo t .reading ++ (run.seen t).toList.flatMap traffic =
      (run.transaction t).toList ++ run.todo (t + 1) (run.nextMode t .reading) := by
  obtain ⟨-, -, -, men, mwr, -, -, -, ha, ⟨-, hdel, -⟩⟩ := h
  have quiet := seen_of_fillvDel1 hdel
  rw [quiet, nextMode, Mode.next]
  cases ack : (run.clk t).ma.ack with
  | false => simp [todo, transaction_of_ack ack, payload_of_quiet quiet]
  | true => simp [todo, transaction_read men mwr ack, ha]

/-- The buffer holds the store of the open command. -/
theorem buffered_open (buffers : run.BuffersOpen t) :
    run.buffered t = storeWrite (run.port t).payload := by
  rw [buffered, buffers.ma0, buffers.sbwe, buffers.sbdata, storeWrite]

theorem todo_storing (delivers : run.Delivers t) (h : run.Holds t .storing) :
    run.todo t .storing ++ (run.seen t).toList.flatMap traffic =
      (run.transaction t).toList ++ run.todo (t + 1) (run.nextMode t .storing) := by
  obtain ⟨-, -, buffers, fromOpen, -, ⟨-, hdel, -⟩⟩ := h
  have asked := delivers.asked
  have quiet := seen_of_fillvDel1 hdel
  rw [quiet, nextMode, Mode.next]
  cases ack : (run.clk t).ma.ack with
  | false => simp [todo, transaction_of_ack ack, payload_of_quiet quiet]
  | true =>
    have gap : (run.state t).statemwi = .idle := by simpa [buffers.men] using asked ack
    simp [todo, transaction_buffered buffers gap ack, buffered_open fromOpen]

theorem todo_early (delivers : run.Delivers t) (h : run.Holds t .early) :
    run.todo t .early ++ (run.seen t).toList.flatMap traffic =
      (run.transaction t).toList ++ run.todo (t + 1) (run.nextMode t .early) := by
  obtain ⟨state, -, buffers, fromOpen, gap, ⟨-, hdel, -⟩⟩ := h
  have men : (run.state t).men = false := by
    rw [buffers.men]
    rcases gap with gap | gap <;> simp [gap]
  have ack : (run.clk t).ma.ack = false := by
    have asked := delivers.asked
    rw [men] at asked
    exact Bool.eq_false_of_not_eq_true fun h => Bool.false_ne_true (asked h)
  have quiet := seen_of_fillvDel1 hdel
  rw [quiet, transaction_of_men men, nextMode, Mode.next]
  split_ifs
  · simp [todo, buffered_succ state ack buffers, buffered_open fromOpen]
  · simp [todo, payload_of_quiet quiet]

theorem todo_buffering (h : run.Holds t .buffering) :
    run.todo t .buffering ++ (run.seen t).toList.flatMap traffic =
      (run.transaction t).toList ++ run.todo (t + 1) (run.nextMode t .buffering) := by
  obtain ⟨state, -, buffers, gap, -⟩ := h
  rw [nextMode, Mode.next]
  cases ack : (run.clk t).ma.ack with
  | false =>
    have stays := buffered_succ state ack buffers
    cases hs : run.seen t with
    | none => simp [todo, transaction_of_ack ack, seen_eq_none hs, stays]
    | some b0d =>
      simp [todo, transaction_of_ack ack, (seen_eq_some hs).1, stays, port_succ, hs]
  | true =>
    cases hs : run.seen t with
    | none => simp [todo, transaction_buffered buffers gap ack, seen_eq_none hs]
    | some b0d =>
      simp [todo, transaction_buffered buffers gap ack, (seen_eq_some hs).1, port_succ, hs]

theorem todo_queued (h : run.Holds t .queued) :
    run.todo t .queued ++ (run.seen t).toList.flatMap traffic =
      (run.transaction t).toList ++ run.todo (t + 1) (run.nextMode t .queued) := by
  obtain ⟨state, -, -, -, buffers, gap, ⟨-, hdel, -⟩⟩ := h
  have quiet := seen_of_fillvDel1 hdel
  rw [quiet, nextMode, Mode.next]
  cases ack : (run.clk t).ma.ack with
  | false =>
    simp [todo, transaction_of_ack ack, buffered_succ state ack buffers, payload_of_quiet quiet]
  | true => simp [todo, transaction_buffered buffers gap ack, payload_of_quiet quiet]

/-- What a clock does is taken from what is to come, and what arrives is added. -/
theorem todo_succ (delivers : run.Delivers t) {m : Mode} (h : run.Holds t m) :
    run.todo t m ++ (run.seen t).toList.flatMap traffic =
      (run.transaction t).toList ++ run.todo (t + 1) (run.nextMode t m) := by
  cases m with
  | free => exact todo_free delivers h
  | cooling =>
    obtain ⟨rests, -, -, -, hdel, -⟩ := h
    rw [transaction_of_men rests.men, seen_of_fillvDel1 hdel]
    rfl
  | answering0 =>
    obtain ⟨rests, -, -, -, ⟨-, hdel, -⟩⟩ := h
    rw [transaction_of_men rests.men, seen_of_fillvDel1 hdel, nextMode, Mode.next]
    split_ifs <;> rfl
  | answering1 =>
    obtain ⟨rests, -, -, -, -, ⟨-, hdel, -⟩⟩ := h
    rw [transaction_of_men rests.men, seen_of_fillvDel1 hdel]
    rfl
  | remembered => exact todo_remembered delivers h
  | filling => exact todo_filling h
  | missFilling => exact todo_missFilling h
  | merging => exact todo_merging delivers h
  | reading => exact todo_reading h
  | storing => exact todo_storing delivers h
  | early => exact todo_early delivers h
  | buffering => exact todo_buffering h
  | queued => exact todo_queued h

/-- The transactions of the commands so far are those that the memory has acknowledged and
those still to come, in this order. -/
theorem tally (delivered : run.Delivered) (t : ℕ) :
    (history run.seen t).flatMap traffic =
      history run.transaction t ++ run.todo t (run.mode t) := by
  induction t with
  | zero => rfl
  | succ t ih =>
    rw [history_succ, history_succ, List.flatMap_append, ih, List.append_assoc,
      todo_succ (delivered t) (holds_mode delivered t), List.append_assoc]
    rfl

end MclRun

end JCore
