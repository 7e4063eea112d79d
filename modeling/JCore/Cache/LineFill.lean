import JCore.Cache.Fill
import JCore.Cache.WriteMiss
import JCore.Lib.Round

/-!
# The order of a line fill

Both caches read the line of a miss from the word that is missed on. The word counter goes
round within the line while the memory acknowledges, and each word that comes is written to
its own place in the data RAM.

## Main definitions

* `lineWord`: the words of a line from that of an address on
* `FillsLine`: what has been read, and what is asked for, after some acknowledgements
* `IcacheRun.StartsFill`, `DcacheRun.StartsFill`: the instants at which a fill begins

## Main results

* `IcacheRun.asked_eq`, `DcacheRun.asked_eq`: both caches count round the line
* `line_fills`: every word once, in turn, each to its place
-/

namespace JCore

/-- The words of the line of an address, from its own word on. -/
def lineWord (a : BitVec 28) (k : ℕ) : BitVec 28 :=
  DcacheMcl.withWord a (Round.nth (toCacheWord a) k)

/-- The instants after `s`. -/
def after {α : Type*} (s : ℕ) (events : ℕ → α) (k : ℕ) : α := events (s + 1 + k)

/-- A line fill after some acknowledgements: the address that is asked for, and the words that
have been read. -/
structure FillsLine (a : BitVec 28) (acks : ℕ) (asked : Option (BitVec 28))
    (fetched : List (BitVec 28 × BitVec 32)) : Prop where
  asked : asked = if acks < 8 then some (lineWord a acks) else none
  order : fetched.map Prod.fst = (List.range (min acks 8)).map (lineWord a)
  once : 8 ≤ acks → ∀ w, (fetched.map Prod.fst).count (DcacheMcl.withWord a w) = 1
  within : ∀ x ∈ fetched, toCacheLine x.1 = toCacheLine a
  places : (fetched.map fun x => x.1.extractLsb 12 2).Nodup

section Refinement

variable {a : BitVec 28} {asked : ℕ → Option (BitVec 28)} {ack : ℕ → Bool} {d : ℕ → BitVec 32}
  {n : ℕ}

theorem nodup_places (a : BitVec 28) (m : ℕ) :
    ((List.range (min m 8)).map fun k => (lineWord a k).extractLsb 12 2).Nodup := by
  refine List.Nodup.map_on ?_ List.nodup_range
  intro j hj k hk same
  rw [lineWord, lineWord, DcacheMcl.extractLsb_withWord, DcacheMcl.extractLsb_withWord] at same
  apply Round.nth_injOn (toCacheWord a) _ _ ((BitVec.append_right_inj _).mp same)
  · exact (List.mem_range.mp hj).trans_le (min_le_right m 8)
  · exact (List.mem_range.mp hk).trans_le (min_le_right m 8)

/-- A memory side that counts round the line fills it. -/
theorem fillsLine_of_number
    (counts : ∀ k ≤ n, asked k =
      (Round.number (toCacheWord a) ack k).map (DcacheMcl.withWord a)) :
    FillsLine a (Round.acks ack n) (asked n)
      (history (fun k => if ack k then (asked k).map fun x => (x, d k) else none) n) := by
  -- the words are those of the counter, each put into the line
  have order : (history (fun k => if ack k then (asked k).map fun x => (x, d k) else none) n).map
      Prod.fst = (List.range (min (Round.acks ack n) 8)).map (lineWord a) := by
    have words := congrArg (List.map (DcacheMcl.withWord a))
      (Round.history_eq (toCacheWord a) ack n)
    rw [List.map_map] at words
    refine Eq.trans ?_ words
    rw [← history_map, ← history_map]
    apply history_congr
    intro k hk
    rw [counts k hk.le]
    cases ack k <;> cases Round.number (toCacheWord a) ack k <;> rfl
  constructor
  · rw [counts n le_rfl, Round.number_eq]
    exact apply_ite (Option.map (DcacheMcl.withWord a)) _ _ _
  · exact order
  · intro all w
    rw [order, Nat.min_eq_right all]
    have once := Round.count_eq_one (toCacheWord a) w
    rw [← once, ← List.count_map_of_injective _ _ (withWord_injective a), List.map_map]
    rfl
  · intro x hx
    have mem := List.mem_map_of_mem (f := Prod.fst) hx
    rw [order] at mem
    obtain ⟨k, -, word⟩ := List.mem_map.mp mem
    rw [← word, lineWord, DcacheMcl.toCacheLine_withWord]
  · have places := congrArg (List.map fun x => x.extractLsb 12 2) order
    rw [List.map_map, List.map_map] at places
    exact places ▸ nodup_places a (Round.acks ack n)

end Refinement


/-! ### The instruction cache -/

namespace IcacheRun

section Definitions

variable (run : IcacheRun) (s t : ℕ)

/-- The memory side finds a request for a line. -/
structure StartsFill : Prop where
  rises : run.rises200 s = true
  seen : IcacheMcl.seen (run.mcl s) (run.mclI s) = true
  line : (run.mclI s).ctom.filla.getLsbD 28 = true

/-- The address of that request. -/
def fillAddr : BitVec 28 := (run.mclI s).ctom.filla.extractLsb 27 0

/-- The address that is on the memory port. -/
def asked : Option (BitVec 28) :=
  let my := IcacheMcl.my (run.mcl t)
  if my.en then some my.a else none

/-- The memory acknowledges at an edge of its clock. -/
def ack : Bool := run.rises200 t && (run.clk t).ma.ackR

/-- The word that comes, with its address. -/
def fetched : Option (BitVec 28 × BitVec 32) :=
  if run.ack t then (run.asked t).map fun a => (a, (run.clk t).ma.d) else none

/-- What goes to the data RAM. -/
def placed : Option (BitVec 11 × BitVec 32) :=
  let ry := IcacheMcl.ryMcl (run.mcl t) (run.mclI t)
  if run.rises200 t && ry.en1 && ry.wr1 then some (ry.a1, ry.d1) else none

/-- No request has been found since the line has come. -/
def Unseen (n : ℕ) : Prop :=
  ∀ k < n, 8 ≤ Round.acks (after s run.ack) k → after s run.rises200 k = true →
    IcacheMcl.seen (after s run.mcl k) (after s run.mclI k) = false

/-- The request is still served, with this word on the memory port, or no longer. -/
def AtWord : Option (BitVec 3) → Prop
  | some w => (run.mcl t).men = true ∧ run.payload t = (run.mclI s).ctom.filla ∧
      (run.mcl t).ma0 = DcacheMcl.withWord (run.fillAddr s) w
  | none => (run.mcl t).men = false

end Definitions

variable {run : IcacheRun} {s t : ℕ}

theorem asked_of_atWord {w : Option (BitVec 3)} (word : run.AtWord s t w) :
    run.asked t = w.map (DcacheMcl.withWord (run.fillAddr s)) := by
  cases w with
  | none =>
    have men : (run.mcl t).men = false := word
    simp [asked, IcacheMcl.my, men]
  | some w =>
    obtain ⟨men, -, ma0⟩ := word
    simp [asked, IcacheMcl.my, men, ma0]

theorem placed_eq (run : IcacheRun) (t : ℕ) :
    run.placed t = (run.fetched t).map fun x => (x.1.extractLsb 12 2, x.2) := by
  rw [placed, fetched, ack, asked]
  have arrives : (run.mclI t).ma = (run.clk t).ma := rfl
  cases rises : run.rises200 t <;> cases men : (run.mcl t).men <;>
    cases acked : (run.clk t).ma.ackR <;>
    simp [IcacheMcl.ryMcl, IcacheMcl.my, men, arrives, acked]

theorem serving_of_men (men : (run.mcl t).men = true) : run.phase t = .serving := by
  by_contra other
  have off := (((run.steady t).2).rests other).1.men
  exact Bool.false_ne_true (off.symm.trans men)

theorem toCacheWord_fillAddr (run : IcacheRun) (s : ℕ) :
    toCacheWord (run.fillAddr s) = toCacheWord (run.mclI s).ctom.filla := by
  apply BitVec.eq_of_getLsbD_eq
  intro k hk
  simp only [fillAddr, toCacheWord, BitVec.getLsbD_extractLsb]
  grind

theorem withWord_fillAddr (run : IcacheRun) (s : ℕ) :
    DcacheMcl.withWord (run.fillAddr s) (toCacheWord (run.fillAddr s)) =
      (run.mclI s).ctom.filla.extractLsb 27 2 ++ 0b00#2 := by
  apply BitVec.eq_of_getLsbD_eq
  intro k hk
  simp only [DcacheMcl.withWord, fillAddr, toCacheWord, toCacheLine, BitVec.getLsbD_append,
    BitVec.getLsbD_extractLsb]
  grind

/-- A request is taken over with the critical word on the port. -/
theorem atWord_start (starts : run.StartsFill s) :
    run.AtWord s (s + 1) (some (toCacheWord (run.fillAddr s))) := by
  obtain ⟨rises, seen, -⟩ := starts
  obtain ⟨crosses, steady⟩ := run.steady s
  obtain ⟨asked, filla⟩ := asked_of_seen crosses seen
  refine ⟨?_, ?_, ?_⟩
  · rw [mcl_of_rises rises]
    exact if_pos seen
  · rw [payload_keep steady (by rw [asked]; simp), filla]
  · rw [mcl_of_rises rises, withWord_fillAddr]
    exact if_pos seen

/-- One clock of a fill: the word goes round within the line, or it was the last one. -/
theorem atWord_serving (line : (run.mclI s).ctom.filla.getLsbD 28 = true) {w : BitVec 3}
    (word : run.AtWord s t (some w)) :
    run.AtWord s (t + 1) (Round.next (toCacheWord (run.fillAddr s)) (run.ack t) (some w)) := by
  obtain ⟨men, payload, ma0⟩ := word
  obtain ⟨crosses, steady⟩ := run.steady t
  have busy := serving_of_men men
  have serves := steady.serves busy
  have onm : (run.mcl t).icOnm = true := by
    rw [serves.icOnm, payload, line]
  have reqw : (run.mcl t).reqw = toCacheWord (run.fillAddr s) := by
    rw [(reading t busy).reqw, payload, toCacheWord_fillAddr]
  have current : toCacheWord (run.mcl t).ma0 = w := by
    rw [ma0, DcacheMcl.toCacheWord_withWord]
  have quiet : IcacheMcl.seen (run.mcl t) (run.mclI t) = false := by
    simp [IcacheMcl.seen, serves.fillvDel1]
  have payload := (payload_keep steady (by rw [busy]; simp)).trans payload
  rw [Round.next]
  -- the last word, another word, or no acknowledgement
  split_ifs with acked last
  · obtain ⟨rises, ackR⟩ := Bool.and_eq_true_iff.mp acked
    have arrives : (run.mclI t).ma.ackR = true := ackR
    rw [AtWord, mcl_of_rises rises]
    change IcacheMcl.men _ _ = false
    rw [IcacheMcl.men, quiet, IcacheMcl.last, onm, arrives, IcacheMcl.cwLast, current, reqw,
      beq_iff_eq.mpr last]
    rfl
  · obtain ⟨rises, ackR⟩ := Bool.and_eq_true_iff.mp acked
    have arrives : (run.mclI t).ma.ackR = true := ackR
    refine ⟨?_, payload, ?_⟩
    · rw [mcl_of_rises rises]
      change IcacheMcl.men _ _ = true
      rw [IcacheMcl.men, quiet, IcacheMcl.last, onm, men, arrives, IcacheMcl.cwLast, current, reqw,
        beq_false_of_ne last]
      rfl
    · rw [mcl_of_rises rises]
      change IcacheMcl.ma0 _ _ = _
      rw [IcacheMcl.ma0, quiet, onm, men, arrives, current, ma0, DcacheMcl.toCacheLine_withWord]
      rfl
  · cases rises : run.rises200 t with
    | false =>
      rw [AtWord, mcl_of_not_rises rises]
      exact ⟨men, payload, ma0⟩
    | true =>
      have waits : (run.mclI t).ma.ackR = false := by
        rw [ack, rises, Bool.true_and, Bool.not_eq_true] at acked
        exact acked
      refine ⟨?_, payload, ?_⟩
      · rw [mcl_of_rises rises]
        change IcacheMcl.men _ _ = true
        rw [IcacheMcl.men, quiet, IcacheMcl.last, waits, men]
        rfl
      · rw [mcl_of_rises rises, ← ma0]
        change IcacheMcl.ma0 _ _ = _
        rw [IcacheMcl.ma0, quiet, waits, men]
        rfl

/-- After the last word nothing is asked until another request is found. -/
theorem atWord_stopped (stopped : run.AtWord s t none)
    (unseen : run.rises200 t = true → IcacheMcl.seen (run.mcl t) (run.mclI t) = false) :
    run.AtWord s (t + 1) none := by
  have idle : (run.mcl t).men = false := stopped
  rw [AtWord]
  cases rises : run.rises200 t with
  | false =>
    rw [mcl_of_not_rises rises]
    exact idle
  | true =>
    rw [mcl_of_rises rises]
    change IcacheMcl.men _ _ = false
    rw [IcacheMcl.men, unseen rises, idle]
    exact ite_self false

/-- The memory side counts round the line. -/
theorem asked_eq (starts : run.StartsFill s) {n : ℕ} (unseen : run.Unseen s n) :
    after s run.asked n = (Round.number (toCacheWord (run.fillAddr s)) (after s run.ack) n).map
      (DcacheMcl.withWord (run.fillAddr s)) := by
  apply asked_of_atWord
  refine Round.number_rel (R := fun k => run.AtWord s (s + 1 + k)) (atWord_start starts) ?_
  intro k hk word
  cases number : Round.number (toCacheWord (run.fillAddr s)) (after s run.ack) k with
  | none =>
    rw [number] at word
    exact atWord_stopped word (unseen k hk (Round.le_acks_of_number number))
  | some w =>
    rw [number] at word
    exact atWord_serving starts.line word

end IcacheRun

/-! ### The memory side of the data cache -/

/-- The bytes of a word that are written when it comes. In the word of a store that misses
those of the store are left out. -/
def fillWe (b0d : BitVec 65) (a : BitVec 28) : BitVec 4 :=
  if b0dCmd b0d = cacheDcmdWritemiss ∧ toCacheWord a = toCacheWord (b0dAddr b0d) then
    ~~~ b0dWe b0d
  else 0xf

namespace MclRun

section Definitions

variable (run : MclRun) (t : ℕ)

/-- The line of a command is read, with this word on the memory port, or no longer. -/
def AtWord (b0d : BitVec 65) : Option (BitVec 3) → Prop
  | some w => (run.mode t = .filling ∨ run.mode t = .missFilling) ∧
      (run.port t).payload = b0d ∧ (run.state t).ma0 = DcacheMcl.withWord (b0dAddr b0d) w
  | none => run.mode t = .merging ∨ run.mode t = .answering0 ∨ run.mode t = .cooling ∨
      run.mode t = .free

end Definitions

variable {run : MclRun} {t : ℕ} {b0d : BitVec 65}

/-- Only a request that has just arrived or is remembered leads out of the idle state. -/
theorem asks_of_nextStatemcl (idle : (run.state t).statemcl = .idle)
    (starts : DcacheMcl.nextStatemcl (run.state t) (run.clk t) ≠ .idle) :
    DcacheMcl.seen (run.state t) (run.clk t) = true ∨ (run.state t).sbblknxst = true := by
  by_contra off
  rw [← Bool.or_eq_true] at off
  apply starts
  rw [DcacheMcl.nextStatemcl, idle]
  dsimp only
  rw [DcacheMcl.sboutEn1, idle]
  exact if_neg off

theorem not_seen_of_fillvDel1 (h : (run.state t).fillvDel1 = false) :
    DcacheMcl.seen (run.state t) (run.clk t) = false :=
  seen_eq_none (seen_of_fillvDel1 h)

theorem takes_of_nextStatemcl (delivers : run.Delivers t) {m : Mode} (holds : run.Holds t m)
    (idle : (run.state t).statemcl = .idle)
    (starts : DcacheMcl.nextStatemcl (run.state t) (run.clk t) ≠ .idle) : run.Takes t := by
  have asks := asks_of_nextStatemcl idle starts
  -- only a command that arrives or is remembered is taken over, the other modes are busy or have
  -- masked it
  cases m with
  | free =>
    have silent := holds.2.1
    rw [silent.sbblknxst, or_iff_left Bool.false_ne_true] at asks
    exact (takes_of_free delivers holds asks).1
  | remembered => exact (takes_of_remembered delivers holds).1
  | cooling =>
    obtain ⟨-, silent, -, -, del, -⟩ := holds
    simp [silent.sbblknxst, not_seen_of_fillvDel1 del] at asks
  | answering0 =>
    obtain ⟨-, remembers, -, -, opens⟩ := holds
    simp [remembers, not_seen_of_fillvDel1 opens.fillvDel1] at asks
  | answering1 =>
    obtain ⟨-, remembers, -, -, -, opens⟩ := holds
    simp [remembers, not_seen_of_fillvDel1 opens.fillvDel1] at asks
  | filling | missFilling | merging | reading | storing | early | buffering | queued =>
    obtain ⟨state, -⟩ := holds
    cases state.symm.trans idle

/-- In the two states of a fill a line is read. -/
theorem fills_of_statemcl {m : Mode} (holds : run.Holds t m)
    (h : (run.state t).statemcl = .rfill ∨ (run.state t).statemcl = .wfill) :
    m = .filling ∨ m = .missFilling := by
  cases m with
  | filling => exact .inl rfl
  | missFilling => exact .inr rfl
  | free | cooling | answering0 | answering1 | remembered =>
    obtain ⟨rests, -⟩ := holds
    simp [rests.statemcl] at h
  | merging | reading | storing | early | buffering | queued =>
    obtain ⟨state, -⟩ := holds
    simp [state] at h

/-- The fill starts with the critical word. -/
theorem atWord_start (delivers : run.Delivers t) (holds : run.Holds t (run.mode t))
    (idle : (run.state t).statemcl = .idle)
    (starts : DcacheMcl.nextStatemcl (run.state t) (run.clk t) = .rfill ∨
      DcacheMcl.nextStatemcl (run.state t) (run.clk t) = .wfill) :
    run.AtWord (t + 1) (run.clk t).ctom.b0d
      (some (toCacheWord (b0dAddr (run.clk t).ctom.b0d))) := by
  have takes : run.Takes t := by
    apply takes_of_nextStatemcl delivers holds idle
    rcases starts with starts | starts <;> simp [starts]
  refine ⟨fills_of_statemcl (holds_succ delivers holds) starts, takes.payload, ?_⟩
  change DcacheMcl.ma0 (run.state t) (run.clk t) = _
  rw [DcacheMcl.ma0, idle]
  rcases starts with starts | starts <;> simp [starts]

/-- What the two kinds of fill have in common. -/
structure Reads (run : MclRun) (t : ℕ) : Prop where
  statemcl : (run.state t).statemcl = .rfill ∨ (run.state t).statemcl = .wfill
  fills : run.Fills t
  fillvDel1 : (run.state t).fillvDel1 = false

theorem reads_of_fills {m : Mode} (holds : run.Holds t m) (fills : m = .filling ∨ m = .missFilling) :
    run.Reads t := by
  rcases fills with rfl | rfl
  · obtain ⟨state, -, fills, -, opens⟩ := holds
    exact ⟨.inl state, fills, opens.fillvDel1⟩
  · obtain ⟨state, -, fills, opens⟩ := holds
    exact ⟨.inr state, fills, opens.fillvDel1⟩

/-- While words are still to come the mode stays and the address goes on with them. -/
theorem filling_more {m : Mode} (holds : run.Holds t m) (fills : m = .filling ∨ m = .missFilling)
    (more : ((run.clk t).ma.ack && DcacheMcl.cwLast (run.state t)) = false) :
    run.nextMode t m = m ∧ (run.state (t + 1)).ma0 =
      if (run.clk t).ma.ack then
        DcacheMcl.withWord (run.state t).ma0 (toCacheWord (run.state t).ma0 + 1)
      else (run.state t).ma0 := by
  obtain ⟨state, -, -⟩ := reads_of_fills holds fills
  constructor
  · rcases fills with rfl | rfl
    · rw [nextMode, Mode.next, more]
      rfl
    · rw [nextMode, Mode.next, more]
      rfl
  · change DcacheMcl.ma0 (run.state t) (run.clk t) = _
    have stays : (DcacheMcl.nextStatemcl (run.state t) (run.clk t) == .wtha) = false := by
      rcases state with state | state
      · rw [DcacheMcl.nextStatemcl, state]
        dsimp only
        rw [Bool.and_assoc, more, Bool.and_false]
        rfl
      · rw [DcacheMcl.nextStatemcl, state]
        dsimp only
        rw [Bool.and_assoc, more, Bool.and_false]
        rfl
    rw [DcacheMcl.ma0, stays]
    rcases state with state | state <;> rw [state] <;> rfl

/-- One clock of a fill. -/
theorem atWord_filling (holds : run.Holds t (run.mode t))
    {w : BitVec 3} (word : run.AtWord t b0d (some w)) :
    run.AtWord (t + 1) b0d
      (Round.next (toCacheWord (b0dAddr b0d)) (run.clk t).ma.ack (some w)) := by
  obtain ⟨mode, payload, ma0⟩ := word
  obtain ⟨state, fills, del⟩ := reads_of_fills holds mode
  have current : toCacheWord (run.state t).ma0 = w := by
    rw [ma0, DcacheMcl.toCacheWord_withWord]
  have cwLast : DcacheMcl.cwLast (run.state t) = (w + 1 == toCacheWord (b0dAddr b0d)) := by
    rw [DcacheMcl.cwLast, current, fills.reqw, payload]
  have next : run.mode (t + 1) = run.nextMode t (run.mode t) := rfl
  have payload := (payload_of_quiet (seen_of_fillvDel1 del)).trans payload
  rw [Round.next]
  split_ifs with acked last
  · have ends : ((run.clk t).ma.ack && DcacheMcl.cwLast (run.state t)) = true := by
      rw [acked, cwLast, beq_iff_eq.mpr last]
      rfl
    rw [AtWord, next, nextMode]
    rcases mode with mode | mode
    · rw [mode, Mode.next, if_pos ends]
      exact .inr (.inl rfl)
    · rw [mode, Mode.next, if_pos ends]
      exact .inl rfl
  · have more : ((run.clk t).ma.ack && DcacheMcl.cwLast (run.state t)) = false := by
      rw [cwLast, beq_false_of_ne last, Bool.and_false]
    obtain ⟨stays, address⟩ := filling_more holds mode more
    refine ⟨?_, payload, ?_⟩
    · rw [next, stays]
      exact mode
    · rw [address, if_pos acked, current, ma0, DcacheMcl.withWord_withWord]
  · have more : ((run.clk t).ma.ack && DcacheMcl.cwLast (run.state t)) = false := by
      rw [Bool.eq_false_of_not_eq_true acked, Bool.false_and]
    obtain ⟨stays, address⟩ := filling_more holds mode more
    refine ⟨?_, payload, ?_⟩
    · rw [next, stays]
      exact mode
    · rw [address, if_neg acked, ma0]

/-- The bytes that are written of a word of the line. -/
theorem ryWe1_of_atWord (holds : run.Holds t (run.mode t)) (masked : run.Masked t (run.mode t))
    {w : BitVec 3} (word : run.AtWord t b0d (some w)) :
    (run.state t).ryWe1 = fillWe b0d (run.state t).ma0 := by
  obtain ⟨mode, payload, -⟩ := word
  rw [fillWe]
  rcases mode with mode | mode
  · rw [mode] at holds
    obtain ⟨-, -, -, all, opens⟩ := holds
    have command := opens.command
    rw [payload] at command
    rw [all, if_neg (by simp [command, cacheDcmdReadmiss, cacheDcmdWritemiss])]
  · obtain ⟨mav, we⟩ := masked mode
    rw [mode] at holds
    obtain ⟨-, -, fills, opens⟩ := holds
    have command := opens.command
    rw [payload] at command
    rw [we, mav, fills.reqw, payload]
    simp [command]

/-- After the last word no line is read until another command is taken over. -/
theorem atWord_stopped (holds : run.Holds t (run.mode t)) (stopped : run.AtWord t b0d none)
    (quiet : DcacheMcl.sboutEn1 (run.state t) (run.clk t) = false) :
    run.AtWord (t + 1) b0d none := by
  have next : run.mode (t + 1) = run.nextMode t (run.mode t) := rfl
  rw [AtWord, next, nextMode]
  rcases stopped with mode | mode | mode | mode
  · rw [mode, Mode.next]
    split_ifs
    · exact .inr (.inl rfl)
    · exact .inl rfl
  · rw [mode, Mode.next]
    split_ifs
    · exact .inr (.inr (.inl rfl))
    · exact .inr (.inr (.inr rfl))
  · rw [mode]
    exact .inr (.inr (.inr rfl))
  · rw [mode] at holds
    obtain ⟨rests, -⟩ := holds
    rw [DcacheMcl.sboutEn1, rests.statemcl] at quiet
    have unseen := (Bool.or_eq_false_iff.mp quiet).1
    rw [mode, Mode.next, unseen]
    exact .inr (.inr (.inr rfl))

end MclRun

/-! ### The data cache -/

namespace DcacheRun

section Definitions

variable (run : DcacheRun) (s t : ℕ)

/-- The inputs of the memory side. -/
def mclI : DcacheMclI := Dcache.mclI (run.state t) (run.clk t)

/-- The memory side leaves its idle state to read a line. -/
structure StartsFill : Prop where
  rises : run.rises200 s = true
  idle : (run.state s).mcl.statemcl = .idle
  line : DcacheMcl.nextStatemcl (run.state s).mcl (run.mclI s) = .rfill ∨
    DcacheMcl.nextStatemcl (run.state s).mcl (run.mclI s) = .wfill

/-- The command and its address. -/
def fillB0d : BitVec 65 := (run.mclI s).ctom.b0d

def fillAddr : BitVec 28 := b0dAddr (run.fillB0d s)

/-- The address that is read on the memory port. -/
def asked : Option (BitVec 28) :=
  if (run.my t).en && !(run.my t).wr then some (run.my t).a else none

/-- The memory acknowledges at an edge of its clock. -/
def ack : Bool := run.rises200 t && (run.clk t).ma.ack

/-- The word that comes, with its address. -/
def fetched : Option (BitVec 28 × BitVec 32) :=
  if run.ack t then (run.asked t).map fun a => (a, (run.clk t).ma.d) else none

/-- What goes to the data RAM, with the bytes that are written. -/
def placed : Option (BitVec 11 × BitVec 4 × BitVec 32) :=
  let ry := run.ryMcl t
  if run.rises200 t && ry.en1 && ry.wr1 then some (ry.a1, ry.we1, ry.d1) else none

/-- No command has been taken over since the line has come. -/
def Untaken (n : ℕ) : Prop :=
  ∀ k < n, 8 ≤ Round.acks (after s run.ack) k → after s run.rises200 k = true →
    DcacheMcl.sboutEn1 (after s run.state k).mcl (after s run.mclI k) = false

/-- The line is read, with this word on the memory port, or no longer. -/
def AtWord (w : Option (BitVec 3)) : Prop := run.mcl.AtWord (run.mclTime t) (run.fillB0d s) w

end Definitions

variable {run : DcacheRun} {s t : ℕ}

theorem asked_of_atWord (acknowledges : run.Acknowledges) {w : Option (BitVec 3)}
    (word : run.AtWord s t w) : run.asked t = w.map (DcacheMcl.withWord (run.fillAddr s)) := by
  have holds := (run.steady acknowledges t).2.holds
  rw [asked, my, DcacheMcl.my, ← state_mcl]
  cases w with
  | none =>
    have rests : ((run.mcl.state (run.mclTime t)).men &&
        !(run.mcl.state (run.mclTime t)).mwr) = false := by
      rcases word with mode | mode | mode | mode <;> rw [mode] at holds
      · obtain ⟨-, -, -, men, mwr, -⟩ := holds
        rw [mwr]
        exact Bool.and_false _
      all_goals
        obtain ⟨rests, -⟩ := holds
        rw [rests.men]
        rfl
    rw [rests]
    rfl
  | some w =>
    obtain ⟨mode, payload, ma0⟩ := word
    obtain ⟨-, fills, -⟩ := MclRun.reads_of_fills holds mode
    rw [fills.men, fills.mwr, ma0]
    rfl

theorem atWord_start (acknowledges : run.Acknowledges) (starts : run.StartsFill s) :
    run.AtWord s (s + 1) (some (toCacheWord (run.fillAddr s))) := by
  obtain ⟨rises, idle, line⟩ := starts
  obtain ⟨crosses, steady⟩ := run.steady acknowledges s
  have delivers := delivers acknowledges steady crosses rises
  rw [mclI, ← mcl_clk rises, ← state_mcl] at line
  rw [← state_mcl] at idle
  have start := MclRun.atWord_start delivers steady.holds idle line
  rw [mcl_clk rises] at start
  rw [AtWord, mclTime_succ, if_pos rises]
  exact start

/-- One clock of the memory side keeps it, or it rests. -/
theorem atWord_succ (acknowledges : run.Acknowledges) {w : Option (BitVec 3)}
    (word : run.AtWord s t w)
    (untaken : w = none → run.rises200 t = true →
      DcacheMcl.sboutEn1 (run.state t).mcl (run.mclI t) = false) :
    run.AtWord s (t + 1) (Round.next (toCacheWord (run.fillAddr s)) (run.ack t) w) := by
  rw [AtWord, mclTime_succ, ack]
  have holds := (run.steady acknowledges t).2.holds
  cases rises : run.rises200 t with
  | false =>
    cases w with
    | none => exact word
    | some w => exact word
  | true =>
    rw [if_pos rfl, Bool.true_and]
    cases w with
    | none =>
      have quiet := untaken rfl rises
      rw [mclI, ← mcl_clk rises, ← state_mcl] at quiet
      exact MclRun.atWord_stopped holds word quiet
    | some w =>
      have more := MclRun.atWord_filling holds word
      rw [mcl_clk rises] at more
      exact more

/-- The memory side counts round the line. -/
theorem atWord_number (acknowledges : run.Acknowledges) (starts : run.StartsFill s) {n : ℕ}
    (untaken : run.Untaken s n) : run.AtWord s (s + 1 + n)
      (Round.number (toCacheWord (run.fillAddr s)) (after s run.ack) n) := by
  -- each clock of the memory side is a step of the counter
  refine Round.number_rel (R := fun k => run.AtWord s (s + 1 + k))
    (atWord_start acknowledges starts) ?_
  intro k hk word
  apply atWord_succ acknowledges word
  intro number
  exact untaken k hk (Round.le_acks_of_number number)

theorem asked_eq (acknowledges : run.Acknowledges) (starts : run.StartsFill s) {n : ℕ}
    (untaken : run.Untaken s n) :
    after s run.asked n = (Round.number (toCacheWord (run.fillAddr s)) (after s run.ack) n).map
      (DcacheMcl.withWord (run.fillAddr s)) :=
  asked_of_atWord acknowledges (atWord_number acknowledges starts untaken)

theorem placed_eq (acknowledges : run.Acknowledges) (t : ℕ) : run.placed t =
    (run.fetched t).map fun x => (x.1.extractLsb 12 2, (run.state t).mcl.ryWe1, x.2) := by
  rw [placed, fetched, ack, asked, ryMcl, my]
  have arrives : (Dcache.mclI (run.state t) (run.clk t)).ma = (run.clk t).ma := rfl
  cases rises : run.rises200 t with
  | false => rfl
  | true =>
    obtain ⟨ackR, -⟩ := acknowledges t rises
    cases men : (run.state t).mcl.men <;> cases mwr : (run.state t).mcl.mwr <;>
      cases acked : (run.clk t).ma.ack <;>
      simp [DcacheMcl.ryMcl, DcacheMcl.my, men, mwr, arrives, ackR, acked]

/-- What comes is written to its place, the word of a store without the bytes of the store. -/
theorem placed_of_atWord (acknowledges : run.Acknowledges) {w : Option (BitVec 3)}
    (word : run.AtWord s t w) : run.placed t =
      (run.fetched t).map fun x => (x.1.extractLsb 12 2, fillWe (run.fillB0d s) x.1, x.2) := by
  rw [placed_eq acknowledges, fetched, asked_of_atWord acknowledges word]
  -- after the last word nothing comes
  cases w with
  | none => cases run.ack t <;> rfl
  | some w =>
    have holds := (run.steady acknowledges t).2.holds
    have we := MclRun.ryWe1_of_atWord holds (masked acknowledges t) word
    rw [state_mcl] at we
    obtain ⟨-, -, ma0⟩ := word
    rw [state_mcl] at ma0
    rw [we, ma0]
    cases run.ack t <;> rfl

end DcacheRun

/-! ### Both caches -/

namespace IcacheRun

variable {run : IcacheRun} {s : ℕ}

theorem fillsLine (starts : run.StartsFill s) {n : ℕ} (unseen : run.Unseen s n) :
    FillsLine (run.fillAddr s) (Round.acks (after s run.ack) n) (after s run.asked n)
      (history (after s run.fetched) n) := by
  apply fillsLine_of_number (d := after s fun t => (run.clk t).ma.d)
  intro k hk
  exact asked_eq starts fun j hj => unseen j (hj.trans_le hk)

theorem history_placed (run : IcacheRun) (s n : ℕ) : history (after s run.placed) n =
    (history (after s run.fetched) n).map fun x => (x.1.extractLsb 12 2, x.2) := by
  rw [← history_map]
  apply history_congr
  intro k _
  exact placed_eq run (s + 1 + k)

end IcacheRun

namespace DcacheRun

variable {run : DcacheRun} {s : ℕ}

theorem fillsLine (acknowledges : run.Acknowledges) (starts : run.StartsFill s) {n : ℕ}
    (untaken : run.Untaken s n) :
    FillsLine (run.fillAddr s) (Round.acks (after s run.ack) n) (after s run.asked n)
      (history (after s run.fetched) n) := by
  apply fillsLine_of_number (d := after s fun t => (run.clk t).ma.d)
  intro k hk
  exact asked_eq acknowledges starts fun j hj => untaken j (hj.trans_le hk)

theorem history_placed (acknowledges : run.Acknowledges) (starts : run.StartsFill s) {n : ℕ}
    (untaken : run.Untaken s n) : history (after s run.placed) n =
      (history (after s run.fetched) n).map fun x =>
        (x.1.extractLsb 12 2, fillWe (run.fillB0d s) x.1, x.2) := by
  rw [← history_map]
  apply history_congr
  intro k hk
  apply placed_of_atWord acknowledges
  exact atWord_number acknowledges starts fun j hj => untaken j (hj.trans hk)

end DcacheRun

/-- A line fill reads every word of its line once, in turn from the critical word on, and then
reads nothing. Each word is written to its place, the word of a store that misses without the
bytes of the store. -/
theorem line_fills :
    (∀ (run : IcacheRun) (s n : ℕ), run.StartsFill s → run.Unseen s n →
      FillsLine (run.fillAddr s) (Round.acks (after s run.ack) n) (after s run.asked n)
          (history (after s run.fetched) n) ∧
        history (after s run.placed) n =
          (history (after s run.fetched) n).map fun x => (x.1.extractLsb 12 2, x.2)) ∧
    ∀ (run : DcacheRun) (s n : ℕ), run.Acknowledges → run.StartsFill s → run.Untaken s n →
      FillsLine (run.fillAddr s) (Round.acks (after s run.ack) n) (after s run.asked n)
          (history (after s run.fetched) n) ∧
        history (after s run.placed) n =
          (history (after s run.fetched) n).map fun x =>
            (x.1.extractLsb 12 2, fillWe (run.fillB0d s) x.1, x.2) := by
  constructor
  · intro run s n starts unseen
    exact ⟨IcacheRun.fillsLine starts unseen, IcacheRun.history_placed run s n⟩
  · intro run s n acknowledges starts untaken
    exact ⟨DcacheRun.fillsLine acknowledges starts untaken,
      DcacheRun.history_placed acknowledges starts untaken⟩

/-! ### Two fills -/

/-- A fetch in the last word but one of its line, at both clocks and with waits of the memory. -/
def fillRun : IcacheRun where
  clk125 := false
  clk200 := false
  clk t :=
    { clk125 := true, clk200 := true, ra := { d0 := 0, tag := 0 }, a := { a := 0x118, en := true }
      icccra := { icOnm := true, icInv := false }
      ma := { d := BitVec.ofNat 32 t, ack := t % 3 == 0, ackR := t % 3 == 0 } }

/-- The fetch goes round from its word on, and so does the store in word 3 of its line. -/
theorem line_fills_both :
    (history (after 32 fillRun.fetched) 50).map Prod.fst =
        [0x118, 0x11c, 0x100, 0x104, 0x108, 0x10c, 0x110, 0x114] ∧
      (history (after 14 DcacheRun.missRun.fetched) 40).map Prod.fst =
        [0x10c, 0x110, 0x114, 0x118, 0x11c, 0x100, 0x104, 0x108] := by
  have fetch : fillRun.StartsFill 32 := by
    constructor <;> decide +kernel
  have unseen : fillRun.Unseen 32 50 := by
    have quiet : ∀ k < 50, IcacheMcl.seen (after 32 fillRun.mcl k) (after 32 fillRun.mclI k) =
        false := by
      decide +kernel
    exact fun k hk _ _ => quiet k hk
  have store : DcacheRun.missRun.StartsFill 14 := by
    constructor <;> decide +kernel
  have untaken : DcacheRun.missRun.Untaken 14 40 := by
    have quiet : ∀ k < 40, DcacheMcl.sboutEn1 (after 14 DcacheRun.missRun.state k).mcl
        (after 14 DcacheRun.missRun.mclI k) = false := by
      decide +kernel
    exact fun k hk _ _ => quiet k hk
  constructor
  · exact (line_fills.1 fillRun 32 50 fetch unseen).1.order.trans (by decide +kernel)
  · exact (line_fills.2 DcacheRun.missRun 14 40 DcacheRun.acknowledges_missRun store
      untaken).1.order.trans (by decide +kernel)

namespace DcacheRun

/-- A whole word is stored at `0x10c`. -/
def wordStore : CpuDataO :=
  Datapath.toDataO
    { issue := true, wr := true, lock := false, size := .long, addrSel := .selXbus
      wdataSel := .selYbus }
    { cpuDataMux := .dbus, coprocCmd := .nop } 0x10c 0x5a5a5a5a

/-- The memory as before, with that store. -/
def wordRun : DcacheRun where
  clk125 := false
  clk200 := false
  clk t := { missRun.clk t with a := if t < 6 then nullDataO else wordStore }

theorem acknowledges_wordRun : wordRun.Acknowledges := by
  apply acknowledges_of_beats
  · exact fun _ => rfl
  · exact fun _ => rfl
  · decide +kernel

/-- The critical word of a store that misses need not be written at all. -/
theorem not_line_fills_whole :
    ¬ ∀ (run : DcacheRun) (s n : ℕ), run.Acknowledges → run.StartsFill s → run.Untaken s n →
      history (after s run.placed) n =
        (history (after s run.fetched) n).map fun x => (x.1.extractLsb 12 2, 0xf, x.2) := by
  intro whole
  have untaken : wordRun.Untaken 14 4 := by
    have quiet : ∀ k < 4, DcacheMcl.sboutEn1 (after 14 wordRun.state k).mcl
        (after 14 wordRun.mclI k) = false := by
      decide +kernel
    exact fun k hk _ _ => quiet k hk
  have written := whole wordRun 14 4 acknowledges_wordRun (by constructor <;> decide +kernel) untaken
  -- the critical word comes, and none of its bytes is enabled
  have nothing : history (after 14 wordRun.placed) 4 = [(0x43, 0, 0x33333333)] := by
    decide +kernel
  have fetched : history (after 14 wordRun.fetched) 4 = [(0x10c, 0x33333333)] := by
    decide +kernel
  rw [nothing, fetched] at written
  cases written

end DcacheRun

end JCore
