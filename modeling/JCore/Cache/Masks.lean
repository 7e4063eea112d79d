import JCore.Cache.Ccl
import JCore.Cache.Completion
import JCore.Cache.Fill

/-!
# The bytes of a store that misses

The CPU side writes the bytes of a store into the data RAM before it knows whether the line
is there. When it is not, the memory side fills the line from the word of the store on, and
leaves out the bytes of the store in that word.

## Main definitions

* `MclRun.Masked`: the write enables of the words that arrive
* `MclRun.Fetched`: the words that have arrived

## Main results

* `MclRun.fetched_of_succ`: one clock of a fill
* `MclRun.ryMcl_of_missFilling`, `MclRun.en1_of_holds`: what the memory side writes
* `DcacheCcl.ryCcl_of_wmiss1`, `DcacheCcl.wmiss_busy`: what the CPU side writes
-/

namespace JCore

/-! ### The memory side -/

namespace MclRun

section Definitions

variable (run : MclRun) (t : ℕ)

/-- While the first word is awaited the bytes of the store are masked. -/
structure Masks : Prop where
  mav : (run.state t).mav = (toCacheWord (run.state t).ma0 == (run.state t).reqw)
  ryWe1 : (run.state t).ryWe1 =
    if (run.state t).mav then ~~~ b0dWe (run.port t).payload else 0xf

def Masked (m : Mode) : Prop := m = .missFilling → run.Masks t

/-- A word of the line of a store that misses has arrived. -/
def Fetched (x : BitVec 3) : Mode → Prop
  | .missFilling =>
    x - (run.state t).reqw < toCacheWord (run.state t).ma0 - (run.state t).reqw
  | .merging | .answering0 => True
  | _ => False

end Definitions

variable {run : MclRun} {t : ℕ}

attribute [local simp] DcacheMcl.sboutEn1 DcacheMcl.seen DcacheMcl.sboutCmd DcacheMcl.sboutWe
  DcacheMcl.isWritesgl DcacheMcl.nextStatemcl DcacheMcl.maAckG DcacheMcl.ma0 DcacheMcl.reqw
  DcacheMcl.mav DcacheMcl.ryWe1 DcacheMcl.step MclRun.state_succ

attribute [local simp] cacheDcmdReadmiss cacheDcmdNegateLo cacheDcmdReadsglNm
  cacheDcmdReadsglLo cacheDcmdWritemiss cacheDcmdWritesglFa cacheDcmdWritesglSl

theorem accept_eq_missFilling {cmd : BitVec 3} {gap : DcachemwiState}
    (h : Mode.accept cmd gap = .missFilling) : cmd = cacheDcmdWritemiss := by
  rw [Mode.accept] at h
  split_ifs at h with c1 c2
  exact c2

/-- The fill starts with the word of the store. -/
theorem masks_of_takes (takes : run.Takes t)
    (cmd : b0dCmd (run.clk t).ctom.b0d = cacheDcmdWritemiss) : run.Masks (t + 1) ∧
      toCacheWord (run.state (t + 1)).ma0 = (run.state (t + 1)).reqw := by
  obtain ⟨⟨h1, h2, h3, h4, h5, h6⟩, pre, rfillv, gap, taken, lines, ack, payload, -⟩ := takes
  have taken' : (((run.clk t).ctom.b0en = false ∧ (run.state t).fillvDel1 = true) ∨
      (run.state t).sbblknxst = true) := by simpa [h1] using taken
  refine ⟨⟨?_, ?_⟩, ?_⟩
  · simp [h1, h5, cmd, taken']
  · simp [h1, h5, cmd, taken', payload]
  · simp [h1, h5, cmd, taken']

/-- While a line is filled the word that is awaited goes round. -/
theorem word_succ (delivers : run.Delivers t) (h : run.Holds t .missFilling)
    (more : ((run.clk t).ma.ack && DcacheMcl.cwLast (run.state t)) = false) :
    (run.state (t + 1)).reqw = (run.state t).reqw ∧
      toCacheWord (run.state (t + 1)).ma0 =
        if (run.clk t).ma.ack then toCacheWord (run.state t).ma0 + 1
        else toCacheWord (run.state t).ma0 := by
  obtain ⟨h1, ⟨h7, h8, h9⟩, ⟨hgap, h2, h3, h4, h5, h6, -, -⟩, ⟨hopen, hdel, hcmd⟩⟩ := h
  obtain ⟨en, payload⟩ := delivers.lines (.inl hopen)
  rw [Bool.and_eq_false_imp] at more
  cases ack : (run.clk t).ma.ack with
  | false => simp [h1, ack]
  | true => simp [h1, h2, ack, more ack]

theorem masks_missFilling (delivers : run.Delivers t) (h : run.Holds t .missFilling)
    (masks : run.Masks t)
    (more : ((run.clk t).ma.ack && DcacheMcl.cwLast (run.state t)) = false) :
    run.Masks (t + 1) := by
  obtain ⟨reqw, word⟩ := word_succ delivers h more
  obtain ⟨h1, ⟨h7, h8, h9⟩, ⟨hgap, h2, h3, h4, h5, h6, -, -⟩, ⟨hopen, hdel, hcmd⟩⟩ := h
  obtain ⟨en, payload⟩ := delivers.lines (.inl hopen)
  have quiet := payload_of_quiet (seen_of_fillvDel1 hdel)
  rw [Bool.and_eq_false_imp] at more
  constructor
  · rw [reqw, word]
    cases ack : (run.clk t).ma.ack with
    | false => simpa [h1, h2, ack] using masks.mav
    | true =>
      have last := beq_eq_false_iff_ne.mp (more ack)
      simpa [h1, h2, ack, more ack] using last
  · cases ack : (run.clk t).ma.ack with
    | false => simp [h1, h2, h5, ack, en, payload, hcmd, quiet]
    | true => simp [h1, h2, h5, ack, more ack, en, payload, hcmd]

theorem masked_succ (delivers : run.Delivers t) {m : Mode} (h : run.Holds t m)
    (masked : run.Masked t m) : run.Masked (t + 1) (run.nextMode t m) := by
  intro next
  rw [nextMode] at next
  cases m with
  | free =>
    rw [Mode.next] at next
    split_ifs at next with arrives
    exact (masks_of_takes (takes_of_free delivers h arrives).1 (accept_eq_missFilling next)).1
  | remembered =>
    exact (masks_of_takes (takes_of_remembered delivers h).1 (accept_eq_missFilling next)).1
  | missFilling =>
    rw [Mode.next] at next
    split_ifs at next with last
    exact masks_missFilling delivers h (masked rfl) (Bool.eq_false_of_not_eq_true last)
  | cooling | answering1 => cases next
  | answering0 | filling | merging | reading | storing | early | queued | buffering =>
    rw [Mode.next] at next
    split_ifs at next

/-- With the first word still awaited none has arrived. -/
theorem not_fetched_of_takes (takes : run.Takes t) (gap : DcachemwiState) {x : BitVec 3}
    (command : b0dCmd (run.port (t + 1)).payload = cacheDcmdWritemiss) :
    ¬ run.Fetched (t + 1) x (.accept (b0dCmd (run.clk t).ctom.b0d) gap) := by
  rw [takes.payload] at command
  have accept : Mode.accept (b0dCmd (run.clk t).ctom.b0d) gap = .missFilling := by
    rw [command]
    rfl
  rw [accept, Fetched, (masks_of_takes takes command).2, BitVec.sub_self]
  exact BitVec.not_lt_zero

/-- A word that has arrived had arrived before, or does now. -/
theorem fetched_of_succ (delivers : run.Delivers t) {m : Mode} (h : run.Holds t m)
    {x : BitVec 3} (command : b0dCmd (run.port (t + 1)).payload = cacheDcmdWritemiss)
    (fetched : run.Fetched (t + 1) x (run.nextMode t m)) : run.Fetched t x m ∨
      m = .missFilling ∧ (run.clk t).ma.ack = true ∧ x = toCacheWord (run.state t).ma0 := by
  rw [nextMode] at fetched
  -- only in a fill do words arrive
  cases m with
  | free =>
    rw [Mode.next] at fetched
    split_ifs at fetched with arrives
    · exact absurd fetched
        (not_fetched_of_takes (takes_of_free delivers h arrives).1 _ command)
    · exact fetched.elim
  | remembered =>
    exact absurd fetched (not_fetched_of_takes (takes_of_remembered delivers h).1 _ command)
  -- the last word ends the fill, any other one moves the word that is awaited
  | missFilling =>
    rw [Mode.next] at fetched
    split_ifs at fetched with last
    · rw [Bool.and_eq_true] at last
      have done : toCacheWord (run.state t).ma0 + 1 = (run.state t).reqw := by
        exact beq_iff_eq.mp last.2
      rcases IcacheMcl.sub_lt_sub_or_eq (x := x) done with before | now
      · exact .inl before
      · exact .inr ⟨rfl, last.1, now⟩
    · have more := Bool.eq_false_of_not_eq_true last
      obtain ⟨reqw, word⟩ := word_succ delivers h more
      rw [Fetched, reqw, word] at fetched
      cases ack : (run.clk t).ma.ack with
      | false =>
        rw [ack] at fetched
        exact .inl fetched
      | true =>
        rw [ack, if_pos rfl] at fetched
        rw [ack, Bool.true_and] at more
        rcases (IcacheMcl.sub_lt_succ_sub (beq_eq_false_iff_ne.mp more)).mp fetched with before | now
        · exact .inl before
        · exact .inr ⟨rfl, rfl, now⟩
  | merging | answering0 => exact .inl trivial
  | cooling => exact fetched.elim
  | early | queued | buffering | reading =>
    rw [Mode.next] at fetched
    split_ifs at fetched <;> exact fetched.elim
  | answering1 =>
    obtain ⟨-, -, -, -, -, ⟨-, hdel, hcmd⟩⟩ := h
    rw [payload_of_quiet (seen_of_fillvDel1 hdel)] at command
    rw [command] at hcmd
    exact absurd hcmd (by decide)
  | filling =>
    obtain ⟨-, -, -, -, ⟨-, hdel, hcmd⟩⟩ := h
    rw [payload_of_quiet (seen_of_fillvDel1 hdel), hcmd] at command
    exact absurd command (by decide)
  | storing =>
    obtain ⟨-, -, -, -, -, ⟨-, hdel, hcmd⟩⟩ := h
    rw [payload_of_quiet (seen_of_fillvDel1 hdel), hcmd] at command
    exact absurd command (by decide)

/-- A store that misses is completed when its line is there. -/
theorem answering0_of_writemiss {m : Mode} (delivers : run.Delivers t) (h : run.Holds t m)
    (completes : run.completes t = true)
    (command : b0dCmd (run.clk t).ctom.b0d = cacheDcmdWritemiss) : m = .answering0 := by
  have lines := delivers.lines
  cases m <;> grind [Holds, cases Open, cases Rests, cases Silent, cases Buffers,
    MclRun.completes, DcacheMcl.mtoc, DcacheMcl.b0enr, DcacheMcl.sboutCmd, DcacheMcl.sboutEn1,
    DcacheMcl.seen, cacheDcmdReadsglNm, cacheDcmdReadsglLo, cacheDcmdNegateLo, cacheDcmdReadmiss,
    cacheDcmdWritemiss, cacheDcmdWritesglFa, cacheDcmdWritesglSl]

/-- Outside of a fill the memory side writes nothing for a store that misses. -/
theorem en1_of_holds {m : Mode} (h : run.Holds t m)
    (command : m.opens = true → b0dCmd (run.port t).payload = cacheDcmdWritemiss)
    (other : m ≠ .missFilling) :
    (DcacheMcl.ryMcl (run.state t) (run.clk t)).en1 = false := by
  cases m <;> grind [Holds, Mode.opens, DcacheMcl.ryMcl, cases Open, cases Rests, cases Buffers,
    cacheDcmdReadsglNm, cacheDcmdReadsglLo, cacheDcmdReadmiss, cacheDcmdWritemiss,
    cacheDcmdWritesglFa, cacheDcmdWritesglSl]

/-- The words that arrive are written, the first one without the bytes of the store. -/
theorem ryMcl_of_missFilling (delivers : run.Delivers t) (h : run.Holds t .missFilling)
    (masks : run.Masks t) :
    DcacheMcl.ryMcl (run.state t) (run.clk t) =
      { a1 := (run.state t).ma0.extractLsb 12 2
        en1 := (run.clk t).ma.ack
        wr1 := (run.clk t).ma.ack
        we1 :=
          if (run.clk t).ma.ack then
            if toCacheWord (run.state t).ma0 = toCacheWord (b0dAddr (run.port t).payload) then
              ~~~ b0dWe (run.port t).payload
            else 0xf
          else 0
        d1 := (run.clk t).ma.d } := by
  obtain ⟨mav, we⟩ := masks
  obtain ⟨-, -, fills, -⟩ := h
  rw [fills.reqw] at mav
  simp [DcacheMcl.ryMcl, delivers.ackR, fills.men, fills.mwr, we, mav]

end MclRun

/-! ### The CPU side -/

namespace DcacheCcl

variable {this : DcacheCclReg} {i : DcacheCclI}

theorem wmiss1_of_command (en : ctomB0en this i = true)
    (command : ctomCmd this i = cacheDcmdWritemiss) : nextState this i = .wmiss1 := by
  grind [ctomCmd, ctomB0en, cacheDcmdReadmiss, cacheDcmdNegateLo, cacheDcmdReadsglNm,
    cacheDcmdReadsglLo, cacheDcmdWritemiss, cacheDcmdWritesglFa, cacheDcmdWritesglSl]

/-- A store misses when nothing is under way, or behind another store. -/
theorem nextState_eq_wmiss1 (h : nextState this i = .wmiss1) : this.dcOnm = true ∧
    i.a.en = true ∧ i.a.wr = true ∧
      (this.state = .idle ∧ i.aLock = false ∨ this.state = .sb2) := by
  grind [nextState, nextStateOn, nextStateOff]

/-- It is written to the data RAM in the clock in which it misses. -/
theorem ryCcl_of_wmiss1 (h : nextState this i = .wmiss1) (lock : i.aLock = false) :
    (ryCcl this i).en0 = true ∧ (ryCcl this i).wr0 = true ∧
      (ryCcl this i).a0 = toCacheIndex i.a.a ++ toCacheWord i.a.a ∧ (ryCcl this i).we0 = i.a.we ∧
        (ryCcl this i).d0 = i.a.d := by
  obtain ⟨-, en, wr, state⟩ := nextState_eq_wmiss1 h
  rcases state with ⟨state, -⟩ | state <;>
    simp [ryCcl, ryEn0, a0, we0, wr0, en, wr, lock, state]

/-- While a store that misses is under way the CPU side writes nothing and asks nothing. -/
theorem wmiss_busy (state : this.state = .wmiss1 ∨ this.state = .wmiss2)
    (onm : this.dcOnm = true) : wr0 this i = false ∧ ctomB0en this i = false ∧
      (memTransAck this i = false → nextState this i = .wmiss2 ∧ dcOnm this i = true) := by
  have next : memTransAck this i = false → nextState this i = .wmiss2 := by
    intro quiet
    rcases state with state | state <;> simp [nextState, nextStateOn, onm, state, quiet]
  refine ⟨?_, ?_, fun quiet => ⟨next quiet, ?_⟩⟩
  · rcases state with state | state <;> simp [wr0, state]
  · by_contra asks
    have free := ctomB0en_cases (Bool.not_eq_false _ ▸ asks)
    rcases state with state | state <;> simp [state] at free
  · simp [dcOnm, next quiet, onm]

/-- A state of a store is entered with the store, which is acknowledged then. -/
theorem entered_of_sb (h : nextState this i = .sb1 ∨ nextState this i = .sb2) :
    (this.state = .sb1 ∨ this.state = .sb2) ∨
      i.a.en = true ∧ (y this i).ack = true ∧ i.aLock = false := by
  grind [nextState, nextStateOn, nextStateOff, y, yAckBeforetI1]

/-- In these states no locked access is acknowledged. -/
theorem unlocked_of_sb (h : this.state = .sb1 ∨ this.state = .sb2) (en : i.a.en = true)
    (ack : (y this i).ack = true) : i.aLock = false := by
  grind [y, yAckBeforetI1, yAckBeforetI2, yAckBeforetD, yAckOff]

end DcacheCcl

end JCore
