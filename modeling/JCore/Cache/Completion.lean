import JCore.Cache.Traffic

/-!
# Completions and data of the data cache

The memory side completes every command once and in order, and returns the words that it
has read for it: a single word on the line of the data, the critical word of a miss on a
line of its own, the words of a line in the data RAM.

## Main definitions

* `MclRun.completion`, `MclRun.pending`: the command completed in a clock, and the open one

## Main results

* `MclRun.onePlace`: the handshake holds one command, and neither loses nor doubles it
* `MclRun.readsgl_data`, `MclRun.b2enr_iff`, `MclRun.readmiss_data`: the words returned
-/

namespace JCore

namespace MclRun

section Completion

variable (run : MclRun) (t : ℕ)

/-- The command completed in clock `t`. -/
def completion : Option (BitVec 65) :=
  if run.completes t then some (run.clk t).ctom.b0d else none

/-- The command that is open in clock `t`. -/
def pending : Option (BitVec 65) :=
  if (run.port t).isOpen then some (run.port t).payload else none

end Completion

variable {run : MclRun} {t : ℕ}

attribute [local grind =] DcacheMcl.sboutEn1 DcacheMcl.seen DcacheMcl.sboutCmd DcacheMcl.mtoc
  DcacheMcl.b0enr MclRun.completes MclRun.seen

/-! ### Completions -/

theorem pending_eq_some {b0d : BitVec 65} (h : run.pending t = some b0d) :
    (run.port t).isOpen = true ∧ (run.port t).payload = b0d := by
  rw [pending] at h
  split_ifs at h with isOpen
  exact ⟨isOpen, Option.some.inj h⟩

/-- The modes in which a command is open. -/
def Mode.opens : Mode → Bool
  | free | cooling | buffering => false
  | _ => true

theorem isOpen_of_holds {m : Mode} (h : run.Holds t m) : (run.port t).isOpen = m.opens := by
  cases m <;> grind [Holds, Mode.opens, cases Open]

theorem fillvDel1_of_holds {m : Mode} (h : run.Holds t m) (opens : m.opens = true) :
    (run.state t).fillvDel1 = false := by
  cases m <;> grind [Holds, Mode.opens, cases Open]

/-- A command may be completed in the clock in which it arrives. -/
theorem seen_of_completes {m : Mode} (delivers : run.Delivers t) (h : run.Holds t m)
    (closed : m.opens = false) (completes : run.completes t = true) : run.seen t ≠ none := by
  have lines := delivers.lines
  cases m <;> grind [Holds, Mode.opens, cases Rests, cases Silent, cases Buffers,
    cacheDcmdNegateLo, cacheDcmdWritesglFa]

/-- The word that is read is taken for an open command only. -/
theorem seen_of_b0enrMcdata {m : Mode} (delivers : run.Delivers t) (h : run.Holds t m)
    (closed : m.opens = false)
    (taken : (DcacheMcl.mtoc (run.state t) (run.clk t)).b0enrMcdata = true) :
    run.seen t ≠ none := by
  have lines := delivers.lines
  cases m <;> grind [Holds, Mode.opens, cases Rests, cases Silent, cases Buffers,
    DcacheMcl.b0enrMcdata, DcacheMcl.rfillv]

/-- The handshake holds one command, and neither loses nor doubles it. -/
theorem onePlace (delivered : run.Delivered) : OnePlace run.pending run.seen run.completion where
  empty := rfl
  step t := by
    have holds := holds_mode delivered t
    have lines := (delivered t).lines
    have opens := isOpen_of_holds holds
    cases hopen : (run.port t).isOpen with
    | true =>
      have quiet := seen_of_fillvDel1 (fillvDel1_of_holds holds (opens ▸ hopen))
      cases hc : run.completes t <;>
        simp [pending, completion, port_succ, quiet, hopen, hc, (lines (.inl hopen)).2]
    | false =>
      have arrives := seen_of_completes (delivered t) holds (opens ▸ hopen)
      cases hs : run.seen t with
      | none =>
        have hc : run.completes t = false := by
          rw [hs] at arrives
          exact Bool.eq_false_of_not_eq_true fun hc => arrives hc rfl
        simp [pending, completion, port_succ, hopen, hs, hc]
      | some b0d =>
        cases hc : run.completes t <;>
          simp [pending, completion, port_succ, hopen, hs, hc, (seen_eq_some hs).2]

/-! ### Data -/

/-- A word that the memory returned in clock `s` is on the line of the data in the next
clock, when the line is taken. -/
structure ReturnedSgl (run : MclRun) (s : ℕ) (b0d : BitVec 65) : Prop where
  transaction : run.transaction s = some (.read (b0dAddr b0d))
  b0enrMcdata : (DcacheMcl.mtoc (run.state (s + 1)) (run.clk (s + 1))).b0enrMcdata = true
  b0dUnc : (DcacheMcl.mtoc (run.state (s + 1)) (run.clk (s + 1))).b0dUnc = (run.clk s).ma.d

/-- The answer to a single read on its way. -/
def Returns (run : MclRun) (t : ℕ) : Mode → Prop
  | .answering1 => ∃ s, t = s + 1 ∧ run.ReturnedSgl s (run.port t).payload
  | .answering0 =>
    b0dCmd (run.port t).payload = cacheDcmdReadsglNm ∨
        b0dCmd (run.port t).payload = cacheDcmdReadsglLo →
      ∃ s, t = s + 2 ∧ run.ReturnedSgl s (run.port t).payload
  | _ => True

/-- The end of a single read. -/
theorem returnedSgl_of_reading (h : run.Holds t .reading) (ack : (run.clk t).ma.ack = true) :
    run.ReturnedSgl t (run.port t).payload := by
  obtain ⟨state, -, -, men, mwr, -, -, -, ha, -⟩ := h
  have pre : (run.state (t + 1)).rfillvPre1 = true := by
    simp [state_succ, DcacheMcl.step, DcacheMcl.rfillvPre1, DcacheMcl.nextStatemcl,
      DcacheMcl.maAckG, state, ack]
  have idle : (run.state (t + 1)).statemcl = .idle := by
    simp [state_succ, DcacheMcl.step, DcacheMcl.nextStatemcl, DcacheMcl.maAckG, state, ack]
  constructor
  · rw [transaction_read men mwr ack, ha]
  · simp [DcacheMcl.mtoc, DcacheMcl.b0enrMcdata, DcacheMcl.rfillv, idle, pre]
  · simp [DcacheMcl.mtoc, state_succ, DcacheMcl.step, men, ack]

theorem returns_accept (payload : (run.port (t + 1)).payload = (run.clk t).ctom.b0d)
    (gap : DcachemwiState) :
    run.Returns (t + 1) (.accept (b0dCmd (run.clk t).ctom.b0d) gap) := by
  rw [Mode.accept]
  split_ifs with c1 c2 c3 c4 c5
  · trivial
  · trivial
  · trivial
  · trivial
  · rw [Returns, payload, c5]
    exact fun h => absurd h (by decide)
  · trivial
  · trivial

/-- Only a single read is answered by a word. -/
theorem returns_of_ne {m : Mode} (same : (run.port (t + 1)).payload = (run.port t).payload)
    (ne : ¬(b0dCmd (run.port t).payload = cacheDcmdReadsglNm ∨
      b0dCmd (run.port t).payload = cacheDcmdReadsglLo)) (hm : m ≠ .answering1) :
    run.Returns (t + 1) m := by
  cases m with
  | answering1 => exact absurd rfl hm
  | answering0 => exact fun h => absurd (same ▸ h) ne
  | _ => trivial

theorem returns_succ (delivers : run.Delivers t) {m : Mode} (h : run.Holds t m)
    (returns : run.Returns t m) : run.Returns (t + 1) (run.nextMode t m) := by
  rw [nextMode]
  -- only an uncached read returns a word: it comes with the acknowledgement and stays until the
  -- command is completed
  cases m with
  | free =>
    cases hs : run.seen t with
    | none =>
      rw [seen_eq_none hs]
      trivial
    | some b0d =>
      rw [(seen_eq_some hs).1]
      exact returns_accept (by rw [port_succ, hs, (seen_eq_some hs).2]) _
  | remembered =>
    obtain ⟨-, -, -, -, -, ⟨hopen, hdel, -⟩⟩ := h
    have same := payload_of_quiet (seen_of_fillvDel1 hdel)
    exact returns_accept (same.trans (delivers.lines (.inl hopen)).2.symm) _
  | reading =>
    have answered := returnedSgl_of_reading h
    obtain ⟨-, -, -, -, -, -, -, -, -, ⟨-, hdel, -⟩⟩ := h
    have same := payload_of_quiet (seen_of_fillvDel1 hdel)
    rw [Mode.next]
    split_ifs with ack
    · exact ⟨t, rfl, same ▸ answered ack⟩
    · trivial
  | answering1 =>
    obtain ⟨s, rfl, returned⟩ := returns
    obtain ⟨-, -, -, -, -, ⟨-, hdel, -⟩⟩ := h
    have same := payload_of_quiet (seen_of_fillvDel1 hdel)
    exact fun _ => ⟨s, rfl, same ▸ returned⟩
  -- the commands of the other modes return nothing of their own
  | filling =>
    obtain ⟨-, -, -, -, ⟨-, hdel, hcmd⟩⟩ := h
    refine returns_of_ne (payload_of_quiet (seen_of_fillvDel1 hdel)) ?_ ?_
    · rw [hcmd]
      decide
    · rw [Mode.next]
      split_ifs <;> simp
  | merging =>
    obtain ⟨-, -, -, -, -, -, -, -, -, ⟨-, hdel, hcmd⟩⟩ := h
    refine returns_of_ne (payload_of_quiet (seen_of_fillvDel1 hdel)) ?_ ?_
    · rw [hcmd]
      decide
    · rw [Mode.next]
      split_ifs <;> simp
  | storing =>
    obtain ⟨-, -, -, -, -, ⟨-, hdel, hcmd⟩⟩ := h
    refine returns_of_ne (payload_of_quiet (seen_of_fillvDel1 hdel)) ?_ ?_
    · rw [hcmd]
      decide
    · rw [Mode.next]
      split_ifs <;> simp
  | cooling => trivial
  | _ =>
    rw [Mode.next]
    split_ifs <;> trivial

theorem returns_mode (delivered : run.Delivered) (t : ℕ) : run.Returns t (run.mode t) := by
  induction t with
  | zero => trivial
  | succ t ih => exact returns_succ (delivered t) (holds_mode delivered t) ih

/-- A single read is completed while it is answered. -/
theorem answering0_of_completes {m : Mode} (delivers : run.Delivers t) (h : run.Holds t m)
    (completes : run.completes t = true)
    (command : b0dCmd (run.clk t).ctom.b0d = cacheDcmdReadsglNm ∨
      b0dCmd (run.clk t).ctom.b0d = cacheDcmdReadsglLo) : m = .answering0 := by
  have lines := delivers.lines
  cases m <;> grind [Holds, cases Open, cases Rests, cases Silent, cases Buffers,
    cacheDcmdReadsglNm, cacheDcmdReadsglLo, cacheDcmdNegateLo, cacheDcmdReadmiss,
    cacheDcmdWritemiss, cacheDcmdWritesglFa, cacheDcmdWritesglSl]

/-- A single read is completed two clocks after the memory has answered it. -/
theorem readsgl_data (delivered : run.Delivered) {b0d : BitVec 65}
    (h : run.completion t = some b0d)
    (command : b0dCmd b0d = cacheDcmdReadsglNm ∨ b0dCmd b0d = cacheDcmdReadsglLo) :
    ∃ s, t = s + 2 ∧ run.ReturnedSgl s b0d := by
  rw [completion] at h
  split_ifs at h with completes
  obtain rfl := Option.some.inj h
  have answering := answering0_of_completes (delivered t) (holds_mode delivered t) completes command
  have holds := holds_mode delivered t
  have returns := returns_mode delivered t
  rw [answering] at holds returns
  obtain ⟨-, -, -, -, ⟨hopen, -⟩⟩ := holds
  have same := ((delivered t).lines (.inl hopen)).2
  rw [same] at command ⊢
  exact returns command

/-- A line is read for the open command. -/
structure ReadsLine (run : MclRun) (t : ℕ) (b0d : BitVec 65) : Prop where
  pending : run.pending t = some b0d
  fills : run.Fills t
  statemcl : (run.state t).statemcl = .rfill ∨ (run.state t).statemcl = .wfill
  command : b0dCmd b0d = cacheDcmdReadmiss ∨ b0dCmd b0d = cacheDcmdWritemiss
  ryWe1 : b0dCmd b0d = cacheDcmdReadmiss → (run.state t).ryWe1 = 0xf

theorem pending_of_open {p : BitVec 65 → Prop} (h : run.Open t p) :
    run.pending t = some (run.port t).payload := by
  rw [pending, if_pos h.isOpen]

theorem readsLine_of_state (delivered : run.Delivered)
    (h : (run.state t).statemcl = .rfill ∨ (run.state t).statemcl = .wfill) :
    run.ReadsLine t (run.port t).payload := by
  have holds := holds_mode delivered t
  cases hm : run.mode t with
  | filling =>
    rw [hm] at holds
    obtain ⟨-, -, fills, we, hopen⟩ := holds
    exact ⟨pending_of_open hopen, fills, h, .inl hopen.command, fun _ => we⟩
  | missFilling =>
    rw [hm] at holds
    obtain ⟨-, -, fills, hopen⟩ := holds
    refine ⟨pending_of_open hopen, fills, h, .inr hopen.command, fun hc => ?_⟩
    rw [hopen.command] at hc
    exact absurd hc (by decide)
  | _ => 
    rw [hm] at holds
    exfalso
    grind [Holds, cases Rests]

theorem transaction_eq_read {a : BitVec 28} (h : run.transaction t = some (.read a)) :
    (run.state t).men = true ∧ (run.state t).mwr = false ∧ (run.clk t).ma.ack = true ∧
      (run.state t).ma0 = a := by
  rw [transaction] at h
  split_ifs at h with asked write
  · simp at h
  · rw [DcacheMcl.my, Bool.and_eq_true] at asked
    exact ⟨asked.1, Bool.eq_false_of_not_eq_true write, asked.2,
      Transaction.read.inj (Option.some.inj h)⟩

/-- The reads for a miss are those of its line. -/
theorem readsLine_of_transaction (delivered : run.Delivered) {b0d : BitVec 65} {a : BitVec 28}
    (pending : run.pending t = some b0d)
    (command : b0dCmd b0d = cacheDcmdReadmiss ∨ b0dCmd b0d = cacheDcmdWritemiss)
    (h : run.transaction t = some (.read a)) : run.ReadsLine t b0d := by
  have payload := (pending_eq_some pending).2
  obtain ⟨men, mwr, -, -⟩ := transaction_eq_read h
  have state : (run.state t).statemcl = .rfill ∨ (run.state t).statemcl = .wfill := by
    have holds := holds_mode delivered t
    cases hm : run.mode t <;> grind [Holds, cases Rests, cases Open, cases Buffers,
      cacheDcmdReadmiss, cacheDcmdWritemiss, cacheDcmdReadsglNm, cacheDcmdReadsglLo]
  exact payload ▸ readsLine_of_state delivered state

/-- The address of the word that a miss waits for. -/
def criticalWord (b0d : BitVec 65) : BitVec 28 :=
  DcacheMcl.withWord (b0dAddr b0d) (toCacheWord (b0dAddr b0d))

theorem ReadsLine.ma0_eq_iff {b0d : BitVec 65} (reads : run.ReadsLine t b0d) :
    (run.state t).ma0 = criticalWord b0d ↔ toCacheWord (run.state t).ma0 = (run.state t).reqw := by
  have payload := (pending_eq_some reads.pending).2
  have ma0 := reads.fills.ma0
  rw [reads.fills.reqw, payload]
  rw [payload] at ma0
  constructor
  · intro h
    rw [h, criticalWord, DcacheMcl.toCacheWord_withWord]
  · intro h
    rw [ma0, h, criticalWord]

/-- The critical word of a miss is on its line in the clock after the memory has answered. -/
theorem b2enr_iff (delivered : run.Delivered) :
    (DcacheMcl.mtoc (run.state (t + 1)) (run.clk (t + 1))).b2enr = true ↔
      ∃ b0d, run.pending t = some b0d ∧
        (b0dCmd b0d = cacheDcmdReadmiss ∨ b0dCmd b0d = cacheDcmdWritemiss) ∧
        run.transaction t = some (.read (criticalWord b0d)) := by
  have ackR := (delivered t).ackR
  rw [DcacheMcl.mtoc, state_succ, DcacheMcl.step]
  simp only [DcacheMcl.b2en, ackR, Bool.and_eq_true, Bool.or_eq_true, beq_iff_eq]
  constructor
  · rintro ⟨⟨⟨men, ack⟩, state⟩, word⟩
    have reads := readsLine_of_state delivered state
    refine ⟨_, reads.pending, reads.command, ?_⟩
    rw [transaction_read men reads.fills.mwr ack, reads.ma0_eq_iff.mpr word]
  · rintro ⟨b0d, pending, command, transaction⟩
    have reads := readsLine_of_transaction delivered pending command transaction
    obtain ⟨men, -, ack, ma0⟩ := transaction_eq_read transaction
    exact ⟨⟨⟨men, ack⟩, reads.statemcl⟩, reads.ma0_eq_iff.mp ma0⟩

theorem b2dCfil_of_b2enr
    (h : (DcacheMcl.mtoc (run.state (t + 1)) (run.clk (t + 1))).b2enr = true) :
    (DcacheMcl.mtoc (run.state (t + 1)) (run.clk (t + 1))).b2dCfil = (run.clk t).ma.d := by
  rw [DcacheMcl.mtoc, state_succ, DcacheMcl.step] at h ⊢
  exact if_pos h

/-- The words of a line that is read go to the data RAM. -/
theorem readmiss_data (delivered : run.Delivered) {b0d : BitVec 65} {a : BitVec 28}
    (pending : run.pending t = some b0d) (command : b0dCmd b0d = cacheDcmdReadmiss)
    (h : run.transaction t = some (.read a)) :
    DcacheMcl.ryMcl (run.state t) (run.clk t) =
      { a1 := a.extractLsb 12 2, en1 := true, wr1 := true, we1 := 0xf, d1 := (run.clk t).ma.d } := by
  have reads := readsLine_of_transaction delivered pending (.inl command) h
  obtain ⟨men, mwr, ack, ma0⟩ := transaction_eq_read h
  simp [DcacheMcl.ryMcl, (delivered t).ackR, men, mwr, ack, ma0, reads.ryWe1 command]

end MclRun

end JCore
