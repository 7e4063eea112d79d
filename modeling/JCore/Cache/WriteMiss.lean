import JCore.Cache.DcacheRam
import JCore.Cache.Masks
import JCore.Cache.Service

/-!
# Stores that miss

A store that misses in a run of the data cache with its data RAM, at any clocks and any
timing of the memory. When it is completed its line is in the data RAM, with the bytes of the
store.

## Main definitions

* `DcacheRun.dataRam`: the data RAM in a run of the data cache
* `DcacheRun.Locks`, `DcacheRun.ReadsLine`: the CPU and the memory
* `DcacheRun.Merges`: what is in the data RAM while a store misses

## Main results

* `DcacheRun.merges`: it holds until the CPU side finds the completion
* `DcacheRun.writemiss_merges`: the line when the store is completed
-/

namespace JCore

namespace DcacheMcl

theorem extractLsb_withWord (a : BitVec 28) (w : BitVec 3) :
    (withWord a w).extractLsb 12 2 = (toCacheIndex a ++ w : BitVec 11) := by
  apply BitVec.eq_of_getLsbD_eq
  intro k hk
  simp only [withWord, toCacheIndex, toCacheLine, BitVec.getLsbD_extractLsb, BitVec.getLsbD_append]
  grind

end DcacheMcl

namespace DcacheRun

section Definitions

variable (run : DcacheRun) {ram2 : DataRam2rw} (start : DcacheRam ram2)

/-- What the two sides want of the RAMs. -/
def ryCcl (t : ℕ) : DcacheRamcclI :=
  DcacheCcl.ryCcl (run.state t).ccl (Dcache.cclI (run.state t) (run.clk t))

def ryMcl (t : ℕ) : DcacheRammclI :=
  DcacheMcl.ryMcl (run.state t).mcl (Dcache.mclI (run.state t) (run.clk t))

/-- The data RAM. -/
def dataRam : ℕ → DcacheRam ram2
  | 0 => start
  | t + 1 =>
    (dataRam t).step (if run.rises125 t then some (run.ryCcl t) else none)
      (if run.rises200 t then some (run.ryMcl t) else none)

/-- Byte `k` of word `x` of the line of an address. -/
def byteAt (a : BitVec 28) (x : BitVec 3) (k t : ℕ) : BitVec 8 :=
  byteOf ((run.dataRam start t).dataCell (toCacheIndex a ++ x)) k

/-- The access acknowledged last was a locked read. -/
def lockedRead : ℕ → Bool
  | 0 => false
  | t + 1 =>
    let y := DcacheCcl.y (run.state t).ccl (Dcache.cclI (run.state t) (run.clk t))
    if run.rises125 t && (run.clk t).a.en && y.ack then (run.clk t).lock && !(run.clk t).a.wr
    else lockedRead t

/-- A locked write comes after its locked read. -/
def Locks : Prop :=
  ∀ t, run.rises125 t = true → (run.clk t).a.en = true → (run.clk t).a.wr = true →
    (run.clk t).lock = true → run.lockedRead t = true

/-- What the memory side asks of the memory. -/
def my (t : ℕ) : MemO := DcacheMcl.my (run.state t).mcl (Dcache.mclI (run.state t) (run.clk t))

/-- The memory answers a read of the line with its word. -/
def ReadsLine (l : BitVec 23) (line : BitVec 3 → BitVec 32) (t : ℕ) : Prop :=
  run.rises200 t = true → (run.my t).en = true → (run.my t).wr = false →
    (run.clk t).ma.ack = true → toCacheLine (run.my t).a = l →
      (run.clk t).ma.d = line (toCacheWord (run.my t).a)

/-- A word of the line is there. -/
def Fetched (t : ℕ) (x : BitVec 3) : Prop :=
  run.phase t = .settled ∨ run.phase t = .serving ∧
    run.mcl.Fetched (run.mclTime t) x (run.mcl.mode (run.mclTime t))

/-- A word of the line comes from the memory. -/
def Arrives (t : ℕ) (x : BitVec 3) : Prop :=
  run.rises200 t = true ∧ run.mcl.mode (run.mclTime t) = .missFilling ∧
    (run.clk t).ma.ack = true ∧ x = toCacheWord (run.state t).mcl.ma0

/-- The command of a store that misses is under way. -/
structure Busy (b0d : BitVec 65) (t : ℕ) : Prop where
  state : (run.state t).ccl.state = .wmiss1 ∨ (run.state t).ccl.state = .wmiss2
  onm : (run.state t).ccl.dcOnm = true
  payload : (run.state t).thisbc.d0v = b0d

/-- Meanwhile the data RAM has the bytes of the store, and the words of the line that are
there apart from them. -/
structure Merges (b0d : BitVec 65) (line : BitVec 3 → BitVec 32) (t : ℕ) : Prop where
  store : ∀ k < 4, (b0dWe b0d).getLsbD k = true →
    run.byteAt start (b0dAddr b0d) (toCacheWord (b0dAddr b0d)) k t = byteOf (b0dData b0d) k
  arrived : ∀ x, run.Fetched t x → ∀ k < 4,
    (x = toCacheWord (b0dAddr b0d) → (b0dWe b0d).getLsbD k = false) →
      run.byteAt start (b0dAddr b0d) x k t = byteOf (line x) k

end Definitions

variable {run : DcacheRun} {ram2 : DataRam2rw} {start : DcacheRam ram2} {t : ℕ}

/-! ### Locked accesses -/

theorem lockedRead_of_sb (t : ℕ)
    (h : (run.state t).ccl.state = .sb1 ∨ (run.state t).ccl.state = .sb2) :
    run.lockedRead t = false := by
  induction t with
  | zero => rfl
  | succ t ih =>
    rw [ccl_succ] at h
    rw [lockedRead]
    cases rises : run.rises125 t with
    | false =>
      rw [rises] at h
      exact ih h
    | true =>
      rw [rises, if_pos rfl] at h
      cases acked : (run.clk t).a.en &&
          (DcacheCcl.y (run.state t).ccl (Dcache.cclI (run.state t) (run.clk t))).ack with
      | false =>
        rcases DcacheCcl.entered_of_sb h with before | ⟨en, ack, -⟩
        · simp only [Bool.true_and, acked]
          exact ih before
        · have en : (run.clk t).a.en = true := en
          rw [en, ack] at acked
          cases acked
      | true =>
        obtain ⟨en, ack⟩ := Bool.and_eq_true_iff.mp acked
        have lock : (run.clk t).lock = false := by
          rcases DcacheCcl.entered_of_sb h with before | ⟨-, -, lock⟩
          · exact DcacheCcl.unlocked_of_sb before en ack
          · exact lock
        simp [en, ack, lock]

/-- A store that misses is not locked. -/
theorem unlocked_of_wmiss1 (locks : run.Locks) (rises : run.rises125 t = true)
    (h : DcacheCcl.nextState (run.state t).ccl (Dcache.cclI (run.state t) (run.clk t)) = .wmiss1) :
    (run.clk t).lock = false := by
  obtain ⟨-, en, wr, ⟨-, lock⟩ | state⟩ := DcacheCcl.nextState_eq_wmiss1 h
  · exact lock
  · refine Bool.eq_false_of_not_eq_true fun lock => ?_
    have read := locks t rises en wr lock
    rw [lockedRead_of_sb t (.inr state)] at read
    cases read

/-! ### The data RAM -/

section Window

variable {b0d : BitVec 65} {line : BitVec 3 → BitVec 32}

/-- The command of the memory side is that of the store. -/
theorem command_of_busy (steady : run.Steady t) (busy : run.Busy b0d t)
    (command : b0dCmd b0d = cacheDcmdWritemiss)
    (opens : (run.mcl.mode (run.mclTime t)).opens = true) :
    (run.mcl.port (run.mclTime t)).payload = b0d ∧
      b0dCmd (run.mcl.port (run.mclTime t)).payload = cacheDcmdWritemiss := by
  have isOpen : (run.port t).isOpen = true := by
    rw [port, MclRun.isOpen_of_holds steady.holds, opens]
  have payload := (steady.payload isOpen).trans busy.payload
  rw [port] at payload
  exact ⟨payload, payload ▸ command⟩

theorem masked (acknowledges : run.Acknowledges) (t : ℕ) :
    run.mcl.Masked (run.mclTime t) (run.mcl.mode (run.mclTime t)) := by
  induction t with
  | zero => exact fun h => by cases h
  | succ t ih =>
    rw [mclTime_succ]
    split_ifs with rises
    · obtain ⟨crosses, steady⟩ := run.steady acknowledges t
      exact MclRun.masked_succ (delivers acknowledges steady crosses rises) steady.holds ih
    · exact ih

/-- At an instant at which a word arrives. -/
theorem ryMcl_of_arrives (acknowledges : run.Acknowledges) (busy : run.Busy b0d t)
    (command : b0dCmd b0d = cacheDcmdWritemiss) {x : BitVec 3} (arrives : run.Arrives t x) :
    run.ryMcl t =
      { a1 := toCacheIndex (b0dAddr b0d) ++ x, en1 := true, wr1 := true
        we1 := if x = toCacheWord (b0dAddr b0d) then ~~~ b0dWe b0d else 0xf
        d1 := (run.clk t).ma.d } ∧
    (run.my t).en = true ∧ (run.my t).wr = false ∧
      (run.my t).a = DcacheMcl.withWord (b0dAddr b0d) x := by
  obtain ⟨rises, mode, ack, rfl⟩ := arrives
  obtain ⟨crosses, steady⟩ := run.steady acknowledges t
  have delivers := delivers acknowledges steady crosses rises
  have holds := steady.holds
  rw [mode] at holds
  have payload := (command_of_busy steady busy command (by rw [mode]; rfl)).1
  have writes := MclRun.ryMcl_of_missFilling delivers holds (masked acknowledges t mode)
  obtain ⟨-, -, fills, -⟩ := holds
  have ma0 := fills.ma0
  rw [state_mcl, mcl_clk rises, payload] at writes
  rw [state_mcl, payload] at ma0
  have men : (run.state t).mcl.men = true := by
    rw [← state_mcl]
    exact fills.men
  have mwr : (run.state t).mcl.mwr = false := by
    rw [← state_mcl]
    exact fills.mwr
  refine ⟨?_, men, mwr, ma0⟩
  rw [ryMcl, writes]
  have on : (Dcache.mclI (run.state t) (run.clk t)).ma.ack = true := ack
  rw [on, if_pos rfl]
  congr 1
  conv_lhs => rw [ma0]
  exact DcacheMcl.extractLsb_withWord _ _

/-- Without a word that arrives the memory side writes nothing. -/
theorem en1_of_not_arrives (acknowledges : run.Acknowledges) (busy : run.Busy b0d t)
    (command : b0dCmd b0d = cacheDcmdWritemiss) (rises : run.rises200 t = true)
    (none : ∀ x, ¬ run.Arrives t x) : (run.ryMcl t).en1 = false := by
  obtain ⟨crosses, steady⟩ := run.steady acknowledges t
  have delivers := delivers acknowledges steady crosses rises
  have holds := steady.holds
  rw [ryMcl, ← mcl_clk rises, ← state_mcl]
  by_cases mode : run.mcl.mode (run.mclTime t) = .missFilling
  · have ack : (run.clk t).ma.ack = false :=
      Bool.eq_false_of_not_eq_true fun ack => none _ ⟨rises, mode, ack, rfl⟩
    have on : (run.mcl.clk (run.mclTime t)).ma.ack = false := by
      rw [mcl_clk rises]
      exact ack
    rw [mode] at holds
    rw [MclRun.ryMcl_of_missFilling delivers holds (masked acknowledges t mode), on]
  · exact MclRun.en1_of_holds holds
      (fun opens => (command_of_busy steady busy command opens).2) mode

theorem not_writes0 (busy : run.Busy b0d t) {a : BitVec 11} {k : ℕ} :
    ∀ ry ∈ (if run.rises125 t then some (run.ryCcl t) else none), ¬ DcacheRam.Writes0 ry a k := by
  rintro ry hry ⟨-, wr, -⟩
  split_ifs at hry with rises
  · obtain rfl := Option.some.inj hry
    have off : (run.ryCcl t).wr0 = false := (DcacheCcl.wmiss_busy busy.state busy.onm).1
    rw [off] at wr
    cases wr
  · cases hry

variable (lawful : ram2.WritesBytes) (acknowledges : run.Acknowledges)
  (command : b0dCmd b0d = cacheDcmdWritemiss)

include lawful acknowledges command

/-- A word that arrives, without the bytes of the store. -/
theorem byteAt_of_arrives (busy : run.Busy b0d t) {x : BitVec 3} {k : ℕ} (hk : k < 4)
    (arrives : run.Arrives t x)
    (other : x = toCacheWord (b0dAddr b0d) → (b0dWe b0d).getLsbD k = false) :
    run.byteAt start (b0dAddr b0d) x k (t + 1) = byteOf (run.clk t).ma.d k := by
  have writes := (ryMcl_of_arrives acknowledges busy command arrives).1
  rw [byteAt, dataRam, if_pos arrives.1, DcacheRam.byte_write1 lawful hk ?_ (not_writes0 busy), writes]
  rw [writes]
  refine ⟨rfl, rfl, rfl, ?_⟩
  dsimp only
  split_ifs with word
  · rw [BitVec.getLsbD_not, other word]
    simp [hk]
  · have lanes : k = 0 ∨ k = 1 ∨ k = 2 ∨ k = 3 := by omega
    rcases lanes with rfl | rfl | rfl | rfl <;> rfl

/-- The other bytes stay. -/
theorem byteAt_keep (busy : run.Busy b0d t) {x : BitVec 3} {k : ℕ} (hk : k < 4)
    (keep : run.Arrives t x → x = toCacheWord (b0dAddr b0d) ∧ (b0dWe b0d).getLsbD k = true) :
    run.byteAt start (b0dAddr b0d) x k (t + 1) = run.byteAt start (b0dAddr b0d) x k t := by
  rw [byteAt, byteAt, dataRam, DcacheRam.byte_keep lawful hk (not_writes0 busy)]
  intro rm hrm writes
  split_ifs at hrm with rises
  · obtain rfl := Option.some.inj hrm
    by_cases arrives : ∃ y, run.Arrives t y
    · obtain ⟨y, arrives⟩ := arrives
      rw [(ryMcl_of_arrives acknowledges busy command arrives).1] at writes
      obtain ⟨-, -, address, we⟩ := writes
      obtain rfl := (BitVec.append_right_inj _).mp address
      obtain ⟨word, on⟩ := keep arrives
      rw [if_pos word, BitVec.getLsbD_not, on] at we
      simp at we
    · have off := en1_of_not_arrives acknowledges busy command rises fun y h => arrives ⟨y, h⟩
      rw [writes.1] at off
      cases off
  · cases hrm

omit lawful acknowledges command in
theorem request_none_of_busy (busy : run.Busy b0d t) : (run.link.clk t).request = none :=
  if_neg (Bool.eq_false_iff.mp (DcacheCcl.wmiss_busy busy.state busy.onm).2.1)

omit lawful acknowledges command in
/-- The command is under way until the CPU side finds its completion. -/
theorem busy_step (busy : run.Busy b0d t) (unheard : run.heard t = none) :
    run.Busy b0d (t + 1) := by
  have payload : (run.state (t + 1)).thisbc.d0v = b0d := by
    rw [d0v_step, request_none_of_busy busy, ← busy.payload]
    split_ifs <;> rfl
  obtain ⟨state, onm, -⟩ := busy
  cases rises : run.rises125 t with
  | false =>
    constructor
    · rw [ccl_succ, rises]
      exact state
    · rw [ccl_succ, rises]
      exact onm
    · exact payload
  | true =>
    have quiet : DcacheCcl.memTransAck (run.state t).ccl (Dcache.cclI (run.state t) (run.clk t)) =
        false := by
      by_contra found
      rw [Bool.not_eq_false] at found
      rw [heard] at unheard
      simp [rises, found] at unheard
    obtain ⟨next, stays⟩ := (DcacheCcl.wmiss_busy state onm).2.2 quiet
    constructor
    · rw [ccl_succ, rises]
      exact .inr next
    · rw [ccl_succ, rises]
      exact stays
    · exact payload

omit lawful in
/-- The lines show the store where it is found and while it is served. -/
theorem completed_of_busy (busy : run.Busy b0d t) (rises : run.rises200 t = true)
    (shown : run.phase t = .serving ∨ Link.seen (run.link.state t) = true)
    (complete : (run.link.clk t).complete = true) :
    run.mcl.mode (run.mclTime t) = .answering0 := by
  obtain ⟨crosses, steady⟩ := run.steady acknowledges t
  have delivers := delivers acknowledges steady crosses rises
  have stable : (run.state t).thisbm.d0bStable = (run.state t).thisbc.d0v := by
    rcases shown with serving | seen
    · rw [serving, state_link] at crosses
      exact crosses.2.2.2.2.2.2.2.2
    · have lines := (LinkRun.phase_of_seen crosses seen).2.1
      rw [state_link] at lines
      exact lines
  have lines : (run.mcl.clk (run.mclTime t)).ctom.b0d = b0d := by
    rw [mcl_clk rises]
    exact stable.trans busy.payload
  rw [← completes_mcl rises] at complete
  exact MclRun.answering0_of_writemiss delivers steady.holds complete (lines ▸ command)

omit lawful in
/-- A word that is there was there, or arrives. -/
theorem fetched_step (busy : run.Busy b0d t) (next : run.Busy b0d (t + 1)) {x : BitVec 3}
    (fetched : run.Fetched (t + 1) x) : run.Fetched t x ∨ run.Arrives t x := by
  obtain ⟨crosses, steady⟩ := run.steady acknowledges t
  have steady' := (run.steady acknowledges (t + 1)).2
  have none := request_none_of_busy busy
  cases rises : run.rises200 t with
  | false =>
    have time : run.mclTime (t + 1) = run.mclTime t := by
      rw [mclTime_succ, rises]
      rfl
    left
    rw [Fetched, time, phase_step, rises, none] at fetched
    rw [Fetched]
    cases phase : run.phase t with
    | settled => exact .inl rfl
    | asking =>
      simp only [phase, Phase.next] at fetched
      split_ifs at fetched <;> simp at fetched
    | asked => simp [phase, Phase.next] at fetched
    | serving => simpa [phase, Phase.next] using fetched
  | true =>
    have delivers := delivers acknowledges steady crosses rises
    have time : run.mclTime (t + 1) = run.mclTime t + 1 := by
      rw [mclTime_succ, rises]
      rfl
    have opens : (run.mcl.mode (run.mclTime t)).opens = (run.phase t == .serving) := by
      rw [← MclRun.isOpen_of_holds steady.holds]
      exact steady.opens
    -- what the memory side has in the next clock
    have served : run.phase (t + 1) = .serving → run.mcl.Fetched (run.mclTime t) x
        (run.mcl.mode (run.mclTime t)) ∨ run.Arrives t x := by
      intro serving
      rcases fetched with settled | ⟨-, fetched⟩
      · rw [serving] at settled
        cases settled
      have isOpen : (run.port (t + 1)).isOpen = true := by
        rw [steady'.opens, serving]
        rfl
      have payload := (steady'.payload isOpen).trans next.payload
      rw [port, time] at payload
      rw [time] at fetched
      rcases MclRun.fetched_of_succ delivers steady.holds (payload ▸ command) fetched with
        before | ⟨mode, ack, word⟩
      · exact .inl before
      · rw [mcl_clk rises] at ack
        rw [state_mcl] at word
        exact .inr ⟨rises, mode, ack, word⟩
    cases phase : run.phase t with
    | settled => exact .inl (.inl phase)
    | asking =>
      rw [Fetched, phase_step, phase, Phase.next] at fetched
      split_ifs at fetched <;> simp at fetched
    | asked =>
      rw [phase] at opens
      by_cases serving : run.phase (t + 1) = .serving
      · refine (served serving).imp_left fun before => ?_
        cases mode : run.mcl.mode (run.mclTime t) <;> rw [mode] at before opens <;>
          simp [MclRun.Fetched, MclRun.Mode.opens] at before opens
      · have settled : run.phase (t + 1) = .settled := fetched.resolve_right fun h => serving h.1
        rw [phase_step, phase, rises, Phase.next] at settled
        split_ifs at settled with found complete
        rw [completed_of_busy acknowledges command busy rises (.inr found) complete] at opens
        cases opens
    | serving =>
      by_cases serving : run.phase (t + 1) = .serving
      · exact (served serving).imp_left fun before => .inr ⟨phase, before⟩
      · have settled : run.phase (t + 1) = .settled := fetched.resolve_right fun h => serving h.1
        rw [phase_step, phase, rises, Phase.next] at settled
        split_ifs at settled with complete
        refine .inl (.inr ⟨phase, ?_⟩)
        rw [completed_of_busy acknowledges command busy rises (.inl phase) complete]
        trivial

theorem merges_step (busy : run.Busy b0d t) (next : run.Busy b0d (t + 1))
    (reads : run.ReadsLine (toCacheLine (b0dAddr b0d)) line t)
    (merges : run.Merges start b0d line t) : run.Merges start b0d line (t + 1) where
  store k hk we := by
    rw [byteAt_keep lawful acknowledges command busy hk fun _ => ⟨rfl, we⟩]
    exact merges.store k hk we
  arrived x fetched k hk other := by
    by_cases arrives : run.Arrives t x
    · obtain ⟨-, en, wr, address⟩ := ryMcl_of_arrives acknowledges busy command arrives
      have data := reads arrives.1 en wr arrives.2.2.1
      rw [address, DcacheMcl.toCacheLine_withWord, DcacheMcl.toCacheWord_withWord] at data
      rw [byteAt_of_arrives lawful acknowledges command busy hk arrives other, data rfl]
    · rw [byteAt_keep lawful acknowledges command busy hk fun h => absurd h arrives]
      have before := (fetched_step acknowledges command busy next fetched).resolve_right arrives
      exact merges.arrived x before k hk other

omit lawful in
/-- With the completion the whole line is there. -/
theorem settled_of_completed (busy : run.Busy b0d t) (completed : run.completed t ≠ none) :
    (∀ x, run.Fetched t x) ∧ run.phase (t + 1) = .settled := by
  obtain ⟨crosses, steady⟩ := run.steady acknowledges t
  have orderly := orderly_of_steady acknowledges steady crosses
  have none := request_none_of_busy busy
  have done : run.rises200 t = true ∧ (run.link.clk t).complete = true := by
    by_contra off
    rw [← Bool.and_eq_true] at off
    exact completed (if_neg off)
  obtain ⟨rises, complete⟩ := done
  have opens : (run.mcl.mode (run.mclTime t)).opens = (run.phase t == .serving) := by
    rw [← MclRun.isOpen_of_holds steady.holds]
    exact steady.opens
  by_cases serving : run.phase t = .serving
  · have mode := completed_of_busy acknowledges command busy rises (.inl serving) complete
    refine ⟨fun x => .inr ⟨serving, ?_⟩, ?_⟩
    · rw [mode]
      trivial
    · rw [phase_step, serving, rises, complete]
      rfl
  · rcases orderly.serve serving rises with seen | ⟨off, -⟩
    · rw [completed_of_busy acknowledges command busy rises (.inr seen) complete] at opens
      exact absurd (beq_iff_eq.mp opens.symm) serving
    · rw [complete] at off
      cases off

omit command lawful acknowledges in
theorem settled_keep (busy : run.Busy b0d t) (settled : run.phase t = .settled) :
    run.phase (t + 1) = .settled := by
  rw [phase_step, settled, request_none_of_busy busy]
  simp [Phase.next]

end Window

/-! ### The store -/

section Store

variable {b0d : BitVec 65} {line : BitVec 3 → BitVec 32} {s : ℕ}

theorem toCacheWord_extractLsb (a : BitVec 32) :
    toCacheWord (a.extractLsb 27 0) = toCacheWord a := by
  apply BitVec.eq_of_getLsbD_eq
  intro k hk
  simp only [toCacheWord, BitVec.getLsbD_extractLsb]
  have hlt : 2 + k < 28 := by omega
  simp [hlt]

/-- The request of a store that misses. -/
theorem wmiss1_of_requested (requested : run.requested s = some b0d)
    (command : b0dCmd b0d = cacheDcmdWritemiss) : run.rises125 s = true ∧
      DcacheCcl.nextState (run.state s).ccl (Dcache.cclI (run.state s) (run.clk s)) = .wmiss1 ∧
        b0d = cacheDcmdWritemiss ++ DcacheCcl.sz (Dcache.cclI (run.state s) (run.clk s)) ++
          (run.clk s).a.a.extractLsb 27 0 ++ (run.clk s).a.d := by
  rw [DcacheRun.requested] at requested
  split_ifs at requested with asks
  obtain ⟨rises, en⟩ := Bool.and_eq_true_iff.mp asks
  obtain rfl := Option.some.inj requested
  have cmd : DcacheCcl.ctomCmd (run.state s).ccl (Dcache.cclI (run.state s) (run.clk s)) =
      cacheDcmdWritemiss := b0dCmd_ctomB0d.symm.trans command
  refine ⟨rises, DcacheCcl.wmiss1_of_command en cmd, ?_⟩
  have fields := ctomB0d_of_store (.inl cmd)
  rw [cmd] at fields
  exact fields

/-- The command that goes out, with the bytes of the store in the data RAM. -/
theorem merges_start (lawful : ram2.WritesBytes) (acknowledges : run.Acknowledges)
    (locks : run.Locks) (requested : run.requested s = some b0d)
    (command : b0dCmd b0d = cacheDcmdWritemiss) (we : b0dWe b0d = (run.clk s).a.we) :
    run.Busy b0d (s + 1) ∧ run.Merges start b0d line (s + 1) := by
  obtain ⟨crosses, steady⟩ := run.steady acknowledges s
  -- the command goes out with nothing under way
  have request : (run.link.clk s).request = some b0d ∧ run.rises125 s = true := by
    rw [← requested_link, LinkRun.requested, rises_link] at requested
    split_ifs at requested with rises
    exact ⟨requested, rises⟩
  have settled : run.phase s = .settled :=
    ((orderly_of_steady acknowledges steady crosses).ask
      ((rises_link s).trans request.2) (by rw [request.1]; simp)).1
  obtain ⟨rises, next, fields⟩ := wmiss1_of_requested requested command
  have address : b0dAddr b0d = (run.clk s).a.a.extractLsb 27 0 := by
    rw [fields, b0dAddr_append]
  have data : b0dData b0d = (run.clk s).a.d := by
    rw [fields, b0dData_append]
  obtain ⟨onm, -⟩ := DcacheCcl.nextState_eq_wmiss1 next
  have lock := unlocked_of_wmiss1 locks rises next
  -- the CPU side writes the bytes in the same clock, and the memory side nothing
  refine ⟨⟨?_, ?_, ?_⟩, ⟨?_, ?_⟩⟩
  · rw [ccl_succ, rises]
    exact .inl next
  · rw [ccl_succ, rises]
    have stays : DcacheCcl.dcOnm (run.state s).ccl (Dcache.cclI (run.state s) (run.clk s)) =
        true := by
      simp [DcacheCcl.dcOnm, next, onm]
    exact stays
  · rw [d0v_step, rises, request.1]
    rfl
  · intro k hk on
    obtain ⟨en0, wr0, a0, we0, d0⟩ := DcacheCcl.ryCcl_of_wmiss1 next lock
    rw [byteAt, dataRam, if_pos rises, DcacheRam.byte_write0 lawful hk, data]
    · exact congrArg (byteOf · k) d0
    · refine ⟨en0, wr0, ?_, ?_⟩
      · rw [address, toCacheIndex_extractLsb, toCacheWord_extractLsb]
        exact a0
      · rw [we] at on
        exact (congrArg (BitVec.getLsbD · k) we0).trans on
    · intro rm hrm writes
      split_ifs at hrm with rises200
      · obtain rfl := Option.some.inj hrm
        have closed : (run.mcl.mode (run.mclTime s)).opens = false := by
          rw [← MclRun.isOpen_of_holds steady.holds]
          exact steady.opens.trans (by rw [settled]; rfl)
        have off : (run.ryMcl s).en1 = false := by
          rw [ryMcl, ← mcl_clk rises200, ← state_mcl]
          refine MclRun.en1_of_holds steady.holds (fun opens => ?_) fun filling => ?_
          · rw [closed] at opens
            cases opens
          · rw [filling] at closed
            cases closed
        rw [writes.1] at off
        cases off
      · cases hrm
  · intro x fetched
    have asking : run.phase (s + 1) = .asking := by
      rw [phase_step, settled, rises, request.1]
      rfl
    rw [Fetched, asking] at fetched
    simp at fetched

/-- In every clock until the CPU side finds the completion. -/
theorem merges (lawful : ram2.WritesBytes) (acknowledges : run.Acknowledges)
    (locks : run.Locks) (requested : run.requested s = some b0d)
    (command : b0dCmd b0d = cacheDcmdWritemiss) (we : b0dWe b0d = (run.clk s).a.we)
    (later : s + 1 ≤ t)
    (reads : ∀ u, s < u → u < t → run.ReadsLine (toCacheLine (b0dAddr b0d)) line u)
    (unheard : ∀ u, s < u → u < t → run.heard u = none) :
    run.Busy b0d t ∧ run.Merges start b0d line t := by
  induction t, later using Nat.le_induction with
  | base => exact merges_start lawful acknowledges locks requested command we
  | succ t le ih =>
    obtain ⟨busy, merges⟩ := ih (fun u hu hlt => reads u hu (by omega))
      fun u hu hlt => unheard u hu (by omega)
    have next := busy_step busy (unheard t (by omega) (by omega))
    exact ⟨next, merges_step lawful acknowledges command busy next (reads t (by omega) (by omega))
      merges⟩

end Store

/-- When a store that misses is completed the data RAM holds its line, with the bytes of the
store. It holds it until the CPU side finds the completion. -/
theorem writemiss_merges {line : BitVec 3 → BitVec 32} {s c : ℕ} {b0d : BitVec 65}
    (lawful : ram2.WritesBytes) (acknowledges : run.Acknowledges) (locks : run.Locks)
    (requested : run.requested s = some b0d) (command : b0dCmd b0d = cacheDcmdWritemiss)
    (cpu : ∃ mem coproc addr data, (run.clk s).a = Datapath.toDataO mem coproc addr data)
    (reads : ∀ u, s < u → u < t → run.ReadsLine (toCacheLine (run.clk s).a.a) line u)
    (unheard : ∀ u, s < u → u < t → run.heard u = none)
    (later : s < c) (le : c ≤ t) (completed : run.completed c ≠ none) (x : BitVec 3) :
    (run.dataRam start t).dataCell (toCacheIndex (run.clk s).a.a ++ x) =
      if x = toCacheWord (run.clk s).a.a then
        mergeBytes (run.clk s).a.we (run.clk s).a.d (line x)
      else line x := by
  obtain ⟨rises, next, fields⟩ := wmiss1_of_requested requested command
  obtain ⟨-, -, wr, -⟩ := DcacheCcl.nextState_eq_wmiss1 next
  obtain ⟨mem, coproc, addr, data, cpu⟩ := cpu
  have we : b0dWe b0d = (run.clk s).a.we := by
    rw [fields]
    exact b0dWe_sz (i := Dcache.cclI (run.state s) (run.clk s)) cpu wr _ _
  have address : b0dAddr b0d = (run.clk s).a.a.extractLsb 27 0 := by
    rw [fields, b0dAddr_append]
  have datum : b0dData b0d = (run.clk s).a.d := by
    rw [fields, b0dData_append]
  have reads' : ∀ u, s < u → u < t → run.ReadsLine (toCacheLine (b0dAddr b0d)) line u := by
    rw [address, toCacheLine_extractLsb]
    exact reads
  have window : ∀ u, s + 1 ≤ u → u ≤ t → run.Busy b0d u ∧ run.Merges start b0d line u :=
    fun u hu hle => merges lawful acknowledges locks requested command we hu
      (fun v hv hlt => reads' v hv (by omega)) fun v hv hlt => unheard v hv (by omega)
  -- nothing is under way from the completion on
  have fetched : ∀ x, run.Fetched t x := by
    obtain ⟨all, settled⟩ :=
      settled_of_completed acknowledges command (window c later le).1 completed
    rcases le.eq_or_lt with rfl | lt
    · exact all
    · have stays : ∀ u, c + 1 ≤ u → u ≤ t → run.phase u = .settled := by
        intro u hu
        induction u, hu using Nat.le_induction with
        | base => exact fun _ => settled
        | succ u hu ih =>
          exact fun hle => settled_keep (window u (by omega) (by omega)).1 (ih (by omega))
      exact fun x => .inl (stays t lt le_rfl)
  obtain ⟨store, arrived⟩ := (window t (by omega) le_rfl).2
  rw [we, datum, address] at store
  rw [we, address] at arrived
  simp only [byteAt, toCacheIndex_extractLsb, toCacheWord_extractLsb] at store arrived
  apply eq_of_byteOf_eq
  intro k hk
  split_ifs with word
  · rw [byteOf_mergeBytes _ _ _ hk]
    split_ifs with on
    · rw [word]
      exact store k hk on
    · exact arrived x (fetched x) k hk fun _ => Bool.eq_false_of_not_eq_true on
  · exact arrived x (fetched x) k hk fun h => absurd h word

/-- When the words of the line come, with waits between some of them; the store follows. -/
def beats : List (ℕ × BitVec 3) :=
  [(18, 3), (20, 4), (26, 5), (28, 6), (30, 7), (36, 0), (38, 1), (40, 2), (46, 3)]

/-- The words of the line. -/
def beatWord (x : BitVec 3) : BitVec 32 := 0x11111111 * x.setWidth 32

/-- A byte is stored at `0x10e`, in word 3 of its line. -/
def byteStore : CpuDataO :=
  Datapath.toDataO
    { issue := true, wr := true, lock := false, size := .byte, addrSel := .selXbus
      wdataSel := .selYbus }
    { cpuDataMux := .dbus, coprocCmd := .nop } 0x10e 0x5a

/-- Both clocks at every instant. -/
def missRun : DcacheRun where
  clk125 := false
  clk200 := false
  clk t :=
    { clk125 := true, clk200 := true, ra := { d0 := 0, tag0 := 0, tag1 := 0 }
      a := if t < 6 then nullDataO else byteStore
      lock := false, sa := { al := 0, en := false }, ctrl := { en := true, inv := false }
      ma :=
        { d := ((beats.lookup t).map beatWord).getD 0, ack := (beats.lookup t).isSome
          ackR := (beats.lookup t).isSome } }

/-- After the last beat nothing comes. -/
theorem acknowledges_of_beats {run : DcacheRun}
    (ackR : ∀ t, (run.clk t).ma.ackR = (run.clk t).ma.ack)
    (ack : ∀ t, (run.clk t).ma.ack = (beats.lookup t).isSome)
    (asked : ∀ t < 47, (run.clk t).ma.ack = true → (run.state t).mcl.men = true) :
    run.Acknowledges := by
  intro t _
  refine ⟨ackR t, fun acked => ?_⟩
  by_cases lt : t < 47
  · exact asked t lt acked
  · have late (n : ℕ) (h : n < 47) : (t == n) = false := beq_eq_false_iff_ne.mpr (by omega)
    simp [ack, beats, List.lookup_cons, late] at acked

theorem acknowledges_missRun : missRun.Acknowledges := by
  apply acknowledges_of_beats
  · exact fun _ => rfl
  · exact fun _ => rfl
  · decide +kernel

/-- A data RAM of zeros. -/
def blankRam : DcacheRam byteRam := ⟨(fun _ => 0, 0), (fun _ => 0, 0)⟩

/-- The line of that store. -/
theorem writemiss_merges_missRun :
    (missRun.dataRam blankRam 54).dataCell 0x43 = 0x33335a33 ∧
      (missRun.dataRam blankRam 54).dataCell 0x44 = 0x44444444 := by
  have locks : missRun.Locks := fun t _ _ _ lock => by cases lock
  have reads : ∀ u, 8 < u → u < 54 →
      missRun.ReadsLine (toCacheLine (missRun.clk 8).a.a) beatWord u := by
    have words : ∀ u < 54, (missRun.clk u).ma.ack = true → (missRun.my u).wr = false →
        (missRun.clk u).ma.d = beatWord (toCacheWord (missRun.my u).a) := by
      decide +kernel
    exact fun u _ hlt _ _ wr ack _ => words u hlt ack wr
  have unheard : ∀ u, 8 < u → u < 54 → missRun.heard u = none := by
    have quiet : ∀ u < 54, 8 < u → missRun.heard u = none := by decide +kernel
    exact fun u hu hlt => quiet u hlt hu
  have requested : missRun.requested 8 =
      some (cacheDcmdWritemiss ++ 0b00#2 ++ 0x000010e#28 ++ 0x5a5a5a5a#32) := by
    decide +kernel
  have completed : missRun.completed 48 ≠ none := by decide +kernel
  have cpu : ∃ mem coproc addr data,
      (missRun.clk 8).a = Datapath.toDataO mem coproc addr data :=
    ⟨_, _, _, _, show (missRun.clk 8).a = byteStore by decide⟩
  have merges (x : BitVec 3) : (missRun.dataRam blankRam 54).dataCell _ = _ :=
    writemiss_merges byteRam_writesBytes acknowledges_missRun locks requested (by decide)
      cpu reads unheard (by decide) (by decide) completed x
  exact ⟨(merges 3).trans (by decide +kernel), (merges 4).trans (by decide +kernel)⟩

end DcacheRun

end JCore
