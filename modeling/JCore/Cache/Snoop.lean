import JCore.Cache.Ccl
import JCore.Cache.Ram
import JCore.Lib.Trace
import Mathlib.Tactic.IntervalCases

/-!
# Snooping

When the other cache has written a line, the data cache looks the line up in its
second tag RAM and clears the valid bit. The lookup takes a clock for the RAM and a
clock for the comparison; it is made again when the first clock belongs to the tag
write of a fill.

## Main definitions

* `SnoopPath.step`, `SnoopPath.Run`: the CPU side of the cache with its tag RAMs
* `SnoopPath.Run.Present`: a line is in the cache or about to be
* `SnoopPath.Run.Replaced`: a fill has taken its place

## Main results

* `SnoopPath.Run.snoop_clears`: the valid bit after a lookup
* `SnoopPath.snoop_invalidates`: with what it means for the reads of the CPU
-/

namespace JCore

/-- The CPU side of the data cache and the tag RAMs. -/
structure SnoopPath (ram : TagRam1rw) where
  ccl : DcacheCclReg
  tags : TagRam.State ram

/-- The inputs of a clock, with what the data RAM puts out. -/
structure SnoopPathI where
  d0 : BitVec 32
  a : CpuDataO
  aLock : Bool
  sa : DcacheSnoopIo
  mtoc : MtocDc
  ctrl : CacheCtrl
  deriving DecidableEq, Repr

namespace SnoopPath

variable {ram : TagRam1rw}

/-- The inputs of the CPU side. -/
def cclI (this : SnoopPath ram) (i : SnoopPathI) : DcacheCclI :=
  { ra := TagRam.out ram this.tags i.d0, a := i.a, aLock := i.aLock, sa := i.sa, mtoc := i.mtoc,
    ctrl := i.ctrl }

/-- One clock. -/
def step (this : SnoopPath ram) (i : SnoopPathI) : SnoopPath ram :=
  { ccl := DcacheCcl.step this.ccl (cclI this i)
    tags := TagRam.step ram this.tags (DcacheCcl.ryCcl this.ccl (cclI this i)) }

/-- A run from reset on, with whatever the tag RAMs hold. -/
structure Run (ram : TagRam1rw) where
  tags : TagRam.State ram
  clk : ℕ → SnoopPathI

namespace Run

variable (run : Run ram)

/-- The state before clock `t`. -/
def state : ℕ → SnoopPath ram :=
  trace step { ccl := dcacheCclRegReset, tags := run.tags } run.clk

def ccl (t : ℕ) : DcacheCclReg := (run.state t).ccl

/-- The inputs of the CPU side in clock `t`. -/
def input (t : ℕ) : DcacheCclI := cclI (run.state t) (run.clk t)

/-- The tags for the CPU and for the snoop, by index. -/
def cell0 (t : ℕ) : BitVec 8 → BitVec 16 := ram.cell (run.state t).tags.tag0

def cell1 (t : ℕ) : BitVec 8 → BitVec 16 := ram.cell (run.state t).tags.tag1

/-- The tag write of a fill is in progress. -/
def filling (t : ℕ) : Bool := DcacheCcl.ryTwr (run.ccl t)

/-- The valid bit of an index. -/
def valid (t : ℕ) (index : BitVec 8) : Bool := (run.ccl t).ffv index

/-- The CPU keeps a request until it is acknowledged. -/
def Held : Prop :=
  ∀ t, (run.clk t).a.en = true → (DcacheCcl.y (run.ccl t) (run.input t)).ack = false →
    (run.clk (t + 1)).a = (run.clk t).a

/-- After a snoop request comes a clock without one, and the line stays. -/
def Spaced : Prop :=
  ∀ t, (run.clk t).sa.en = true →
    (run.clk (t + 1)).sa.en = false ∧ (run.clk (t + 1)).sa.al = (run.clk t).sa.al

/-- The index of the line holds its tag and is valid, or a fill of the line writes
its tag. -/
def Present (t : ℕ) (line : BitVec 23) : Prop :=
  (run.valid t (lineIndex line) = true ∧
      run.cell0 t (lineIndex line) = TagRam.word (lineTag line)) ∨
    (run.filling t = true ∧ toCacheLine (run.ccl t).ma0 = line)

/-- A fill has written its tag at the index of the line, in the clock of the request or
later; in that clock a fill of another line. -/
def Replaced (request : ℕ) (line : BitVec 23) (t : ℕ) : Prop :=
  ∃ v, request ≤ v ∧ v < t ∧ run.filling v = true ∧
    toCacheIndex (run.ccl v).ma0 = lineIndex line ∧
    (v = request → toCacheLine (run.ccl v).ma0 ≠ line)

variable {run} {t : ℕ}

theorem ccl_succ (t : ℕ) : run.ccl (t + 1) = DcacheCcl.step (run.ccl t) (run.input t) := rfl

/-! ### Fills -/

/-- A read miss is a request that is not acknowledged at once. -/
theorem rmiss1_succ (h : (run.ccl (t + 1)).state = .rmiss1) :
    (run.clk t).a.en = true ∧ (DcacheCcl.y (run.ccl t) (run.input t)).ack = false ∧
      (run.ccl (t + 1)).ma0 = (run.clk t).a.a.extractLsb 27 0 := by
  have hnext : DcacheCcl.nextState (run.ccl t) (run.input t) = .rmiss1 := h
  obtain ⟨hon, hidle, hen, hwr, -, -, hmiss⟩ := DcacheCcl.nextState_eq_rmiss1 hnext
  refine ⟨hen, ?_, ?_⟩
  · simp [DcacheCcl.y, hon, DcacheCcl.yAckBeforetI1, DcacheCcl.yAckBeforetI2, hidle, hwr, hmiss]
  · change DcacheCcl.ma0 (run.ccl t) (run.input t) = _
    rw [DcacheCcl.ma0, hnext]
    rfl

/-- A fill writes its tag at the index of its line. -/
theorem ta0_of_filling (held : run.Held) (h : run.filling t = true) :
    DcacheCcl.ta0 (run.ccl t) (run.input t) = toCacheIndex (run.ccl t).ma0 := by
  rw [filling, DcacheCcl.ryTwr, Bool.or_eq_true, beq_iff_eq, beq_iff_eq] at h
  rcases h with h | h
  · cases t with
    | zero => simp [ccl, state, dcacheCclRegReset] at h
    | succ t =>
      obtain ⟨hen, hack, hma0⟩ := rmiss1_succ h
      have hsame := held t hen hack
      rw [DcacheCcl.ta0, if_neg (by rw [h]; decide), hma0]
      change toCacheIndex (run.clk (t + 1)).a.a = _
      rw [hsame]
      exact (toCacheIndex_extractLsb _).symm
  · rw [DcacheCcl.ta0, if_pos h]

theorem not_filling_succ (h : run.filling t = true) : run.filling (t + 1) = false := by
  obtain ⟨hr, hw⟩ := DcacheCcl.nextState_of_ryTwr (i := run.input t) h
  rw [filling, ccl_succ, DcacheCcl.ryTwr, Bool.or_eq_false_iff, beq_eq_false_iff_ne,
    beq_eq_false_iff_ne]
  exact ⟨hr, hw⟩

/-- A valid bit is set by a fill only. -/
theorem valid_succ {index : BitVec 8} (h : run.valid (t + 1) index = true) :
    run.valid t index = true ∨
      run.filling t = true ∧ toCacheIndex (run.ccl t).ma0 = index :=
  DcacheCcl.ffv_eq_true h

/-! ### Tags -/

section Tags

variable (lawful : ram.Lawful)

include lawful

theorem cell0_succ (held : run.Held) (t : ℕ) : run.cell0 (t + 1) =
    if run.filling t then
      Function.update (run.cell0 t) (toCacheIndex (run.ccl t).ma0)
        (TagRam.word (toCacheTag (run.ccl t).ma0))
    else run.cell0 t := by
  rcases hf : run.filling t with _ | _
  · exact TagRam.cell_of_read lawful hf
  · rw [if_pos rfl, ← ta0_of_filling held hf]
    exact TagRam.cell_of_write lawful hf

theorem cell1_succ (held : run.Held) (t : ℕ) : run.cell1 (t + 1) =
    if run.filling t then
      Function.update (run.cell1 t) (toCacheIndex (run.ccl t).ma0)
        (TagRam.word (toCacheTag (run.ccl t).ma0))
    else run.cell1 t := by
  rcases hf : run.filling t with _ | _
  · exact TagRam.cell_of_read lawful hf
  · have hta1 : DcacheCcl.ta1 (run.ccl t) (run.input t) = toCacheIndex (run.ccl t).ma0 := by
      have htwr : DcacheCcl.ryTwr (run.ccl t) = true := hf
      rw [DcacheCcl.ta1, if_pos htwr, ta0_of_filling held hf]
    rw [if_pos rfl, ← hta1]
    exact TagRam.cell_of_write lawful hf

/-- Where the valid bit is set the two copies agree. -/
theorem cell_eq_of_valid (held : run.Held) {index : BitVec 8} (h : run.valid t index = true) :
    run.cell0 t index = run.cell1 t index := by
  induction t with
  | zero => exact absurd h Bool.false_ne_true
  | succ t ih =>
    rw [cell0_succ lawful held, cell1_succ lawful held]
    by_cases hindex : index = toCacheIndex (run.ccl t).ma0
    · rcases valid_succ h with hv | ⟨hf, -⟩
      · have heq := ih hv
        split_ifs
        · rw [hindex, Function.update_self, Function.update_self]
        · exact heq
      · rw [if_pos hf, if_pos hf, hindex, Function.update_self, Function.update_self]
    · have heq := ih ((valid_succ h).resolve_right fun hv => hindex hv.2.symm)
      split_ifs
      · rw [Function.update_of_ne hindex, Function.update_of_ne hindex]
        exact heq
      · exact heq

/-- The tag that the snoop side puts out. -/
theorem tag1_succ (h : run.filling t = false) : (run.input (t + 1)).ra.tag1 =
    (run.cell1 t (lineIndex (run.clk t).sa.al)).extractLsb' 0 15 := by
  have hta1 : DcacheCcl.ta1 (run.ccl t) (run.input t) = lineIndex (run.clk t).sa.al := by
    rw [DcacheCcl.ta1, if_neg (by rw [← filling, h]; decide)]
    rfl
  rw [← hta1]
  exact congrArg (BitVec.extractLsb' 0 15) (TagRam.dr_of_read lawful h)

/-- A lookup of a line that the index holds clears the valid bit. -/
theorem valid_of_lookup {line : BitVec 23} (hf : run.filling t = false)
    (hal : (run.clk t).sa.al = line) (hcell : run.cell1 t (lineIndex line) = TagRam.word (lineTag line))
    (hsaAl : (run.ccl (t + 1)).saAl = line) (hen : (run.ccl (t + 1)).saEnState = true) :
    run.valid (t + 2) (lineIndex line) = false := by
  have hhit : DcacheCcl.cachehitSnoop (run.ccl (t + 1)) (run.input (t + 1)) = true := by
    have hread : (run.ccl (t + 1)).ryTwr = false := hf
    rw [DcacheCcl.cachehitSnoop, tag1_succ lawful hf, hal, hcell, TagRam.tag_word, hsaAl, hen, hread]
    simp
  rw [← hsaAl]
  exact DcacheCcl.ffv_of_cachehitSnoop hhit

end Tags

/-! ### Lookups -/

section Lookups

variable {line : BitVec 23}

theorem Replaced.mono {request u : ℕ} (h : run.Replaced request line t) (hle : t ≤ u) :
    run.Replaced request line u := by
  obtain ⟨v, hv, hlt, rest⟩ := h
  exact ⟨v, hv, hlt.trans_le hle, rest⟩

/-- The snoop request and the line stay with the lookup. -/
theorem saAl_of_request (h : (run.clk t).sa.en = true) :
    (run.ccl (t + 1)).saAl = (run.clk t).sa.al ∧ (run.ccl (t + 1)).saEnState = true := by
  refine ⟨if_pos h, ?_⟩
  change ((run.clk t).sa.en || _) = true
  rw [h, Bool.true_or]

/-- A lookup that meets the tag write of a fill is made again. -/
theorem saAl_of_retry (spaced : run.Spaced) (h : (run.clk t).sa.en = true)
    (hf : run.filling t = true) : (run.ccl (t + 2)).saAl = (run.clk t).sa.al ∧
      (run.ccl (t + 2)).saEnState = true := by
  obtain ⟨hal, hen⟩ := saAl_of_request h
  refine ⟨?_, ?_⟩
  · have hnone : ¬ (run.clk (t + 1)).sa.en = true := by
      rw [(spaced t h).1]
      exact Bool.false_ne_true
    have hkeep : (run.ccl (t + 2)).saAl = (run.ccl (t + 1)).saAl := if_neg hnone
    rw [hkeep, hal]
  · have htwr : (run.ccl (t + 1)).ryTwr = true := hf
    change ((run.clk (t + 1)).sa.en || ((run.ccl (t + 1)).saEnState && (run.ccl (t + 1)).ryTwr)) = _
    rw [hen, htwr]
    exact Bool.or_true _

/-- A cleared valid bit stays so until a fill replaces the line. -/
theorem cleared_of_le {request u : ℕ} (hlt : request < t)
    (h : run.valid t (lineIndex line) = false ∨ run.Replaced request line t) (hle : t ≤ u) :
    run.valid u (lineIndex line) = false ∨ run.Replaced request line u := by
  induction u, hle using Nat.le_induction with
  | base => exact h
  | succ u hle ih =>
    rcases ih with hvalid | hrep
    · rcases hv : run.valid (u + 1) (lineIndex line) with _ | _
      · exact .inl rfl
      · rcases valid_succ hv with hbefore | ⟨hf, hindex⟩
        · rw [hvalid] at hbefore
          exact absurd hbefore Bool.false_ne_true
        · refine .inr ⟨u, (hlt.trans_le hle).le, Nat.lt_succ_self u, hf, hindex, ?_⟩
          intro heq
          omega
    · exact .inr (hrep.mono (Nat.le_succ u))

variable (lawful : ram.Lawful) (held : run.Held) (spaced : run.Spaced)

include lawful held spaced

/-- When the lookup of a line that the cache holds has finished, the valid bit is
clear, unless a fill has replaced the line. -/
theorem snoop_clears (request : (run.clk t).sa.en = true) (hal : (run.clk t).sa.al = line)
    (present : run.Present t line) {u : ℕ} (hlt : t < u)
    (finished : (run.ccl u).saEnState = false) :
    run.valid u (lineIndex line) = false ∨ run.Replaced t line u := by
  obtain ⟨hal1, hen1⟩ := saAl_of_request request
  have hne1 : u ≠ t + 1 := by
    rintro rfl
    rw [hen1] at finished
    exact Bool.false_ne_true finished.symm
  rcases hf : run.filling t with _ | _
  · -- the first clock of the lookup reads the tag
    have hvalid : run.valid t (lineIndex line) = true ∧
        run.cell0 t (lineIndex line) = TagRam.word (lineTag line) := by
      rcases present with hpresent | ⟨hfill, -⟩
      · exact hpresent
      · rw [hf] at hfill
        exact absurd hfill Bool.false_ne_true
    have hcell : run.cell1 t (lineIndex line) = TagRam.word (lineTag line) := by
      rw [← cell_eq_of_valid lawful held hvalid.1, hvalid.2]
    refine cleared_of_le (t := t + 2) (by omega) (.inl ?_) (by omega)
    exact valid_of_lookup lawful hf hal hcell (hal1.trans hal) hen1
  · -- it belongs to a fill, and the next one reads the tag
    obtain ⟨hal2, hen2⟩ := saAl_of_retry spaced request hf
    have hne2 : u ≠ t + 2 := by
      rintro rfl
      rw [hen2] at finished
      exact Bool.false_ne_true finished.symm
    by_cases hother : toCacheIndex (run.ccl t).ma0 = lineIndex line ∧
        toCacheLine (run.ccl t).ma0 ≠ line
    · exact .inr ⟨t, le_rfl, hlt, hf, hother.1, fun _ => hother.2⟩
    · have hcell : run.cell1 (t + 1) (lineIndex line) = TagRam.word (lineTag line) := by
        rw [cell1_succ lawful held, if_pos hf]
        by_cases hsame : toCacheLine (run.ccl t).ma0 = line
        · rw [← hsame, lineIndex_toCacheLine, lineTag_toCacheLine, Function.update_self]
        · have hindex : lineIndex line ≠ toCacheIndex (run.ccl t).ma0 :=
            fun heq => hother ⟨heq.symm, hsame⟩
          obtain ⟨hvalid, hcell0⟩ := present.resolve_right fun hfill => hsame hfill.2
          rw [Function.update_of_ne hindex, ← cell_eq_of_valid lawful held hvalid, hcell0]
      refine cleared_of_le (t := t + 3) (by omega) (.inl ?_) (by omega)
      exact valid_of_lookup (t := t + 1) lawful (not_filling_succ hf)
        ((spaced t request).2.trans hal) hcell (hal2.trans hal) hen2

end Lookups

end Run

/-- What a snoop request for a line does in the cache. -/
structure Invalidates (run : Run ram) (t : ℕ) (line : BitVec 23) : Prop where
  /-- once the lookup has finished the valid bit is clear until a fill replaces the line -/
  valid : ∀ s u, t < s → s ≤ u → (run.ccl s).saEnState = false →
    run.valid u (lineIndex line) = false ∨ run.Replaced t line u
  /-- so the RAM answers no read of the line -/
  read : ∀ s u, t < s → s ≤ u → (run.ccl s).saEnState = false → ¬ run.Replaced t line u →
    (run.clk u).a.wr = false → toCacheLine (run.clk u).a.a = line →
    (run.ccl u).state = .idle ∨ (run.ccl u).state = .sb2 →
    (DcacheCcl.y (run.ccl u) (run.input u)).ack = false

/-- A snoop request for a line that the cache holds, or is about to hold, is never lost. -/
theorem snoop_invalidates (run : Run ram) (lawful : ram.Lawful) (held : run.Held)
    (spaced : run.Spaced) (t : ℕ) (line : BitVec 23) (request : (run.clk t).sa.en = true)
    (hal : (run.clk t).sa.al = line) (present : run.Present t line) : Invalidates run t line where
  valid _ _ hlt hle finished :=
    Run.cleared_of_le hlt (Run.snoop_clears lawful held spaced request hal present hlt finished) hle
  read s u hlt hle finished hrep hwr hline hstate := by
    have cleared := Run.snoop_clears lawful held spaced request hal present hlt finished
    have hvalid := (Run.cleared_of_le hlt cleared hle).resolve_right hrep
    have hmiss : DcacheCcl.cachehit (run.ccl u) (run.input u) = false := by
      rw [DcacheCcl.cachehit, Bool.and_eq_false_iff]
      right
      rw [← hline, lineIndex_toCacheLine] at hvalid
      exact hvalid
    have hi1 : DcacheCcl.yAckBeforetI1 (run.ccl u) (run.input u) = false := by
      rcases hstate with h | h <;> simp [DcacheCcl.yAckBeforetI1, h, Run.input, cclI, hwr]
    have hi2 : DcacheCcl.yAckBeforetI2 (run.ccl u) (run.input u) = false := by
      rcases hstate with h | h <;> simp [DcacheCcl.yAckBeforetI2, h]
    have hoff : DcacheCcl.yAckOff (run.ccl u) (run.input u) = false := by
      rcases hstate with h | h <;> simp [DcacheCcl.yAckOff, h]
    rw [DcacheCcl.y, hi1, hi2, hmiss, hoff]
    simp

/-! ### A run -/

/-- Two read misses at one index, with a snoop request for the line of the first. -/
def missRun (request : ℕ) : Run syncRam where
  tags := { tag0 := (fun _ => 0, 0), tag1 := (fun _ => 0, 0) }
  clk t :=
    { d0 := 0
      a :=
        if t = 0 then nullDataO
        else { nullDataO with en := true, rd := true, a := if t ≤ 5 then 0x0020 else 0x2020 }
      aLock := false
      sa := { al := 1, en := t == request }
      mtoc := ⟨t == 5, false, 0, t == 4, 0, false, false⟩
      ctrl := { en := true, inv := false } }

/-- The first read is acknowledged in clock 5. -/
theorem held_missRun {request : ℕ}
    (h : (DcacheCcl.y ((missRun request).ccl 5) ((missRun request).input 5)).ack = true) :
    (missRun request).Held := by
  intro t hen hack
  have hne : t ≠ 5 := by
    rintro rfl
    rw [h] at hack
    exact Bool.false_ne_true hack.symm
  have h0 : t ≠ 0 := by
    rintro rfl
    exact Bool.false_ne_true hen
  rcases Nat.lt_or_gt_of_ne hne with hlt | hgt
  · have h1 : t ≤ 5 := by omega
    have h2 : t + 1 ≤ 5 := by omega
    simp [missRun, h0, h1, h2]
  · have h1 : ¬ t ≤ 5 := by omega
    have h2 : ¬ t + 1 ≤ 5 := by omega
    simp [missRun, h0, h1, h2]

theorem spaced_missRun (request : ℕ) : (missRun request).Spaced := by
  intro t hen
  have heq : t = request := beq_iff_eq.mp hen
  exact ⟨beq_eq_false_iff_ne.mpr (by omega), rfl⟩

/-- A request that arrives with the tag write of the line's own fill. -/
theorem snoop_invalidates_missRun : Invalidates (missRun 3) 3 1 :=
  snoop_invalidates (missRun 3) syncRam_lawful (held_missRun (by decide +kernel))
    (spaced_missRun 3) 3 1 rfl rfl (.inr (by decide +kernel))

/-- A request that arrives while a fill of another line writes its tag over that of the
line: no miss begins after the request, and the bit stays set. -/
theorem snoop_missRun_replaced :
    (missRun 9).Held ∧ (missRun 9).Spaced ∧ ((missRun 9).clk 9).sa.en = true ∧
      ((missRun 9).clk 9).sa.al = 1 ∧ (missRun 9).Present 9 1 ∧
      ((missRun 9).ccl 12).saEnState = false ∧
      (∀ v, 9 < v → v < 12 → (missRun 9).filling v = false) ∧
      (missRun 9).valid 12 (lineIndex 1) = true := by
  refine ⟨held_missRun (by decide +kernel), spaced_missRun 9, rfl, rfl, .inl (by decide +kernel),
    by decide +kernel, ?_, by decide +kernel⟩
  intro v hlt hgt
  interval_cases v <;> decide +kernel

end SnoopPath

end JCore
