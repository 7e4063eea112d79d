import JCore.Lib.Buffer
import JCore.Lib.Trace
import Mathlib.Data.Nat.Bits

/-!
# Notices across two clocks

A poster sends notices, an answerer answers each of them later, and the poster is told
that it has been answered. Two toggles are used in turn: a notice makes the two levels of
its toggle differ, the answer makes them equal again, and the poster finds that in samples
of the difference. The text of a notice stays with the poster, in one register for the last
notice and one for each toggle behind it.

A notice is posted only when all notices but the last one have been told of, and no two
answers fall between two rising edges of the poster's clock; otherwise an answer is lost.

## Main definitions

* `Notices`, `Notices.step`: the registers, and one instant
* `NoticeRun.posts`, `NoticeRun.tells`: the notices posted and those told of
* `NoticeRun.Behaves`, `NoticeRun.Undisturbed`: how the two sides behave

## Main results

* `NoticeRun.holds_succ`: what the registers hold
* `NoticeRun.carries_succ`: the notices told of are those posted, in order
-/

namespace JCore

variable {α : Type*}

/-- The registers of the two toggles. -/
@[ext] structure Notices (α : Type*) where
  /-- the toggle of the last notice -/
  posted : Bool
  /-- the toggle of the last answer -/
  confirmed : Bool
  asked : Bool → Bool
  answered : Bool → Bool
  levelMeta : Bool → Bool
  levelStable : Bool → Bool
  levelPrev : Bool → Bool
  /-- the text of the last notice -/
  line : α
  lines : Bool → α

/-- What happens at an instant: whether the poster's clock rises, the notice posted, another
text that takes the place of the last one, and whether the answerer answers. -/
structure NoticesI (α : Type*) where
  rise : Bool
  post : Option α
  other : Option α
  answer : Bool

namespace Notices

variable (s : Notices α) (i : NoticesI α)

def posts : Bool := i.rise && i.post.isSome

/-- The difference of the two levels of a toggle. -/
def level (b : Bool) : Bool := s.asked b ^^ s.answered b

/-- The poster finds the answer on a toggle. -/
def told (b : Bool) : Bool := s.levelPrev b && !s.levelStable b

/-- One instant. Both sides read what the other had before it. -/
def step : Notices α where
  posted := if posts i then !s.posted else s.posted
  confirmed := if i.answer then !s.confirmed else s.confirmed
  asked b := if posts i && b == !s.posted then !s.answered b else s.asked b
  answered b := if i.answer && b == !s.confirmed then s.asked b else s.answered b
  levelMeta b := if i.rise then s.level b else s.levelMeta b
  levelStable b := if i.rise then s.levelMeta b else s.levelStable b
  levelPrev b := if i.rise then s.levelStable b else s.levelPrev b
  line := if i.rise then i.post.getD (i.other.getD s.line) else s.line
  lines b := if i.rise && b == s.posted then s.line else s.lines b

end Notices

/-- The toggle of notice number `k`. -/
def turn (k : ℕ) : Bool := !k.bodd

theorem turn_succ (k : ℕ) : turn (k + 1) = !turn k := by
  rw [turn, turn, Nat.bodd_succ]

/-- The levels show the notices from `lo` to `hi`. -/
def Shows (level : Bool → Bool) (lo hi : ℕ) : Prop :=
  ∀ b, level b = true ↔ ∃ k, lo ≤ k ∧ k < hi ∧ turn k = b

/-- Notices that are shown no more have been answered. -/
theorem Shows.falls {older newer : Bool → Bool} {lo hi lo' hi' : ℕ} (old : Shows older lo hi)
    (new : Shows newer lo' hi') (le : lo ≤ lo') (one : lo' ≤ lo + 1) (seen : lo' ≤ hi)
    (more : hi ≤ hi') (two : hi' ≤ lo + 2) (b : Bool) :
    (older b && !newer b) = true ↔ lo < lo' ∧ turn lo = b := by
  rw [Bool.and_eq_true, Bool.not_eq_true', ← Bool.not_eq_true, old b, new b]
  constructor
  · rintro ⟨⟨k, hlo, hhi, rfl⟩, none⟩
    have gone : k < lo' := by
      by_contra stays
      exact none ⟨k, by omega, by omega, rfl⟩
    obtain rfl : k = lo := by omega
    exact ⟨gone, rfl⟩
  · rintro ⟨lt, rfl⟩
    refine ⟨⟨lo, le_rfl, by omega, rfl⟩, ?_⟩
    rintro ⟨k, hlo, hhi, same⟩
    obtain rfl : k = lo + 1 := by omega
    rw [turn_succ] at same
    exact Bool.not_ne_self _ same

/-- A sample is taken or kept. -/
theorem Shows.sample {new old : Bool → Bool} {rise : Bool} {lo hi lo' hi' : ℕ}
    (taken : Shows new lo hi) (kept : Shows old lo' hi') :
    Shows (fun b => if rise then new b else old b) (if rise then lo else lo')
      (if rise then hi else hi') := by
  cases rise
  · exact kept
  · exact taken

/-! ### Runs -/

/-- A run from registers that are all clear. -/
structure NoticeRun (α : Type*) where
  line : α
  lines : Bool → α
  clk : ℕ → NoticesI α

namespace NoticeRun

section Events

variable (run : NoticeRun α)

def start : Notices α where
  posted := false
  confirmed := false
  asked _ := false
  answered _ := false
  levelMeta _ := false
  levelStable _ := false
  levelPrev _ := false
  line := run.line
  lines := run.lines

def state : ℕ → Notices α := trace Notices.step run.start run.clk

/-- The notice posted at an instant. -/
def posts (t : ℕ) : Option α := if (run.clk t).rise then (run.clk t).post else none

/-- The notice whose answer is found at an instant; the first toggle comes first. -/
def tells (t : ℕ) : Option α :=
  let s := run.state t
  if (run.clk t).rise && (s.told true || s.told false) then some (s.lines (s.told true)) else none

/-- How many notices have been posted, answered and told of. -/
def posted (t : ℕ) : ℕ := (history run.posts t).length

def answered : ℕ → ℕ
  | 0 => 0
  | t + 1 => if (run.clk t).answer then answered t + 1 else answered t

def told (t : ℕ) : ℕ := (history run.tells t).length

/-- A count as it was before the last rising edge. -/
def sampled (count : ℕ → ℕ) : ℕ → ℕ
  | 0 => 0
  | t + 1 => if (run.clk t).rise then count t else sampled count t

/-- The answers in the samples of the poster, from the first sample on. -/
def answered1 : ℕ → ℕ := run.sampled run.answered

def answered2 : ℕ → ℕ := run.sampled run.answered1

def answered3 : ℕ → ℕ := run.sampled run.answered2

def posted1 : ℕ → ℕ := run.sampled run.posted

def posted2 : ℕ → ℕ := run.sampled run.posted1

def posted3 : ℕ → ℕ := run.sampled run.posted2

/-- How the two sides behave. -/
structure Behaves (t : ℕ) : Prop where
  post : (run.posts t).isSome = true → run.posted t ≤ run.answered2 t + 1
  answer : (run.clk t).answer = true → run.answered t < run.posted t ∧
    ((run.clk t).rise = false → run.answered t < run.posted1 t ∧ run.answered t = run.answered1 t)

/-- The counts follow each other. -/
structure Order (t : ℕ) : Prop where
  le2 : run.answered3 t ≤ run.answered2 t ∧ run.answered2 t ≤ run.answered3 t + 1
  le1 : run.answered2 t ≤ run.answered1 t ∧ run.answered1 t ≤ run.answered2 t + 1
  le0 : run.answered1 t ≤ run.answered t ∧ run.answered t ≤ run.answered1 t + 1
  answered : run.answered2 t ≤ run.posted3 t ∧ run.answered1 t ≤ run.posted2 t ∧
    run.answered t ≤ run.posted1 t
  posted : run.posted3 t ≤ run.posted2 t ∧ run.posted2 t ≤ run.posted1 t ∧
    run.posted1 t ≤ run.posted t ∧ run.posted t ≤ run.posted1 t + 1
  two : run.posted t ≤ run.answered3 t + 2

/-- What the registers hold. -/
structure Holds (t : ℕ) : Prop where
  order : run.Order t
  posted : (run.state t).posted = (run.posted t).bodd
  confirmed : (run.state t).confirmed = (run.answered t).bodd
  level : Shows (run.state t).level (run.answered t) (run.posted t)
  levelMeta : Shows (run.state t).levelMeta (run.answered1 t) (run.posted1 t)
  levelStable : Shows (run.state t).levelStable (run.answered2 t) (run.posted2 t)
  levelPrev : Shows (run.state t).levelPrev (run.answered3 t) (run.posted3 t)
  told : run.told t = run.answered3 t

/-- No other text takes the place of a notice that has not been told of. -/
def Undisturbed (t : ℕ) : Prop :=
  (run.clk t).rise = true → (run.clk t).post = none → (run.clk t).other.isSome = true →
    run.posted t ≤ run.answered2 t

/-- The registers carry the texts of the notices that have not been told of. -/
structure Carries (t : ℕ) : Prop where
  tells : history run.tells t = (history run.posts t).take (run.answered3 t)
  line : run.answered3 t < run.posted t →
    (history run.posts t)[run.posted t - 1]? = some (run.state t).line
  lines : ∀ k, run.answered3 t ≤ k → k < run.posted1 t →
    (history run.posts t)[k]? = some ((run.state t).lines (turn k))

end Events

variable {run : NoticeRun α} {t : ℕ}

theorem state_succ (t : ℕ) : run.state (t + 1) = (run.state t).step (run.clk t) := rfl

theorem posts_eq (t : ℕ) : (run.posts t).isSome = Notices.posts (run.clk t) := by
  rw [posts, Notices.posts]
  cases (run.clk t).rise <;> rfl

theorem posted_succ (t : ℕ) : run.posted (t + 1) =
    if Notices.posts (run.clk t) then run.posted t + 1 else run.posted t := by
  rw [posted, history_succ, List.length_append, ← posts_eq]
  cases run.posts t <;> rfl

theorem answered_succ (t : ℕ) : run.answered (t + 1) =
    if (run.clk t).answer then run.answered t + 1 else run.answered t := rfl

theorem sampled_succ (count : ℕ → ℕ) (t : ℕ) : run.sampled count (t + 1) =
    if (run.clk t).rise then count t else run.sampled count t := rfl

theorem order_succ (behaves : run.Behaves t) (h : run.Order t) : run.Order (t + 1) := by
  obtain ⟨post, answer⟩ := behaves
  rw [posts_eq] at post
  obtain ⟨h1, h2, h3, h4, h5, h6⟩ := h
  have rises : Notices.posts (run.clk t) = true → (run.clk t).rise = true := by
    intro h
    exact (Bool.and_eq_true_iff.mp h).1
  constructor
  all_goals simp only [answered3, answered2, answered1, posted1, posted2, posted3, sampled_succ,
    posted_succ, answered_succ] at *
  all_goals
    cases hr : (run.clk t).rise <;> cases hp : Notices.posts (run.clk t) <;>
      cases ha : (run.clk t).answer <;> simp [hr, hp, ha] at * <;> omega

/-- What one instant does to the difference of the levels. -/
theorem level_step (hposted : (run.state t).posted = (run.posted t).bodd)
    (hconfirmed : (run.state t).confirmed = (run.answered t).bodd)
    (apart : Notices.posts (run.clk t) = true → (run.clk t).answer = true →
      run.posted t = run.answered t + 1) (b : Bool) :
    (run.state (t + 1)).level b =
      if Notices.posts (run.clk t) = true ∧ turn (run.posted t) = b then true
      else if (run.clk t).answer = true ∧ turn (run.answered t) = b then false
      else (run.state t).level b := by
  have next : (!(run.state t).posted) = turn (run.posted t) := by rw [hposted, turn]
  have first : (!(run.state t).confirmed) = turn (run.answered t) := by rw [hconfirmed, turn]
  rw [state_succ, Notices.step, Notices.level]
  dsimp only
  rw [next, first]
  cases hp : Notices.posts (run.clk t) <;> cases ha : (run.clk t).answer
  · simp [Notices.level]
  · by_cases same : turn (run.answered t) = b
    · simp [same]
    · simp [same, beq_eq_false_iff_ne.mpr (Ne.symm same), Notices.level]
  · by_cases same : turn (run.posted t) = b
    · simp [same]
    · simp [same, beq_eq_false_iff_ne.mpr (Ne.symm same), Notices.level]
  · have other : turn (run.posted t) = !turn (run.answered t) := by
      rw [apart hp ha, turn_succ]
    rw [other]
    cases turn (run.answered t) <;> cases b <;> simp

/-- A notice is on its toggle until it is answered. -/
theorem level_succ (behaves : run.Behaves t) (h : run.Holds t) :
    Shows (run.state (t + 1)).level (run.answered (t + 1)) (run.posted (t + 1)) := by
  obtain ⟨post, answer⟩ := behaves
  obtain ⟨⟨h3, h2, h1, hanswered, hle, two⟩, hposted, hconfirmed, level, -⟩ := h
  rw [posts_eq] at post
  -- a notice is posted while another is answered only next to it, so the two have different banks
  have apart : Notices.posts (run.clk t) = true → (run.clk t).answer = true →
      run.posted t = run.answered t + 1 := by
    intro hp ha
    have := post hp
    have := (answer ha).1
    omega
  intro b
  rw [level_step hposted hconfirmed apart, posted_succ, answered_succ]
  have old := level b
  -- neither, an answer alone, a notice alone, and both
  cases hp : Notices.posts (run.clk t) <;> cases ha : (run.clk t).answer
  · simpa using old
  · have lt := (answer ha).1
    by_cases same : turn (run.answered t) = b
    · simp only [same, Bool.false_eq_true, false_and, if_false, true_and, if_true, false_iff]
      rintro ⟨k, hlo, hhi, hk⟩
      obtain rfl : k = run.answered t + 1 := by omega
      rw [turn_succ, same] at hk
      exact Bool.not_ne_self _ hk
    · simp only [same, Bool.false_eq_true, false_and, if_false, and_false, if_true, old]
      constructor
      · rintro ⟨k, hlo, hhi, hk⟩
        have ne : k ≠ run.answered t := fun h => same (h ▸ hk)
        exact ⟨k, by omega, hhi, hk⟩
      · rintro ⟨k, hlo, hhi, hk⟩
        exact ⟨k, by omega, hhi, hk⟩
  · have le := post hp
    by_cases same : turn (run.posted t) = b
    · simp only [same, true_and, if_true, true_iff]
      exact ⟨run.posted t, by simp; omega, by simp, same⟩
    · simp only [same, Bool.false_eq_true, false_and, if_false, and_false, if_true, old]
      constructor
      · rintro ⟨k, hlo, hhi, hk⟩
        exact ⟨k, hlo, by omega, hk⟩
      · rintro ⟨k, hlo, hhi, hk⟩
        have ne : k ≠ run.posted t := fun h => same (h ▸ hk)
        exact ⟨k, hlo, by omega, hk⟩
  · have next := apart hp ha
    by_cases same : turn (run.posted t) = b
    · simp only [same, true_and, if_true, true_iff]
      exact ⟨run.posted t, by simp; omega, by simp, same⟩
    · have gone : turn (run.answered t) = b := by
        rw [next, turn_succ] at same
        cases hb : turn (run.answered t) <;> cases b <;> simp_all
      simp only [same, gone, and_false, if_false, true_and, if_true, Bool.false_eq_true, false_iff]
      rintro ⟨k, hlo, hhi, hk⟩
      obtain rfl : k = run.posted t := by omega
      exact same hk

/-- The answer that is found is that of the next notice. -/
theorem told_iff (h : run.Holds t) (b : Bool) : (run.state t).told b = true ↔
    run.answered3 t < run.answered2 t ∧ turn (run.answered3 t) = b := by
  obtain ⟨⟨le2, le1, le0, answered, posted, two⟩, -, -, -, -, stable, prev, -⟩ := h
  exact prev.falls stable le2.1 le2.2 answered.1 posted.1 (by omega) b

theorem tells_eq (h : run.Holds t) : run.tells t =
    if (run.clk t).rise = true ∧ run.answered3 t < run.answered2 t then
      some ((run.state t).lines (turn (run.answered3 t))) else none := by
  have first := told_iff h true
  have second := told_iff h false
  rw [tells]
  by_cases lt : run.answered3 t < run.answered2 t
  · cases hturn : turn (run.answered3 t) <;> simp_all
  · simp_all

theorem answered3_succ (t : ℕ) : run.answered3 (t + 1) =
    if (run.clk t).rise then run.answered2 t else run.answered3 t := rfl

theorem told_succ (h : run.Holds t) : run.told (t + 1) = run.answered3 (t + 1) := by
  have here := h.told
  have le := h.order.le2
  rw [told] at here ⊢
  rw [history_succ, List.length_append, here, tells_eq h, answered3_succ]
  by_cases lt : run.answered3 t < run.answered2 t
  · cases (run.clk t).rise
    · simp
    · simp [lt]
      omega
  · cases (run.clk t).rise
    · simp
    · simp [lt]
      omega

theorem holds_zero : run.Holds 0 := by
  constructor
  · constructor <;> simp [answered, answered1, answered2, answered3, posted, posted1, posted2,
      posted3, sampled, history]
  · simp [state, start, posted, history]
  · simp [state, start, answered]
  all_goals first
    | rfl
    | intro b
      simp [state, start, answered, answered1, answered2, answered3, posted, posted1, posted2,
        posted3, sampled, history, Notices.level]

/-- What one instant does. -/
theorem holds_succ (behaves : run.Behaves t) (h : run.Holds t) : run.Holds (t + 1) where
  order := order_succ behaves h.order
  posted := by
    have next : (run.state (t + 1)).posted =
        if Notices.posts (run.clk t) then !(run.state t).posted else (run.state t).posted := rfl
    rw [next, posted_succ, h.posted]
    split_ifs
    · rw [Nat.bodd_succ]
    · rfl
  confirmed := by
    have next : (run.state (t + 1)).confirmed =
        if (run.clk t).answer then !(run.state t).confirmed else (run.state t).confirmed := rfl
    rw [next, answered_succ, h.confirmed]
    split_ifs
    · rw [Nat.bodd_succ]
    · rfl
  level := level_succ behaves h
  levelMeta := h.level.sample h.levelMeta
  levelStable := h.levelMeta.sample h.levelStable
  levelPrev := h.levelStable.sample h.levelPrev
  told := told_succ h

/-! ### Texts -/

theorem carries_zero : run.Carries 0 where
  tells := rfl
  line h := absurd h (lt_irrefl 0)
  lines k _ h := absurd h (Nat.not_lt_zero k)

/-- What has been posted stays where it is. -/
theorem getElem?_posts {k : ℕ} (h : k < run.posted t) :
    (history run.posts (t + 1))[k]? = (history run.posts t)[k]? := by
  rw [history_succ, List.getElem?_append_left h]

theorem tells_succ (h : run.Holds t) (carries : run.Carries t) :
    history run.tells (t + 1) = (history run.posts (t + 1)).take (run.answered3 (t + 1)) := by
  obtain ⟨tells, -, lines⟩ := carries
  obtain ⟨le2, le1, le0, answered, posted, two⟩ := h.order
  have whole : ∀ n ≤ run.posted t,
      (history run.posts (t + 1)).take n = (history run.posts t).take n := by
    intro n le
    rw [history_succ, List.take_append_of_le_length le]
  rw [history_succ, tells, tells_eq h, answered3_succ]
  by_cases found : (run.clk t).rise = true ∧ run.answered3 t < run.answered2 t
  · have next : run.answered2 t = run.answered3 t + 1 := by omega
    have text := lines (run.answered3 t) le_rfl (by omega)
    rw [if_pos found, if_pos found.1, next, whole _ (by omega), List.take_add_one, text]
  · rw [if_neg found, Option.toList_none, List.append_nil]
    split_ifs with rise
    · have same : run.answered2 t = run.answered3 t := by
        have no : ¬run.answered3 t < run.answered2 t := fun lt => found ⟨rise, lt⟩
        omega
      rw [same, whole _ (by omega)]
    · rw [whole _ (by omega)]

theorem line_succ (h : run.Holds t) (undisturbed : run.Undisturbed t) (carries : run.Carries t)
    (owed : run.answered3 (t + 1) < run.posted (t + 1)) :
    (history run.posts (t + 1))[run.posted (t + 1) - 1]? = some (run.state (t + 1)).line := by
  have le := h.order.le2
  have next : (run.state (t + 1)).line = if (run.clk t).rise then
      (run.clk t).post.getD ((run.clk t).other.getD (run.state t).line)
    else (run.state t).line := rfl
  have here : ∀ n, n = run.posted t → run.answered3 t < n →
      (history run.posts (t + 1))[n - 1]? = some (run.state t).line := by
    rintro _ rfl lt
    rw [getElem?_posts (by omega)]
    exact carries.line lt
  rw [answered3_succ] at owed
  rw [posted_succ] at owed ⊢
  rw [next]
  -- without a rise the line stays
  cases rise : (run.clk t).rise with
  | false =>
    have quiet : Notices.posts (run.clk t) = false := by rw [Notices.posts, rise, Bool.false_and]
    rw [quiet, rise] at owed
    rw [quiet]
    exact here _ rfl owed
  | true =>
    rw [rise, if_pos rfl] at owed
    -- a notice puts its own address on the line
    cases post : (run.clk t).post with
    | some x =>
      have event : run.posts t = some x := by rw [posts, rise, if_pos rfl, post]
      have sends : Notices.posts (run.clk t) = true := by rw [Notices.posts, rise, post]; rfl
      rw [sends, if_pos rfl, if_pos rfl, history_succ, event, Option.toList_some,
        Nat.add_sub_cancel]
      exact List.getElem?_concat_length
    | none =>
      have quiet : Notices.posts (run.clk t) = false := by
        rw [Notices.posts, post]
        exact Bool.and_false _
      rw [quiet, if_neg Bool.false_ne_true] at owed
      rw [quiet, if_neg Bool.false_ne_true, if_pos rfl, Option.getD_none]
      -- what else the CPU side puts there comes only when nothing is owed
      cases other : (run.clk t).other with
      | none => exact here _ rfl (by omega)
      | some y =>
        have settled := undisturbed rise post (by rw [other]; rfl)
        omega

theorem lines_succ (h : run.Holds t) (carries : run.Carries t) (k : ℕ)
    (lo : run.answered3 (t + 1) ≤ k) (hi : k < run.posted1 (t + 1)) :
    (history run.posts (t + 1))[k]? = some ((run.state (t + 1)).lines (turn k)) := by
  obtain ⟨⟨le2, le1, le0, answered, posted, two⟩, hposted, -⟩ := h
  have next : (run.state (t + 1)).lines (turn k) =
      if (run.clk t).rise && turn k == (run.state t).posted then (run.state t).line
      else (run.state t).lines (turn k) := rfl
  rw [answered3_succ] at lo
  rw [posted1, sampled_succ, ← posted1] at hi
  rw [next, hposted]
  cases rise : (run.clk t).rise with
  | false =>
    rw [rise, if_neg Bool.false_ne_true] at lo hi
    rw [getElem?_posts (by omega)]
    exact carries.lines k lo hi
  | true =>
    rw [rise, if_pos rfl] at lo hi
    rw [getElem?_posts hi, Bool.true_and]
    -- the last notice is on its way to the register of its toggle
    by_cases last : k + 1 = run.posted t
    · have same : turn k = (run.posted t).bodd := by rw [turn, ← last, Nat.bodd_succ]
      have text := carries.line (by omega)
      rw [if_pos (beq_iff_eq.mpr same), ← text]
      congr 1
      omega
    · have before : k + 2 = run.posted t := by omega
      have other : turn k ≠ (run.posted t).bodd := by
        rw [turn, ← before, Nat.bodd_succ, Nat.bodd_succ, Bool.not_not]
        exact Bool.not_ne_self _
      rw [if_neg fun same => other (beq_iff_eq.mp same)]
      exact carries.lines k (by omega) (by omega)

/-- What one instant does to the texts. -/
theorem carries_succ (h : run.Holds t) (undisturbed : run.Undisturbed t)
    (carries : run.Carries t) : run.Carries (t + 1) where
  tells := tells_succ h carries
  line := line_succ h undisturbed carries
  lines := lines_succ h carries

/-! ### Progress -/

theorem sampled_mono {count : ℕ → ℕ} (le : ∀ t, run.sampled count t ≤ count t) :
    Monotone (run.sampled count) := by
  apply monotone_nat_of_le_succ
  intro t
  rw [sampled_succ]
  split_ifs
  · exact le t
  · exact le_rfl

theorem answered_mono : Monotone run.answered := by
  apply monotone_nat_of_le_succ
  intro t
  rw [answered_succ]
  split_ifs
  · exact Nat.le_succ _
  · exact le_rfl

/-- What a count has reached is in its samples after the next rising edge. -/
theorem exists_le_sampled (rises : ∀ t, ∃ u ≥ t, (run.clk u).rise = true) {count : ℕ → ℕ}
    (mono : Monotone count) (t : ℕ) : ∃ u ≥ t, count t ≤ run.sampled count u := by
  obtain ⟨u, le, rise⟩ := rises t
  refine ⟨u + 1, by omega, ?_⟩
  rw [sampled_succ, rise, if_pos rfl]
  exact mono le

/-- What has been answered is told of. -/
theorem exists_answered_le (rises : ∀ t, ∃ u ≥ t, (run.clk u).rise = true)
    (order : ∀ t, run.Order t) (t : ℕ) : ∃ u ≥ t, run.answered t ≤ run.answered3 u := by
  have mono1 : Monotone run.answered1 := sampled_mono fun t => (order t).le0.1
  have mono2 : Monotone run.answered2 := sampled_mono fun t => (order t).le1.1
  obtain ⟨u, hu, le1⟩ := exists_le_sampled rises answered_mono t
  obtain ⟨v, hv, le2⟩ := exists_le_sampled rises mono1 u
  obtain ⟨w, hw, le3⟩ := exists_le_sampled rises mono2 v
  exact ⟨w, by omega, le1.trans (le2.trans le3)⟩

end NoticeRun

end JCore
