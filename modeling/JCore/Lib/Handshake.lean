import JCore.Lib.Buffer
import JCore.Lib.Trace

/-!
# A handshake across two clocks

A client and a server, each with a clock of its own, share two level signals. The
client asks by making its level differ from the server's, the server answers by
making the two equal again. Each side samples the difference through two registers
and takes a change of the second one for an event. A latch that is transparent while
the client's clock is low delays the client's level by half a clock; payload and data
travel beside the levels through registers of their own.

Nothing is lost or doubled as long as neither clock is so fast that a whole exchange
of levels falls between two edges of the other: at most two edges of the server in
each low half of the client's clock, and at most two rising edges of the client
between two edges of the server.

## Main definitions

* `Link`, `Link.step`: the registers, and one instant with edges of either clock
* `Stage`, `Stage.next`: the exchange as the two sides see it
* `LinkRun.Paced`, `LinkRun.Behaves`: the clocks, and how the two sides behave

## Main results

* `LinkRun.at_stage`: the registers implement the exchange
* `LinkRun.exchanges`: every request and every answer arrives once and in order
* `LinkRun.arrives_received`, `LinkRun.arrives_heard`: they do arrive
-/

namespace JCore

variable {α β : Type*}

/-- The registers of a link. The names `Meta` and `Stable` are those of the two
sampling registers, `Prev` is the sample that an event is found with. -/
@[ext] structure Link (α β : Type*) where
  /-- the client's clock is high -/
  high : Bool
  asked : Bool
  answerMeta : Bool
  answerStable : Bool
  answerPrev : Bool
  payload : α
  dataMeta : β
  dataStable : β
  /-- the client's level behind the latch -/
  half : Bool
  answered : Bool
  requestMeta : Bool
  requestStable : Bool
  requestPrev : Bool
  payloadMeta : α
  payloadStable : α
  data : β

/-- What happens at an instant: which clocks have an edge, and what the two sides do at
it. The client's clock rises and falls in turn. -/
structure LinkI (α β : Type*) where
  client : Bool
  server : Bool
  request : Option α
  complete : Bool
  data : Option β

namespace Link

variable (s : Link α β) (i : LinkI α β)

def rises : Bool := i.client && !s.high

def falls : Bool := i.client && s.high

/-- The server finds a request. -/
def seen : Bool := !s.requestStable && s.requestPrev

/-- The client finds an answer. -/
def heard : Bool := !s.answerStable && s.answerPrev

/-- One instant. Both sides read what the other had before it. -/
def step : Link α β where
  high := s.high ^^ i.client
  asked := if rises s i && i.request.isSome then !s.answered else s.asked
  answerMeta := if rises s i then s.answered ^^ s.half else s.answerMeta
  answerStable := if rises s i then s.answerMeta else s.answerStable
  answerPrev := if rises s i then s.answerStable else s.answerPrev
  payload := if rises s i then i.request.getD s.payload else s.payload
  dataMeta := if rises s i then s.data else s.dataMeta
  dataStable := if rises s i then s.dataMeta else s.dataStable
  half := if falls s i then s.asked else s.half
  answered := if i.server && i.complete then s.half else s.answered
  requestMeta := if i.server then !(s.answered ^^ s.half) else s.requestMeta
  requestStable := if i.server then s.requestMeta else s.requestStable
  requestPrev := if i.server then s.requestStable else s.requestPrev
  payloadMeta := if i.server then s.payload else s.payloadMeta
  payloadStable := if i.server then s.payloadMeta else s.payloadStable
  data := if i.server then i.data.getD s.data else s.data

end Link

/-! ### The exchange -/

/-- How far an exchange has come: the request is taken over by the latch and the two
registers of the server, the answer by the two registers of the client. -/
inductive Stage where
  | idle | asked | crossing0 | crossing1 | crossing2 | serving | answering0 | answering1 | answering2
  deriving DecidableEq, Repr

/-- One instant of the exchange. -/
def Stage.next (rises falls server request complete : Bool) : Stage → Stage
  | idle => if rises && request then asked else idle
  | asked => if falls then crossing0 else asked
  | crossing0 => if server then crossing1 else crossing0
  | crossing1 => if server then crossing2 else crossing1
  | crossing2 => if server then (if complete then answering0 else serving) else crossing2
  | serving => if server && complete then answering0 else serving
  | answering0 => if rises then answering1 else answering0
  | answering1 => if rises then answering2 else answering1
  | answering2 => if rises then (if request then asked else idle) else answering2

/-! ### Events -/

/-- What a handshake gives the two sides before instant `t`: requests and answers are found
once and in order, an answer comes after its request and before the next one, and the lines
show a request until it is answered. -/
structure ExchangesAt (requested received : ℕ → Option α) (lines : ℕ → α)
    (completed heard : ℕ → Option β) (t : ℕ) : Prop where
  requests : history received t <+: history requested t
  answers : history heard t <+: history completed t
  completed_le : (history completed t).length ≤ (history received t).length
  requested_le : (history requested t).length ≤ (history heard t).length + 1
  lines : ∀ before x, history received t = before ++ [x] →
    (history completed t).length < (history received t).length → lines t = x

/-- What it gives them throughout. -/
def Exchanges (requested received : ℕ → Option α) (lines : ℕ → α)
    (completed heard : ℕ → Option β) : Prop :=
  ∀ t, ExchangesAt requested received lines completed heard t

/-- Whatever is sent is found. -/
def Arrives (sent found : ℕ → Option α) : Prop :=
  ∀ t, ∃ u ≥ t, history sent t <+: history found u

/-- What is not found from some time on is lost. -/
theorem not_arrives {sent found : ℕ → Option α} {s : ℕ} (quiet : ∀ t, s ≤ t → found t = none)
    (lt : (history found s).length < (history sent s).length) : ¬Arrives sent found := by
  intro arrives
  obtain ⟨u, le, all⟩ := arrives s
  have same : history found u = history found s := by
    induction u, le using Nat.le_induction with
    | base => rfl
    | succ u le ih =>
      rw [history_succ, quiet u le, Option.toList_none, List.append_nil] at all ⊢
      exact ih all
  rw [same] at all
  exact absurd all.length_le (not_le.mpr lt)

/-! ### Runs -/

/-- A run of a link, from registers that are all clear. -/
structure LinkRun (α β : Type*) where
  high : Bool
  payload : α
  data : β
  clk : ℕ → LinkI α β

namespace LinkRun

variable (run : LinkRun α β)

def start : Link α β :=
  { high := run.high, asked := false, answerMeta := false, answerStable := false,
    answerPrev := false, payload := run.payload, dataMeta := run.data, dataStable := run.data,
    half := false, answered := false, requestMeta := false, requestStable := false,
    requestPrev := false, payloadMeta := run.payload, payloadStable := run.payload,
    data := run.data }

def state : ℕ → Link α β := trace Link.step run.start run.clk

def rises (t : ℕ) : Bool := Link.rises (run.state t) (run.clk t)

def falls (t : ℕ) : Bool := Link.falls (run.state t) (run.clk t)

/-- The payload that the client asks with at an instant. -/
def requested (t : ℕ) : Option α := if run.rises t then (run.clk t).request else none

/-- The payload with which the server finds a request. -/
def received (t : ℕ) : Option α :=
  if (run.clk t).server && Link.seen (run.state t) then some (run.state t).payloadStable else none

/-- The data that the server answers with. -/
def completed (t : ℕ) : Option β :=
  if (run.clk t).server && (run.clk t).complete then
    some ((run.clk t).data.getD (run.state t).data)
  else none

/-- The data with which the client finds an answer. -/
def heard (t : ℕ) : Option β :=
  if run.rises t && Link.heard (run.state t) then some (run.state t).dataStable else none

/-- The edges of the server since the client's clock fell. -/
def serverInLow : ℕ → ℕ
  | 0 => 0
  | t + 1 =>
    if run.falls t then 0 else if (run.clk t).server then serverInLow t + 1 else serverInLow t

/-- The rising edges of the client since the last edge of the server. -/
def clientSince : ℕ → ℕ
  | 0 => 0
  | t + 1 =>
    if (run.clk t).server then 0 else if run.rises t then clientSince t + 1 else clientSince t

/-- Neither clock is too fast for the other. -/
structure Paced : Prop where
  low : ∀ t, run.rises t = true → run.serverInLow t ≤ 2
  high : ∀ t, run.falls t = true → (run.clk t).server = true ∨ run.clientSince t ≤ 2
  /-- the server's clock runs before the first request -/
  start : ∀ t, (run.requested t).isSome = true → ∃ u ≤ t, (run.clk u).server = true

/-- The stage of the exchange before instant `t`. -/
def stage : ℕ → Stage
  | 0 => .idle
  | t + 1 =>
    (stage t).next (run.rises t) (run.falls t) (run.clk t).server (run.clk t).request.isSome
      (run.clk t).complete

/-! ### Registers at a stage -/

section Registers

variable (t : ℕ)

/-- The samples of the server change from clear to set only. -/
def ServerRests : Prop :=
  ((run.state t).requestPrev = true → (run.state t).requestStable = true) ∧
    ((run.state t).requestStable = true → (run.state t).requestMeta = true)

/-- The server has sampled the rest, or the client has had `n` rising edges since the
answer. -/
def Sampled (n : ℕ) : Prop := (run.state t).requestMeta = true ∨ n ≤ run.clientSince t

/-- No answer is on its way. -/
def ClientRests : Prop :=
  (run.state t).answerMeta = false ∧ (run.state t).answerStable = false ∧
    (run.state t).answerPrev = false

/-- The samples of the client change from clear to set only. The first one is clear only
as long as its clock is low, with `n` edges of the server. -/
def ClientWaits (n : ℕ → Prop) : Prop :=
  ((run.state t).answerPrev = true → (run.state t).answerStable = true) ∧
    ((run.state t).answerStable = true → (run.state t).answerMeta = true) ∧
    ((run.state t).answerMeta = true ∨ (run.state t).high = false ∧ n (run.serverInLow t))

/-- What the registers hold at each stage. -/
def Holds : Stage → Prop
  | .idle =>
    (run.state t).asked = (run.state t).half ∧ (run.state t).answered = (run.state t).half ∧
      run.ClientRests t ∧ run.ServerRests t ∧
      (run.Sampled t 3 ∨ ∀ u < t, (run.clk u).server = false)
  | .asked =>
    (run.state t).high = true ∧ (run.state t).asked = !(run.state t).half ∧
      (run.state t).answered = (run.state t).half ∧ run.ClientRests t ∧ run.ServerRests t ∧
      run.Sampled t 3
  | .crossing0 =>
    (run.state t).asked = (run.state t).half ∧ (run.state t).answered = !(run.state t).half ∧
      (run.state t).requestMeta = true ∧ run.ServerRests t ∧ run.ClientWaits t (· = 0)
  | .crossing1 =>
    (run.state t).asked = (run.state t).half ∧ (run.state t).answered = !(run.state t).half ∧
      (run.state t).requestMeta = false ∧ (run.state t).requestStable = true ∧
      (run.state t).payloadMeta = (run.state t).payload ∧ run.ClientWaits t (· = 1)
  | .crossing2 =>
    (run.state t).asked = (run.state t).half ∧ (run.state t).answered = !(run.state t).half ∧
      (run.state t).requestMeta = false ∧ (run.state t).requestStable = false ∧
      (run.state t).requestPrev = true ∧
      (run.state t).payloadMeta = (run.state t).payload ∧
      (run.state t).payloadStable = (run.state t).payload ∧ run.ClientWaits t (· = 2)
  | .serving =>
    (run.state t).asked = (run.state t).half ∧ (run.state t).answered = !(run.state t).half ∧
      (run.state t).requestMeta = false ∧ (run.state t).requestStable = false ∧
      (run.state t).requestPrev = false ∧
      (run.state t).payloadMeta = (run.state t).payload ∧
      (run.state t).payloadStable = (run.state t).payload ∧ run.ClientWaits t (3 ≤ ·)
  | .answering0 =>
    (run.state t).asked = (run.state t).half ∧ (run.state t).answered = (run.state t).half ∧
      run.ServerRests t ∧ run.ClientWaits t (3 ≤ ·)
  | .answering1 =>
    (run.state t).asked = (run.state t).half ∧ (run.state t).answered = (run.state t).half ∧
      run.ServerRests t ∧ run.Sampled t 1 ∧
      (run.state t).answerMeta = false ∧ (run.state t).answerStable = true ∧
      (run.state t).dataMeta = (run.state t).data
  | .answering2 =>
    (run.state t).asked = (run.state t).half ∧ (run.state t).answered = (run.state t).half ∧
      run.ServerRests t ∧ run.Sampled t 2 ∧
      (run.state t).answerMeta = false ∧ (run.state t).answerStable = false ∧
      (run.state t).answerPrev = true ∧
      (run.state t).dataMeta = (run.state t).data ∧ (run.state t).dataStable = (run.state t).data

/-- What has been asked, found, answered and heard at each stage. -/
def Tally : Stage → Prop
  | .idle =>
    history run.requested t = history run.received t ∧
      history run.completed t = history run.heard t ∧
      (history run.received t).length = (history run.completed t).length
  | .asked | .crossing0 | .crossing1 | .crossing2 =>
    history run.requested t = history run.received t ++ [(run.state t).payload] ∧
      history run.completed t = history run.heard t ∧
      (history run.received t).length = (history run.completed t).length
  | .serving =>
    history run.requested t = history run.received t ∧
      (∃ before, history run.received t = before ++ [(run.state t).payload]) ∧
      history run.completed t = history run.heard t ∧
      (history run.received t).length = (history run.completed t).length + 1
  | .answering0 | .answering1 | .answering2 =>
    history run.requested t = history run.received t ∧
      history run.completed t = history run.heard t ++ [(run.state t).data] ∧
      (history run.received t).length = (history run.completed t).length

end Registers

variable {run} {t : ℕ} {st : Stage}

theorem state_succ (t : ℕ) : run.state (t + 1) = Link.step (run.state t) (run.clk t) := rfl

theorem stage_succ (t : ℕ) : run.stage (t + 1) =
    (run.stage t).next (run.rises t) (run.falls t) (run.clk t).server (run.clk t).request.isSome
      (run.clk t).complete := rfl

theorem serverInLow_succ (t : ℕ) : run.serverInLow (t + 1) =
    if run.falls t then 0
    else if (run.clk t).server then run.serverInLow t + 1 else run.serverInLow t := rfl

theorem clientSince_succ (t : ℕ) : run.clientSince (t + 1) =
    if (run.clk t).server then 0
    else if run.rises t then run.clientSince t + 1 else run.clientSince t := rfl

/-! ### Events at a stage -/

/-- A request is found at one stage only. -/
theorem seen_of_holds (h : run.Holds t st) : Link.seen (run.state t) = (st == .crossing2) := by
  cases st <;> simp only [Holds, ServerRests] at h <;> grind [Link.seen]

/-- An answer is found at one stage only. -/
theorem heard_of_holds (h : run.Holds t st) : Link.heard (run.state t) = (st == .answering2) := by
  cases st <;> simp only [Holds, ClientRests, ClientWaits] at h <;> grind [Link.heard]

/-- How the two sides behave at a stage: the client asks only when it has found the answer,
the server answers, and changes its data, only for a request that it has found. -/
structure Behaves (run : LinkRun α β) (t : ℕ) (st : Stage) : Prop where
  ask : st ≠ .idle → st ≠ .answering2 → run.rises t = true → (run.clk t).request = none
  serve : st ≠ .crossing2 → st ≠ .serving → (run.clk t).server = true →
    (run.clk t).complete = false ∧ (run.clk t).data = none

/-- The registers follow the exchange. -/
theorem holds_succ (paced : run.Paced) (behaves : run.Behaves t st) (h : run.Holds t st) :
    run.Holds (t + 1) (st.next (run.rises t) (run.falls t) (run.clk t).server
      (run.clk t).request.isSome (run.clk t).complete) := by
  have low := paced.low t
  have high := paced.high t
  have start := paced.start t
  obtain ⟨ask, serve⟩ := behaves
  simp only [requested] at start
  -- one case for each stage: what the registers hold, and the bounds of the two clocks, give what
  -- they hold in the next one
  cases st with
  | idle =>
    simp only [Stage.next, Bool.and_eq_true]
    split_ifs <;>
    · simp only [Holds, ClientRests, ServerRests, Sampled, state_succ, clientSince_succ, Link.step,
        rises, falls, Link.rises, Link.falls] at *
      grind
  | asked =>
    simp only [Stage.next]
    split_ifs <;>
    · simp only [Holds, ClientRests, ClientWaits, ServerRests, Sampled, state_succ,
        serverInLow_succ, clientSince_succ, Link.step, rises, falls, Link.rises, Link.falls] at *
      grind
  | crossing0 =>
    simp only [Stage.next]
    split_ifs <;>
    · simp only [Holds, ClientWaits, ServerRests, state_succ, serverInLow_succ, Link.step, rises,
        falls, Link.rises, Link.falls] at *
      grind
  | crossing1 =>
    simp only [Stage.next]
    split_ifs <;>
    · simp only [Holds, ClientWaits, state_succ, serverInLow_succ, Link.step, rises, falls,
        Link.rises, Link.falls] at *
      grind
  | crossing2 =>
    simp only [Stage.next]
    split_ifs <;>
    · simp only [Holds, ClientWaits, ServerRests, state_succ, serverInLow_succ, Link.step, rises,
        falls, Link.rises, Link.falls] at *
      grind
  | serving =>
    simp only [Stage.next, Bool.and_eq_true]
    split_ifs <;>
    · simp only [Holds, ClientWaits, ServerRests, state_succ, serverInLow_succ, Link.step, rises,
        falls, Link.rises, Link.falls] at *
      grind
  | answering0 =>
    simp only [Stage.next]
    split_ifs <;>
    · simp only [Holds, ClientWaits, ServerRests, Sampled, state_succ, serverInLow_succ,
        clientSince_succ, Link.step, rises, falls, Link.rises, Link.falls] at *
      grind
  | answering1 =>
    simp only [Stage.next]
    split_ifs <;>
    · simp only [Holds, ServerRests, Sampled, state_succ, clientSince_succ, Link.step, rises,
        falls, Link.rises, Link.falls] at *
      grind
  | answering2 =>
    simp only [Stage.next]
    split_ifs <;>
    · simp only [Holds, ClientRests, ServerRests, Sampled, state_succ, clientSince_succ, Link.step,
        rises, falls, Link.rises, Link.falls] at *
      grind

/-! ### The two sides -/

theorem received_of_holds (h : run.Holds t st) : run.received t =
    if (run.clk t).server && st == .crossing2 then some (run.state t).payloadStable else none := by
  rw [received, seen_of_holds h]

theorem heard_eq_of_holds (h : run.Holds t st) : run.heard t =
    if run.rises t && st == .answering2 then some (run.state t).dataStable else none := by
  rw [heard, heard_of_holds h]

/-- Either the client asks and takes the payload over, or it does not. -/
theorem requested_cases (run : LinkRun α β) (t : ℕ) :
    (run.requested t = none ∧ (run.state (t + 1)).payload = (run.state t).payload ∧
        (run.rises t && (run.clk t).request.isSome) = false) ∨
      ∃ x, run.requested t = some x ∧ (run.state (t + 1)).payload = x ∧ run.rises t = true ∧
        (run.clk t).request.isSome = true := by
  have hpayload : (run.state (t + 1)).payload =
      if run.rises t then (run.clk t).request.getD (run.state t).payload
      else (run.state t).payload := rfl
  rw [requested, hpayload]
  cases hrise : run.rises t with
  | false => exact .inl ⟨rfl, rfl, rfl⟩
  | true =>
    cases hreq : (run.clk t).request with
    | none => exact .inl ⟨rfl, rfl, rfl⟩
    | some x => exact .inr ⟨x, rfl, rfl, rfl, rfl⟩

/-- Either the server answers with the data it then holds, or it does not. -/
theorem completed_cases (run : LinkRun α β) (t : ℕ) :
    (run.completed t = none ∧ ((run.clk t).server && (run.clk t).complete) = false) ∨
      (run.completed t = some (run.state (t + 1)).data ∧ (run.clk t).server = true ∧
        (run.clk t).complete = true) := by
  have hdata : (run.state (t + 1)).data =
      if (run.clk t).server then (run.clk t).data.getD (run.state t).data
      else (run.state t).data := rfl
  rw [completed, hdata]
  cases hserver : (run.clk t).server with
  | false => exact .inl ⟨rfl, rfl⟩
  | true =>
    cases hcom : (run.clk t).complete with
    | false => exact .inl ⟨rfl, rfl⟩
    | true => exact .inr ⟨rfl, rfl, rfl⟩

/-- Outside of an exchange the server neither answers nor changes its data. -/
theorem quiet_of_behaves (behaves : run.Behaves t st) (hcross : st ≠ .crossing2)
    (hserving : st ≠ .serving) :
    run.completed t = none ∧ (run.state (t + 1)).data = (run.state t).data := by
  have hdata : (run.state (t + 1)).data =
      if (run.clk t).server then (run.clk t).data.getD (run.state t).data
      else (run.state t).data := rfl
  rw [completed, hdata]
  cases hserver : (run.clk t).server with
  | false => exact ⟨rfl, rfl⟩
  | true =>
    obtain ⟨hcom, hnone⟩ := behaves.serve hcross hserving hserver
    rw [hcom, hnone]
    exact ⟨rfl, rfl⟩

/-- Within an exchange the client does not ask. -/
theorem unasked_of_behaves (behaves : run.Behaves t st) (hidle : st ≠ .idle)
    (hanswering : st ≠ .answering2) :
    run.requested t = none ∧ (run.state (t + 1)).payload = (run.state t).payload := by
  rcases requested_cases run t with ⟨hreq, hpayload, -⟩ | ⟨x, -, -, hrise, hsome⟩
  · exact ⟨hreq, hpayload⟩
  · rw [behaves.ask hidle hanswering hrise] at hsome
    exact absurd hsome Bool.false_ne_true

theorem tally_succ (behaves : run.Behaves t st) (h : run.Holds t st) (tally : run.Tally t st) :
    run.Tally (t + 1) (st.next (run.rises t) (run.falls t) (run.clk t).server
      (run.clk t).request.isSome (run.clk t).complete) := by
  have hreceived := received_of_holds h
  have hheard := heard_eq_of_holds h
  cases st with
  -- a request is asked for, or nothing happens
  | idle =>
    obtain ⟨hcom, -⟩ := quiet_of_behaves behaves (by decide) (by decide)
    obtain ⟨h1, h2, h3⟩ := tally
    rcases requested_cases run t with ⟨hreq, -, hno⟩ | ⟨x, hreq, hpayload, hrise, hsome⟩
    · simp [Stage.next, hno, Tally, history_succ, hreq, hreceived, hheard, hcom, h1, h2, h3]
    · simp [Stage.next, hrise, hsome, Tally, history_succ, hreq, hpayload, hreceived, hheard, hcom,
        h1, h2, h3]
  -- the request is on its way: nothing is found or completed
  | asked | crossing0 | crossing1 =>
    obtain ⟨hcom, -⟩ := quiet_of_behaves behaves (by decide) (by decide)
    obtain ⟨hreq, hpayload⟩ := unasked_of_behaves behaves (by decide) (by decide)
    obtain ⟨h1, h2, h3⟩ := tally
    rw [Stage.next]
    split_ifs <;>
      simp [Tally, history_succ, hreq, hpayload, hreceived, hheard, hcom, h1, h2, h3]
  -- the server finds the request, and may complete it at once
  | crossing2 =>
    obtain ⟨hreq, hpayload⟩ := unasked_of_behaves behaves (by decide) (by decide)
    obtain ⟨-, -, -, -, -, -, hstable, -⟩ := h
    obtain ⟨h1, h2, h3⟩ := tally
    rcases completed_cases run t with ⟨hcom, hno⟩ | ⟨hcom, hserver, hdone⟩
    · rcases hs : (run.clk t).server with _ | _
      · simp [Stage.next, hs, Tally, history_succ, hreq, hpayload, hreceived, hheard, hcom, h1, h2,
          h3]
      · have hdone : (run.clk t).complete = false := by
          rw [hs] at hno
          exact hno
        simp [Stage.next, hs, hdone, Tally, history_succ, hreq, hpayload, hreceived, hstable,
          hheard, hcom, h1, h2, h3]
    · simp [Stage.next, hserver, hdone, Tally, history_succ, hreq, hreceived, hstable, hheard,
        hcom, h1, h2, h3]
  -- the request that was found is completed, or served on
  | serving =>
    obtain ⟨hreq, hpayload⟩ := unasked_of_behaves behaves (by decide) (by decide)
    obtain ⟨h1, ⟨before, hbefore⟩, h2, h3⟩ := tally
    rcases completed_cases run t with ⟨hcom, hno⟩ | ⟨hcom, hserver, hdone⟩
    · rw [Stage.next, if_neg (by rw [hno]; decide)]
      refine ⟨?_, ⟨before, ?_⟩, ?_, ?_⟩ <;>
        simp [history_succ, hreq, hpayload, hreceived, hheard, hcom, h1, h2, hbefore] at h3 ⊢
      exact h3
    · simp [Stage.next, hserver, hdone, Tally, history_succ, hreq, hreceived, hheard, hcom, h1, h2,
        h3]
  -- the answer is on its way
  | answering0 | answering1 =>
    obtain ⟨hcom, hdata⟩ := quiet_of_behaves behaves (by decide) (by decide)
    obtain ⟨hreq, hpayload⟩ := unasked_of_behaves behaves (by decide) (by decide)
    obtain ⟨h1, h2, h3⟩ := tally
    rw [Stage.next]
    split_ifs <;>
      simp [Tally, history_succ, hreq, hdata, hreceived, hheard, hcom, h1, h2, h3]
  -- the client hears the answer, and may ask again at once
  | answering2 =>
    obtain ⟨hcom, hdata⟩ := quiet_of_behaves behaves (by decide) (by decide)
    obtain ⟨-, -, -, -, -, -, -, -, hstable⟩ := h
    obtain ⟨h1, h2, h3⟩ := tally
    rcases requested_cases run t with ⟨hreq, hpayload, hno⟩ | ⟨x, hreq, hpayload, hrise, hsome⟩
    · rcases hr : run.rises t with _ | _
      · simp [Stage.next, hr, Tally, history_succ, hreq, hreceived, hheard, hcom, hdata, h1, h2, h3]
      · have hnone : (run.clk t).request.isSome = false := by
          rw [hr] at hno
          exact hno
        simp [Stage.next, hr, hnone, Tally, history_succ, hreq, hreceived, hheard, hstable, hcom,
          h1, h2, h3]
    · simp [Stage.next, hrise, hsome, Tally, history_succ, hreq, hpayload, hreceived, hheard,
        hstable, hcom, h1, h2, h3]

/-! ### Whole runs -/

theorem at_start : run.Holds 0 (run.stage 0) ∧ run.Tally 0 (run.stage 0) := by
  constructor
  · simp [stage, Holds, state, start, ClientRests, ServerRests]
  · simp [stage, Tally, history]

/-- What the two sides keep while the registers follow the exchange holds throughout, and
with it the exchange. -/
theorem behaves_of_invariant {invariant : ℕ → Prop} (paced : run.Paced) (init : invariant 0)
    (keep : ∀ t, invariant t → run.Holds t (run.stage t) →
      run.Behaves t (run.stage t) ∧ invariant (t + 1)) (t : ℕ) :
    run.Behaves t (run.stage t) ∧ invariant t := by
  have all : invariant t ∧ run.Holds t (run.stage t) := by
    induction t with
    | zero => exact ⟨init, at_start.1⟩
    | succ t ih =>
      obtain ⟨behaves, next⟩ := keep t ih.1 ih.2
      exact ⟨next, holds_succ paced behaves ih.2⟩
  exact ⟨(keep t all.1 all.2).1, all.1⟩

/-- At every instant the registers are those of the stage. -/
theorem at_stage (paced : run.Paced) (behaves : ∀ t, run.Behaves t (run.stage t)) (t : ℕ) :
    run.Holds t (run.stage t) ∧ run.Tally t (run.stage t) := by
  induction t with
  | zero => exact at_start
  | succ t ih =>
    exact ⟨holds_succ paced (behaves t) ih.1, tally_succ (behaves t) ih.1 ih.2⟩

/-- The exchange before instant `t`. -/
theorem exchanges (paced : run.Paced) (behaves : ∀ t, run.Behaves t (run.stage t)) :
    Exchanges run.requested run.received (fun t => (run.state t).payloadStable) run.completed
      run.heard := by
  intro t
  obtain ⟨h, tally⟩ := at_stage paced behaves t
  -- in each stage the tally says which of the histories is ahead, and by how much
  cases hst : run.stage t with
  | idle =>
    rw [hst] at tally
    obtain ⟨h1, h2, h3⟩ := tally
    constructor
    · rw [h1]
    · rw [h2]
    · exact h3.ge
    · rw [h1, h3, h2]
      exact Nat.le_succ _
    · intro before x _ hlt
      omega
  | asked | crossing0 | crossing1 | crossing2 =>
    rw [hst] at tally
    obtain ⟨h1, h2, h3⟩ := tally
    constructor
    · rw [h1]
      exact List.prefix_append _ _
    · rw [h2]
    · exact h3.ge
    · rw [h1, List.length_append, h3, h2, List.length_singleton]
    · intro before x _ hlt
      omega
  -- the payload that is found last is still on the lines
  | serving =>
    rw [hst] at h tally
    obtain ⟨-, -, -, -, -, -, hstable, -⟩ := h
    obtain ⟨h1, ⟨before, hbefore⟩, h2, h3⟩ := tally
    constructor
    · rw [h1]
    · rw [h2]
    · omega
    · rw [h1, h3, h2]
    · intro before' x hx _
      rw [hbefore] at hx
      rw [hstable]
      exact List.singleton_inj.mp (List.append_inj' hx rfl).2
  | answering0 | answering1 | answering2 =>
    rw [hst] at tally
    obtain ⟨h1, h2, h3⟩ := tally
    constructor
    · rw [h1]
    · rw [h2]
      exact List.prefix_append _ _
    · exact h3.ge
    · rw [h1, h3, h2, List.length_append, List.length_singleton]
    · intro before x _ hlt
      omega

/-! ### Progress -/

/-- Both clocks go on. -/
structure Ticks (run : LinkRun α β) : Prop where
  client : ∀ t, ∃ u ≥ t, (run.clk u).client = true
  server : ∀ t, ∃ u ≥ t, (run.clk u).server = true

/-- A stage that waits for an event lasts until it comes. -/
theorem stage_until {event : ℕ → Bool} (comes : ∃ u ≥ t, event u = true) (here : run.stage t = st)
    (waits : ∀ u, run.stage u = st → event u = false → run.stage (u + 1) = st) :
    ∃ u ≥ t, event u = true ∧ run.stage u = st := by
  obtain ⟨hle, hevent⟩ := Nat.find_spec comes
  have first : ∀ v, t ≤ v → v ≤ Nat.find comes → run.stage v = st := by
    intro v hv
    induction v, hv using Nat.le_induction with
    | base => exact fun _ => here
    | succ v hv ih =>
      intro hlt
      refine waits v (ih ((Nat.le_succ v).trans hlt)) ?_
      by_contra hne
      exact Nat.find_min comes hlt ⟨hv, Bool.not_eq_false _ ▸ hne⟩
  exact ⟨Nat.find comes, hle, hevent, first _ hle le_rfl⟩

theorem falls_eq_client (h : (run.state t).high = true) : run.falls t = (run.clk t).client := by
  rw [falls, Link.falls, h, Bool.and_true]

theorem high_succ (t : ℕ) :
    (run.state (t + 1)).high = ((run.state t).high ^^ (run.clk t).client) := rfl

/-- A clock that goes on rises again. -/
theorem exists_rises (goes : ∀ t, ∃ u ≥ t, (run.clk u).client = true) (t : ℕ) :
    ∃ u ≥ t, run.rises u = true := by
  obtain ⟨u, hle, hu⟩ := goes t
  rcases hhigh : (run.state u).high with _ | _
  · exact ⟨u, hle, by rw [rises, Link.rises, hu, hhigh]; rfl⟩
  · -- the edge was a fall, and the level stays low until the next one
    have hlow : (run.state (u + 1)).high = false := by rw [high_succ, hu, hhigh]; rfl
    have comes := goes (u + 1)
    obtain ⟨hle', hv⟩ := Nat.find_spec comes
    have stays : ∀ v, u + 1 ≤ v → v ≤ Nat.find comes → (run.state v).high = false := by
      intro v hv
      induction v, hv using Nat.le_induction with
      | base => exact fun _ => hlow
      | succ v hv ih =>
        intro hlt
        have hno : (run.clk v).client = false := by
          by_contra hne
          exact Nat.find_min comes hlt ⟨hv, Bool.not_eq_false _ ▸ hne⟩
        rw [high_succ, ih ((Nat.le_succ v).trans hlt), hno]
        rfl
    refine ⟨Nat.find comes, by omega, ?_⟩
    rw [rises, Link.rises, hv, stays _ hle' le_rfl]
    rfl

/-- Clocks with the same rising edges keep pace. -/
theorem paced_of_together (client : ∀ t, (run.clk t).client = true)
    (together : ∀ t, (run.clk t).server = run.rises t) : run.Paced ∧ run.Ticks := by
  have since : ∀ t, run.clientSince t = 0 := by
    intro t
    induction t with
    | zero => rfl
    | succ t ih =>
      rw [clientSince_succ, together, ih]
      split_ifs <;> rfl
  -- the edge before a low clock was a fall
  have inLow : ∀ t, run.rises t = true → run.serverInLow t = 0 := by
    intro t hrise
    cases t with
    | zero => rfl
    | succ t =>
      have low : (run.state (t + 1)).high = false := by
        rw [rises, Link.rises, client] at hrise
        simpa using hrise
      rw [high_succ, client, Bool.xor_true, Bool.not_eq_eq_eq_not, Bool.not_false] at low
      rw [serverInLow_succ, falls_eq_client low, client, if_pos rfl]
  refine ⟨⟨fun t hrise => ?_, fun t _ => .inr ?_, fun t some => ?_⟩, ?_, fun t => ?_⟩
  · rw [inLow t hrise]
    exact Nat.zero_le 2
  · rw [since t]
    exact Nat.zero_le 2
  · refine ⟨t, le_rfl, ?_⟩
    rw [requested] at some
    rw [together]
    by_contra no
    rw [if_neg no] at some
    exact absurd some Bool.false_ne_true
  · exact fun t => ⟨t, le_rfl, client t⟩
  · obtain ⟨u, le, hrise⟩ := exists_rises (fun t => ⟨t, le_rfl, client t⟩) t
    exact ⟨u, le, (together u).trans hrise⟩

section Progress

variable (paced : run.Paced) (behaves : ∀ t, run.Behaves t (run.stage t))
  (ticks : run.Ticks)

include paced behaves ticks

/-- Every request is found. -/
theorem arrives_received : Arrives run.requested run.received := by
  intro t
  have mono : ∀ {u}, t ≤ u → history run.requested t <+: history run.requested u :=
    fun hle => history_mono hle
  -- once the server serves, all that was asked has been found
  have served : ∀ u ≥ t, run.stage u = .crossing2 → (run.clk u).server = true →
      ∃ u ≥ t, history run.requested t <+: history run.received u := by
    intro u hle hst hserver
    obtain ⟨-, tally⟩ := at_stage paced behaves (u + 1)
    refine ⟨u + 1, hle.trans (Nat.le_succ u), ?_⟩
    have hnext : run.stage (u + 1) = _ := stage_succ u
    rw [hst, Stage.next, if_pos hserver] at hnext
    have heq : history run.requested (u + 1) = history run.received (u + 1) := by
      rw [hnext] at tally
      split_ifs at tally
      · exact tally.1
      · exact tally.1
    exact heq ▸ mono (hle.trans (Nat.le_succ u))
  -- and each stage before is left with the next edge of the clock it waits for
  have crossing2 : ∀ u ≥ t, run.stage u = .crossing2 →
      ∃ u ≥ t, history run.requested t <+: history run.received u := by
    intro u hle hst
    obtain ⟨v, hv, hserver, hst'⟩ := stage_until (ticks.server u) hst fun w hw hno => by
      rw [stage_succ, hw, hno]
      rfl
    exact served v (hle.trans hv) hst' hserver
  have crossing1 : ∀ u ≥ t, run.stage u = .crossing1 →
      ∃ u ≥ t, history run.requested t <+: history run.received u := by
    intro u hle hst
    obtain ⟨v, hv, hserver, hst'⟩ := stage_until (ticks.server u) hst fun w hw hno => by
      rw [stage_succ, hw, hno]
      rfl
    refine crossing2 (v + 1) (hle.trans (hv.trans (Nat.le_succ v))) ?_
    rw [stage_succ, hst', hserver]
    rfl
  have crossing0 : ∀ u ≥ t, run.stage u = .crossing0 →
      ∃ u ≥ t, history run.requested t <+: history run.received u := by
    intro u hle hst
    obtain ⟨v, hv, hserver, hst'⟩ := stage_until (ticks.server u) hst fun w hw hno => by
      rw [stage_succ, hw, hno]
      rfl
    refine crossing1 (v + 1) (hle.trans (hv.trans (Nat.le_succ v))) ?_
    rw [stage_succ, hst', hserver]
    rfl
  obtain ⟨h, tally⟩ := at_stage paced behaves t
  cases hst : run.stage t with
  | idle | serving | answering0 | answering1 | answering2 =>
    rw [hst] at tally
    exact ⟨t, le_rfl, tally.1 ▸ List.prefix_rfl⟩
  | crossing0 => exact crossing0 t le_rfl hst
  | crossing1 => exact crossing1 t le_rfl hst
  | crossing2 => exact crossing2 t le_rfl hst
  -- the request goes over with the next falling edge of the client
  | asked =>
    obtain ⟨v, hv, hclient, hst'⟩ := stage_until (ticks.client t) hst fun w hw hno => by
      have hfall : run.falls w = false := by rw [falls, Link.falls, hno, Bool.false_and]
      rw [stage_succ, hw, hfall]
      rfl
    have hfalls : run.falls v = true := by
      have hholds := (at_stage paced behaves v).1
      rw [hst'] at hholds
      rw [falls_eq_client hholds.1, hclient]
    refine crossing0 (v + 1) (hv.trans (Nat.le_succ v)) ?_
    rw [stage_succ, hst', hfalls]
    rfl

/-- Every answer is found. -/
theorem arrives_heard : Arrives run.completed run.heard := by
  intro t
  -- with the answer sampled twice the client hears it at its next edge
  have answering2 : ∀ u ≥ t, run.stage u = .answering2 →
      ∃ u ≥ t, history run.completed t <+: history run.heard u := by
    intro u hle hst
    obtain ⟨v, hv, hrise, hst'⟩ := stage_until (exists_rises ticks.client u) hst fun w hw hno => by
      rw [stage_succ, hw, hno]
      rfl
    have hle' : t ≤ v + 1 := hle.trans (hv.trans (Nat.le_succ v))
    obtain ⟨-, tally⟩ := at_stage paced behaves (v + 1)
    refine ⟨v + 1, hle', ?_⟩
    have hnext : run.stage (v + 1) = _ := stage_succ v
    rw [hst', Stage.next, if_pos hrise] at hnext
    have heq : history run.completed (v + 1) = history run.heard (v + 1) := by
      rw [hnext] at tally
      split_ifs at tally
      · exact tally.2.1
      · exact tally.2.1
    exact heq ▸ history_mono hle'
  have answering1 : ∀ u ≥ t, run.stage u = .answering1 →
      ∃ u ≥ t, history run.completed t <+: history run.heard u := by
    intro u hle hst
    obtain ⟨v, hv, hrise, hst'⟩ := stage_until (exists_rises ticks.client u) hst fun w hw hno => by
      rw [stage_succ, hw, hno]
      rfl
    refine answering2 (v + 1) (hle.trans (hv.trans (Nat.le_succ v))) ?_
    rw [stage_succ, hst', hrise]
    rfl
  obtain ⟨h, tally⟩ := at_stage paced behaves t
  cases hst : run.stage t with
  | idle | asked | crossing0 | crossing1 | crossing2 =>
    rw [hst] at tally
    exact ⟨t, le_rfl, tally.2.1 ▸ List.prefix_rfl⟩
  -- nothing is completed that has not been heard before
  | serving =>
    rw [hst] at tally
    exact ⟨t, le_rfl, tally.2.2.1 ▸ List.prefix_rfl⟩
  | answering2 => exact answering2 t le_rfl hst
  | answering1 => exact answering1 t le_rfl hst
  | answering0 =>
    obtain ⟨v, hv, hrise, hst'⟩ := stage_until (exists_rises ticks.client t) hst fun w hw hno => by
      rw [stage_succ, hw, hno]
      rfl
    refine answering1 (v + 1) (hv.trans (Nat.le_succ v)) ?_
    rw [stage_succ, hst', hrise]
    rfl

end Progress

end LinkRun

end JCore
