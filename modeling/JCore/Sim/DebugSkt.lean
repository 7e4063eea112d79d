import JCore.Lib.Backlog
import Mathlib.Data.BitVec

/-!
# The debug socket

The simulator's end of the debugger's connection: `recv_buf`, a buffer whose
occupied region slides to the right, and `debug_skt_handle`, which the simulation
polls. A call that receives bytes appends them and takes at most one message of
eight bytes from the front.

## Main definitions

* `RecvBuf`: the buffer, with the offsets of its head and tail
* `handle`: `debug_skt_handle`, on what the socket calls return
* `run`: successive calls
* `decode`: what a message asks for

## Main results

* `handle_refines`: a call against the bytes in the buffer
* `delivered_iff`: when all messages of a connection come through
* `delivered_burst`: two messages in one `recv`, of which the second stays
-/

namespace JCore.DebugSkt

/-- A byte. -/
abbrev Byte := BitVec 8

def recvBufLen : ℕ := 1024

/-- The receive buffer: the pointers are offsets into `buf`, which has a byte more
than the buffer's length. -/
structure RecvBuf where
  head : ℕ
  tail : ℕ
  buf : List Byte
  deriving DecidableEq, Repr

namespace RecvBuf

variable (b : RecvBuf)

/-- `recv_buf_init`, over whatever the memory holds. -/
def init (memory : List Byte) : RecvBuf := { head := 0, tail := 0, buf := memory }

/-- `recv_buf_len`. -/
def len : ℕ := b.tail - b.head

/-- `recv_buf_get_empty_buf`: an occupied region that touches the right edge moves
to the left. The empty region starts at the tail. -/
def getEmptyBuf : RecvBuf :=
  if b.tail = recvBufLen ∧ 0 < b.head then
    { head := 0, tail := b.tail - b.head, buf := (b.buf.drop b.head).take b.len ++ b.buf.drop b.len }
  else b

/-- The length of the empty region. -/
def room : ℕ := recvBufLen - b.tail

/-- The bytes that `recv` writes into the empty region. -/
def write (bytes : List Byte) : RecvBuf :=
  { b with buf := b.buf.take b.tail ++ bytes ++ b.buf.drop (b.tail + bytes.length) }

/-- `recv_buf_added`. -/
def added (n : ℕ) : RecvBuf := { b with tail := b.tail + n }

/-- `recv_buf_take`. -/
def take (n : ℕ) : RecvBuf := { b with head := b.head + n }

/-- The terminator behind the received bytes. -/
def terminate : RecvBuf := { b with buf := b.buf.set b.tail 0 }

/-- The bytes between head and tail. -/
def content : List Byte := (b.buf.drop b.head).take b.len

end RecvBuf

/-- The commands of a debug request, in the order of the source. -/
inductive DebugCmd where
  | break | step | insert | continue
  deriving DecidableEq, Repr

structure DebugRequest where
  cmd : DebugCmd
  instr : BitVec 16
  data : BitVec 32
  dataEn : ℤ
  deriving DecidableEq, Repr

/-- What `recv` returns. -/
inductive Recv where
  | data (bytes : List Byte)
  | again
  | closed
  | error
  deriving DecidableEq, Repr

/-- What the socket calls of one poll return. -/
structure Poll where
  accepted : Bool
  nonblock : Bool
  recv : Recv
  deriving DecidableEq, Repr

/-- The socket: whether there is a connection, and the buffer. -/
structure Skt where
  conn : Bool
  buf : RecvBuf
  deriving DecidableEq, Repr

/-- What a call tells its caller. -/
structure HandleO where
  request : Option DebugRequest
  doNotify : Bool
  deriving DecidableEq, Repr

def nothing : HandleO := { request := none, doNotify := false }

/-- The command that the first byte of a message names. -/
def cmdOf (first : Byte) : Option DebugCmd :=
  match first.toInt with
  | 0 => some .break
  | 1 => some .step
  | 2 => some .insert
  | 3 => some .continue
  | _ => none

/-- The message at the head of the buffer; the fields are in network order. -/
def parse (head : List Byte) : HandleO :=
  match cmdOf (head.getD 0 0) with
  | some cmd =>
    { request := some
        { cmd := cmd, dataEn := (head.getD 1 0).toInt, instr := head.getD 2 0 ++ head.getD 3 0,
          data := head.getD 4 0 ++ head.getD 5 0 ++ head.getD 6 0 ++ head.getD 7 0 }
      doNotify := false }
  -- a request for a notification when in debug mode
  | none => { request := none, doNotify := (head.getD 0 0).toInt == 4 }

/-- `debug_skt_handle`. -/
def handle (skt : Skt) (poll : Poll) : Skt × HandleO :=
  if skt.conn = false then
    -- a connection that cannot be made nonblocking is closed again
    ({ skt with conn := poll.accepted && poll.nonblock }, nothing)
  else
    let b := skt.buf.getEmptyBuf
    if 0 < b.room then
      match poll.recv with
      | .error => ({ conn := false, buf := b }, nothing)
      | .closed => ({ conn := false, buf := b }, nothing)
      | .again => ({ skt with buf := b }, nothing)
      | .data bytes =>
        let b := ((b.write bytes).added bytes.length).terminate
        if 8 ≤ b.len then
          ({ skt with buf := b.take 8 }, parse (b.buf.drop b.head))
        else ({ skt with buf := b }, nothing)
    else ({ skt with buf := b }, nothing)

/-- Successive calls, with what they told the caller. -/
def run (skt : Skt) : List Poll → Skt × List HandleO
  | [] => (skt, [])
  | poll :: rest =>
    let first := handle skt poll
    let others := run first.1 rest
    (others.1, first.2 :: others.2)

/-- A freshly accepted connection. -/
def accepted (memory : List Byte) : Skt := { conn := true, buf := .init memory }

/-! ### The buffer -/

namespace RecvBuf

variable {b : RecvBuf}

/-- The pointers lie in order inside the buffer. -/
structure InBounds (b : RecvBuf) : Prop where
  length : b.buf.length = recvBufLen + 1
  order : b.head ≤ b.tail
  inside : b.tail ≤ recvBufLen

/-- Between two calls an empty region is left, or there is room before the head. -/
structure WellFormed (b : RecvBuf) : Prop extends InBounds b where
  room : b.head = 0 → b.tail < recvBufLen

theorem wellFormed_init {memory : List Byte} (h : memory.length = recvBufLen + 1) :
    (init memory).WellFormed where
  length := h
  order := le_rfl
  inside := Nat.zero_le _
  room _ := show 0 < recvBufLen by decide

@[simp] theorem content_init (memory : List Byte) : (init memory).content = [] := by
  simp [content, init, len]

theorem length_content (h : b.InBounds) : b.content.length = b.len := by
  obtain ⟨hlen, horder, hin⟩ := h
  rw [content, List.length_take, List.length_drop, len]
  omega

/-- Moving the occupied region keeps what is in it. -/
theorem WellFormed.getEmptyBuf (h : b.WellFormed) :
    b.getEmptyBuf.WellFormed ∧ b.getEmptyBuf.content = b.content ∧ 0 < b.getEmptyBuf.room := by
  have hcontent := length_content h.toInBounds
  obtain ⟨⟨hlen, horder, hin⟩, hroom⟩ := h
  rw [RecvBuf.getEmptyBuf]
  split_ifs with hmove
  · obtain ⟨htail, hhead⟩ := hmove
    refine ⟨⟨⟨?_, Nat.zero_le _, ?_⟩, fun _ => ?_⟩, ?_, ?_⟩
    · rw [List.length_append, ← content, hcontent, List.length_drop, len]
      omega
    · exact (Nat.sub_le _ _).trans hin
    · show b.tail - b.head < recvBufLen
      omega
    · show (((b.content ++ b.buf.drop b.len).drop 0).take (b.tail - b.head - 0)) = b.content
      rw [List.drop_zero, Nat.sub_zero, ← len, ← hcontent, List.take_left]
    · show 0 < recvBufLen - (b.tail - b.head)
      omega
  · refine ⟨⟨⟨hlen, horder, hin⟩, hroom⟩, rfl, ?_⟩
    rw [RecvBuf.room]
    rcases Nat.eq_zero_or_pos b.head with hzero | hpos
    · have := hroom hzero
      omega
    · have : b.tail ≠ recvBufLen := fun h => hmove ⟨h, hpos⟩
      omega

theorem content_eq (b : RecvBuf) : b.content = (b.buf.take b.tail).drop b.head := by
  rw [content, len, List.drop_take]

/-- The buffer after bytes were received, with the terminator behind them. -/
def received (b : RecvBuf) (bytes : List Byte) : RecvBuf :=
  ((b.write bytes).added bytes.length).terminate

/-- Bytes that fit come behind the content. -/
theorem WellFormed.received {bytes : List Byte} (h : b.WellFormed) (fits : bytes.length ≤ b.room) :
    (b.received bytes).content = b.content ++ bytes ∧ (b.received bytes).InBounds := by
  obtain ⟨⟨hlen, horder, hin⟩, -⟩ := h
  rw [RecvBuf.room] at fits
  have htake : (b.buf.take b.tail).length = b.tail := by
    rw [List.length_take]
    omega
  refine ⟨?_, ?_, horder.trans (Nat.le_add_right _ _), ?_⟩
  · rw [content_eq, content_eq]
    show ((List.set (b.buf.take b.tail ++ bytes ++ b.buf.drop (b.tail + bytes.length))
      (b.tail + bytes.length) 0).take (b.tail + bytes.length)).drop b.head = _
    rw [List.take_set_of_le le_rfl, List.take_left' (by rw [List.length_append, htake]),
      List.drop_append_of_le_length (by omega)]
  · show (List.set (b.buf.take b.tail ++ bytes ++ b.buf.drop (b.tail + bytes.length))
      (b.tail + bytes.length) 0).length = _
    rw [List.length_set, List.length_append, List.length_append, htake, List.length_drop]
    omega
  · show b.tail + bytes.length ≤ recvBufLen
    omega

theorem content_take (b : RecvBuf) (n : ℕ) : (b.take n).content = b.content.drop n := by
  rw [content_eq, content_eq, List.drop_drop]
  rfl

end RecvBuf

/-! ### A call against the bytes in the buffer -/

/-- Only the first eight bytes of the buffer matter to a message. -/
theorem parse_take (head : List Byte) {n : ℕ} (h : 8 ≤ n) : parse (head.take n) = parse head := by
  have hget (i : ℕ) (hi : i < 8) : (head.take n).getD i 0 = head.getD i 0 := by
    rw [List.getD_eq_getElem?_getD, List.getD_eq_getElem?_getD, List.getElem?_take_of_lt (by omega)]
  simp only [parse, hget 0 (by decide), hget 1 (by decide), hget 2 (by decide), hget 3 (by decide),
    hget 4 (by decide), hget 5 (by decide), hget 6 (by decide), hget 7 (by decide)]

/-- The socket is connected and these bytes wait in its buffer. -/
structure Holds (skt : Skt) (bytes : List Byte) : Prop where
  conn : skt.conn = true
  wellFormed : skt.buf.WellFormed
  content : skt.buf.content = bytes

variable {skt : Skt} {bytes chunk : List Byte} {poll : Poll}

theorem holds_accepted {memory : List Byte} (h : memory.length = recvBufLen + 1) :
    Holds (accepted memory) [] :=
  ⟨rfl, RecvBuf.wellFormed_init h, RecvBuf.content_init memory⟩

/-- A poll without data changes nothing. -/
theorem Holds.again (h : Holds skt bytes) (again : poll.recv = .again) :
    Holds (handle skt poll).1 bytes ∧ (handle skt poll).2 = nothing := by
  obtain ⟨hwf, hcontent, hroom⟩ := h.wellFormed.getEmptyBuf
  rw [handle, if_neg (by simp [h.conn]), if_pos hroom, again]
  exact ⟨⟨h.conn, hwf, hcontent.trans h.content⟩, rfl⟩

/-- A poll with data appends it and takes one message if there is one. -/
theorem Holds.data (h : Holds skt bytes) (data : poll.recv = .data chunk)
    (fits : chunk.length ≤ skt.buf.getEmptyBuf.room) :
    if 8 ≤ (bytes ++ chunk).length then
      Holds (handle skt poll).1 ((bytes ++ chunk).drop 8) ∧
        (handle skt poll).2 = parse ((bytes ++ chunk).take 8)
    else Holds (handle skt poll).1 (bytes ++ chunk) ∧ (handle skt poll).2 = nothing := by
  obtain ⟨hwf, hcontent, hroom⟩ := h.wellFormed.getEmptyBuf
  obtain ⟨hreceived, hbounds⟩ := hwf.received fits
  have hlen := RecvBuf.length_content hbounds
  rw [hcontent, h.content] at hreceived
  rw [hreceived] at hlen
  -- a whole message is handed on when eight bytes are there
  have hhandle : handle skt poll =
      if 8 ≤ (skt.buf.getEmptyBuf.received chunk).len then
        ({ skt with buf := (skt.buf.getEmptyBuf.received chunk).take 8 },
          parse ((skt.buf.getEmptyBuf.received chunk).buf.drop
            (skt.buf.getEmptyBuf.received chunk).head))
      else ({ skt with buf := skt.buf.getEmptyBuf.received chunk }, nothing) := by
    rw [handle, if_neg (by simp [h.conn]), if_pos hroom, data]
    rfl
  rw [hhandle, ← hlen]
  generalize skt.buf.getEmptyBuf.received chunk = b at hreceived hbounds hlen
  obtain ⟨hlength, horder, hin⟩ := hbounds
  split_ifs with hfull
  · refine ⟨⟨h.conn, ⟨⟨hlength, ?_, hin⟩, ?_⟩, ?_⟩, ?_⟩
    · show b.head + 8 ≤ b.tail
      rw [hlen, RecvBuf.len] at hfull
      omega
    · exact fun hzero => absurd hzero (by simp [RecvBuf.take])
    · rw [RecvBuf.content_take, hreceived]
    · rw [← hreceived, RecvBuf.content, parse_take _ le_rfl, parse_take _ (by omega)]
  -- fewer than eight bytes leave room in the buffer
  · refine ⟨⟨h.conn, ⟨⟨hlength, horder, hin⟩, fun hzero => ?_⟩, hreceived⟩, rfl⟩
    rw [hlen, RecvBuf.len] at hfull
    show b.tail < recvBufLen
    rw [recvBufLen]
    have : b.head = 0 := hzero
    omega

/-! ### Runs -/

/-- The bytes that the polls receive, one list for each `recv` with data. -/
def chunks (polls : List Poll) : List (List Byte) :=
  polls.filterMap fun poll => match poll.recv with
    | .data bytes => some bytes
    | _ => none

/-- What the socket can return to this poll while the connection stays: no data, or
some that fits in the region offered. -/
def Possible (skt : Skt) (poll : Poll) : Prop :=
  poll.recv = .again ∨
    ∃ bytes, poll.recv = .data bytes ∧ bytes ≠ [] ∧ bytes.length ≤ skt.buf.getEmptyBuf.room

/-- The polls of a connection that stays. -/
def Stays : Skt → List Poll → Prop
  | _, [] => True
  | skt, poll :: rest => Possible skt poll ∧ Stays (handle skt poll).1 rest

/-- Taking at most one message from the front for each chunk that comes: the bytes
left and the messages taken. -/
def collect (bytes : List Byte) : List (List Byte) → List Byte × List (List Byte)
  | [] => (bytes, [])
  | chunk :: rest =>
    if 8 ≤ (bytes ++ chunk).length then
      let others := collect ((bytes ++ chunk).drop 8) rest
      (others.1, (bytes ++ chunk).take 8 :: others.2)
    else collect (bytes ++ chunk) rest

/-- What a call tells its caller, if anything. -/
def told (out : HandleO) : Option HandleO := if out = nothing then none else some out

/-- The calls take the messages as the chunks come in, whatever the polls without
data between them. -/
theorem run_refines (h : Holds skt bytes) {polls : List Poll} (stays : Stays skt polls) :
    Holds (run skt polls).1 (collect bytes (chunks polls)).1 ∧
      (run skt polls).2.filterMap told =
        (collect bytes (chunks polls)).2.filterMap (fun message => told (parse message)) := by
  induction polls generalizing skt bytes with
  | nil => exact ⟨h, rfl⟩
  | cons poll rest ih =>
    obtain ⟨possible, stays⟩ := stays
    rcases possible with again | ⟨chunk, data, -, fits⟩
    · obtain ⟨hnext, hout⟩ := h.again again
      have hchunks : chunks (poll :: rest) = chunks rest := by simp [chunks, again]
      obtain ⟨hholds, htold⟩ := ih hnext stays
      refine ⟨by rw [hchunks]; exact hholds, ?_⟩
      rw [hchunks, ← htold, run, List.filterMap_cons, hout]
      rfl
    · have hdata := h.data data fits
      have hchunks : chunks (poll :: rest) = chunk :: chunks rest := by simp [chunks, data]
      rw [hchunks, collect]
      split_ifs at hdata ⊢ with hfull
      · obtain ⟨hnext, hout⟩ := hdata
        obtain ⟨hholds, htold⟩ := ih hnext stays
        refine ⟨hholds, ?_⟩
        rw [run, List.filterMap_cons, List.filterMap_cons, hout, htold]
      · obtain ⟨hnext, hout⟩ := hdata
        obtain ⟨hholds, htold⟩ := ih hnext stays
        refine ⟨hholds, ?_⟩
        rw [run, List.filterMap_cons, hout]
        exact htold

/-! ### Which messages are taken -/

/-- The first `n` messages of a byte string. -/
def messages (bytes : List Byte) (n : ℕ) : List (List Byte) :=
  (List.range n).map fun i => (bytes.drop (8 * i)).take 8

/-- The messages complete after `k` chunks. -/
def complete (cs : List (List Byte)) (k : ℕ) : ℕ := (cs.take k).flatten.length / 8

/-- The messages taken after all chunks. -/
def taken (cs : List (List Byte)) : ℕ := Backlog.served (complete cs) cs.length

theorem collect_append (cs more : List (List Byte)) :
    collect bytes (cs ++ more) =
      ((collect (collect bytes cs).1 more).1,
        (collect bytes cs).2 ++ (collect (collect bytes cs).1 more).2) := by
  induction cs generalizing bytes with
  | nil => rfl
  | cons c rest ih =>
    by_cases hfull : 8 ≤ (bytes ++ c).length
    · simp only [List.cons_append, collect, if_pos hfull, ih]
    · simp only [List.cons_append, collect, if_neg hfull, ih]

theorem taken_append (cs : List (List Byte)) :
    taken (cs ++ [chunk]) = min (taken cs + 1) ((cs ++ [chunk]).flatten.length / 8) := by
  have hcongr : Backlog.served (complete (cs ++ [chunk])) cs.length = taken cs := by
    apply Backlog.served_congr
    intro k hk
    rw [complete, complete, List.take_append_of_le_length hk]
  have hall : complete (cs ++ [chunk]) (cs.length + 1) = (cs ++ [chunk]).flatten.length / 8 := by
    rw [complete, List.take_of_length_le (by simp)]
  rw [taken, List.length_append, List.length_singleton, Backlog.served, hcongr, hall]

theorem taken_le (cs : List (List Byte)) : taken cs ≤ cs.flatten.length / 8 := by
  have h : Backlog.served (complete cs) cs.length ≤ _ := Backlog.served_le_arrived cs.length
  rwa [complete, List.take_length] at h

theorem messages_append (cs : List Byte) {n : ℕ} (h : n ≤ cs.length / 8) :
    messages (cs ++ chunk) n = messages cs n := by
  apply List.map_congr_left
  intro i hi
  have hlt := List.mem_range.mp hi
  rw [List.drop_append_of_le_length (by omega),
    List.take_append_of_le_length (by rw [List.length_drop]; omega)]

/-- The chunks' bytes, cut after the messages that were taken. -/
theorem collect_eq (cs : List (List Byte)) :
    collect [] cs = (cs.flatten.drop (8 * taken cs), messages cs.flatten (taken cs)) := by
  induction cs using List.reverseRecOn with
  | nil => rfl
  | append_singleton cs chunk ih =>
    have hle := taken_le cs
    have htaken : taken (cs ++ [chunk]) = _ := taken_append cs
    have hflat : (cs ++ [chunk]).flatten = cs.flatten ++ chunk := by simp
    have hlen : (cs.flatten ++ chunk).length = cs.flatten.length + chunk.length := List.length_append
    have hrest : cs.flatten.drop (8 * taken cs) ++ chunk =
        (cs.flatten ++ chunk).drop (8 * taken cs) := by
      rw [List.drop_append_of_le_length (by omega)]
    rw [collect_append, ih, collect, hrest, List.length_drop]
    rw [hflat] at htaken ⊢
    by_cases hfull : 8 ≤ (cs.flatten ++ chunk).length - 8 * taken cs
    · have hnext : taken (cs ++ [chunk]) = taken cs + 1 := by omega
      have hmessages : messages (cs.flatten ++ chunk) (taken cs) = _ := messages_append _ hle
      rw [if_pos hfull, hnext, collect, List.drop_drop, ← hmessages]
      simp only [messages, List.range_succ, List.map_append, List.map_singleton, Nat.mul_succ]
    · have hnext : taken (cs ++ [chunk]) = taken cs := by omega
      rw [if_neg hfull, hnext, collect, messages_append _ hle, List.append_nil]

/-- Nobody waits: no stretch at the end completes more messages than it has
chunks. -/
def Paced (cs : List (List Byte)) : Prop :=
  ∀ before stretch, cs = before ++ stretch →
    cs.flatten.length / 8 ≤ before.flatten.length / 8 + stretch.length

theorem taken_eq_iff (cs : List (List Byte)) : taken cs = cs.flatten.length / 8 ↔ Paced cs := by
  have hall : complete cs cs.length = cs.flatten.length / 8 := by rw [complete, List.take_length]
  rw [taken, ← hall, Backlog.served_eq_iff (by simp [complete])]
  constructor
  · intro h before stretch hsplit
    have hk := h before.length (by rw [hsplit, List.length_append]; omega)
    rw [hall, complete, hsplit, List.take_left, List.length_append, ← hsplit] at hk
    omega
  · intro h k hk
    have hsplit := h (cs.take k) (cs.drop k) (List.take_append_drop k cs).symm
    rw [hall, complete]
    rw [List.length_drop] at hsplit
    exact hsplit

/-! ### A whole connection -/

/-- The messages of a string made of them. -/
theorem messages_flatten {ms : List (List Byte)} (whole : ∀ m ∈ ms, m.length = 8) :
    messages ms.flatten ms.length = ms := by
  induction ms with
  | nil => rfl
  | cons m rest ih =>
    have hm : m.length = 8 := whole m (by simp)
    have hrest := ih fun m' h => whole m' (List.mem_cons_of_mem m h)
    rw [messages, List.length_cons, List.range_succ_eq_map, List.map_cons, List.map_map,
      List.flatten_cons, Nat.mul_zero, List.drop_zero, List.take_left' hm]
    congr 1
    conv_rhs => rw [← hrest, messages]
    apply List.map_congr_left
    intro i _
    show ((m ++ rest.flatten).drop (8 * (i + 1))).take 8 = _
    rw [Nat.mul_succ, Nat.add_comm, ← List.drop_drop, List.drop_left' hm]

theorem length_flatten {ms : List (List Byte)} (whole : ∀ m ∈ ms, m.length = 8) :
    ms.flatten.length = 8 * ms.length := by
  induction ms with
  | nil => rfl
  | cons m rest ih =>
    rw [List.flatten_cons, List.length_append, whole m (by simp),
      ih fun m' h => whole m' (List.mem_cons_of_mem m h), List.length_cons]
    omega

/-- A poll that receives nothing. -/
def quiet : Poll := { accepted := false, nonblock := false, recv := .again }

theorem chunks_append (polls more : List Poll) : chunks (polls ++ more) = chunks polls ++ chunks more :=
  List.filterMap_append

theorem chunks_quiet (n : ℕ) : chunks (List.replicate n quiet) = [] := by
  induction n with
  | zero => rfl
  | succ n ih =>
    rw [List.replicate_succ, chunks, List.filterMap_cons]
    exact ih

theorem stays_quiet (n : ℕ) : Stays skt (List.replicate n quiet) := by
  induction n generalizing skt with
  | zero => trivial
  | succ n ih => exact ⟨.inl rfl, ih⟩

theorem stays_append {polls more : List Poll} (h : Stays skt polls)
    (later : ∀ skt, Stays skt more) : Stays skt (polls ++ more) := by
  induction polls generalizing skt with
  | nil => exact later skt
  | cons poll rest ih => exact ⟨h.1, ih h.2⟩

/-- What the connection is meant to do: after enough further calls the caller was
told what all messages say, in their order, and no message is left. -/
def DeliversAll (skt : Skt) (polls : List Poll) (ms : List (List Byte)) : Prop :=
  ∃ enough, ∀ n, enough ≤ n →
    (run skt (polls ++ List.replicate n quiet)).2.filterMap told =
        ms.filterMap (fun message => told (parse message)) ∧
      (run skt (polls ++ List.replicate n quiet)).1.buf.content.length < 8

section Connection

variable {memory : List Byte} {polls : List Poll} {ms : List (List Byte)}

/-- All messages come through exactly if one was taken for each. -/
theorem deliversAll_iff (size : memory.length = recvBufLen + 1)
    (stays : Stays (accepted memory) polls) (whole : ∀ m ∈ ms, m.length = 8)
    (sent : (chunks polls).flatten = ms.flatten) :
    DeliversAll (accepted memory) polls ms ↔ taken (chunks polls) = ms.length := by
  have hrun (n : ℕ) := run_refines (holds_accepted size)
    (stays_append stays fun _ => stays_quiet n)
  simp only [chunks_append, chunks_quiet, List.append_nil, collect_eq, sent] at hrun
  have hlen := length_flatten whole
  have hle := taken_le (chunks polls)
  rw [sent] at hle
  constructor
  · rintro ⟨enough, h⟩
    have hleft := (h enough le_rfl).2
    rw [(hrun enough).1.content, List.length_drop] at hleft
    omega
  · intro hall
    refine ⟨0, fun n _ => ⟨?_, ?_⟩⟩
    · rw [(hrun n).2, hall, messages_flatten whole]
    · rw [(hrun n).1.content, List.length_drop]
      omega

/-- In any case the calls tell of a front part of the messages, in their order. -/
theorem told_prefix (size : memory.length = recvBufLen + 1)
    (stays : Stays (accepted memory) polls) (whole : ∀ m ∈ ms, m.length = 8)
    (sent : (chunks polls).flatten = ms.flatten) :
    (run (accepted memory) polls).2.filterMap told =
      (ms.take (taken (chunks polls))).filterMap fun message => told (parse message) := by
  have hrun := (run_refines (holds_accepted size) stays).2
  have hlen := length_flatten whole
  have hle := taken_le (chunks polls)
  rw [sent] at hle
  rw [collect_eq, sent] at hrun
  rw [hrun]
  congr 1
  conv_rhs => rw [← messages_flatten whole, messages, ← List.map_take, List.take_range]
  rw [messages, Nat.min_eq_left (by omega)]

/-- All messages of a connection come through exactly if no stretch of `recv`
results up to the last one completes more messages than it has results. -/
theorem delivered_iff (size : memory.length = recvBufLen + 1)
    (stays : Stays (accepted memory) polls) (whole : ∀ m ∈ ms, m.length = 8)
    (sent : (chunks polls).flatten = ms.flatten) :
    DeliversAll (accepted memory) polls ms ↔ Paced (chunks polls) := by
  have hlen := length_flatten whole
  rw [deliversAll_iff size stays whole sent, ← taken_eq_iff, sent, hlen]
  omega

end Connection

/-- A poll whose `recv` returns these bytes. -/
def receiving (bytes : List Byte) : Poll := { accepted := false, nonblock := false, recv := .data bytes }

/-- A request to break, and one to step. -/
def breakMessage : List Byte := [0, 0, 0, 0, 0, 0, 0, 0]

def stepMessage : List Byte := [1, 0, 0, 0, 0, 0, 0, 0]

def clearedMemory : List Byte := List.replicate (recvBufLen + 1) 0

theorem delivered_iff_split :
    DeliversAll (accepted clearedMemory)
        [receiving (breakMessage ++ stepMessage.take 3), quiet, receiving (stepMessage.drop 3)]
        [breakMessage, stepMessage] ↔
      Paced (chunks
        [receiving (breakMessage ++ stepMessage.take 3), quiet, receiving (stepMessage.drop 3)]) :=
  delivered_iff (by simp [clearedMemory])
    ⟨.inr ⟨_, rfl, by decide, by decide +kernel⟩, .inl rfl, .inr ⟨_, rfl, by decide, by decide +kernel⟩,
      trivial⟩
    (by decide) (by decide)

/-- Two messages in one `recv`: the second stays in the buffer for as long as no
more data comes. -/
theorem delivered_burst :
    Stays (accepted clearedMemory) [receiving (breakMessage ++ stepMessage)] ∧
      (chunks [receiving (breakMessage ++ stepMessage)]).flatten =
        [breakMessage, stepMessage].flatten ∧
      ¬DeliversAll (accepted clearedMemory) [receiving (breakMessage ++ stepMessage)]
        [breakMessage, stepMessage] := by
  have stays : Stays (accepted clearedMemory) [receiving (breakMessage ++ stepMessage)] :=
    ⟨.inr ⟨_, rfl, by decide, by decide +kernel⟩, trivial⟩
  refine ⟨stays, by decide, fun h => ?_⟩
  have hall := (deliversAll_iff (by simp [clearedMemory]) stays (by decide) (by decide)).mp h
  exact absurd hall (by decide)

end JCore.DebugSkt
