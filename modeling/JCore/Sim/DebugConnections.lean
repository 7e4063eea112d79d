import JCore.Sim.DebugSkt

/-!
# Successive debug connections

The receive buffer of the debug socket is set up once, and stays as it is when a connection is
closed and another accepted. The bytes of all connections make one string, which is cut into
messages from the start of the first one.

## Main definitions

* `step`: what happens to the socket, connected or not
* `unread`: the bytes of earlier connections that no call has taken
* `Isolated`: a new connection is told what an empty buffer would tell it
* `Spent`: what is left of earlier connections is gone before it does harm

## Main results

* `keeps_after`: the buffer after a history of connections
* `isolated_iff`: when a new connection is isolated from its history
* `not_isolated_partial`: three bytes of an earlier connection shift the messages of the next
-/

namespace JCore.DebugSkt

/-- What happens to the socket: a poll, or a message to the debugger, which closes the
connection if it cannot be sent. -/
inductive Event where
  | poll (poll : Poll)
  | send (ok : Bool)
  deriving DecidableEq, Repr

/-- `debug_skt_handle`, and `debug_skt_notify_paused` or `debug_skt_reply`. -/
def step (skt : Skt) : Event → Skt
  | .poll poll => (handle skt poll).1
  | .send ok => { skt with conn := skt.conn && ok }

def after (skt : Skt) (events : List Event) : Skt := events.foldl step skt

/-- The socket after `debug_skt_init`. -/
def start (memory : List Byte) : Skt := { conn := false, buf := .init memory }

/-- What `recv` returns fits in the region offered. -/
def Allowed (skt : Skt) : Event → Prop
  | .poll poll => ∀ bytes, poll.recv = .data bytes →
    bytes ≠ [] ∧ bytes.length ≤ skt.buf.getEmptyBuf.room
  | .send _ => True

/-- A history of connections, accepted, used and closed in any way. -/
def History : Skt → List Event → Prop
  | _, [] => True
  | skt, event :: rest => (skt.conn = true → Allowed skt event) ∧ History (step skt event) rest

/-- The bytes that an event receives. -/
def chunkOf (skt : Skt) : Event → List (List Byte)
  | .poll poll =>
    match skt.conn, poll.recv with
    | true, .data bytes => [bytes]
    | _, _ => []
  | .send _ => []

/-- The bytes of all connections, one list for each `recv` with data. -/
def received : Skt → List Event → List (List Byte)
  | _, [] => []
  | skt, event :: rest => chunkOf skt event ++ received (step skt event) rest

/-- The bytes that no call has taken: each took eight at most. -/
def unread (cs : List (List Byte)) : List Byte := cs.flatten.drop (8 * taken cs)

/-- What the messages of a connection ask for, cut from its first byte: as many of them as the
polls take from a buffer that was empty at its beginning. -/
def requests (polls : List Poll) : List HandleO :=
  (messages (chunks polls).flatten (taken (chunks polls))).filterMap fun message =>
    told (parse message)

/-- A new connection is isolated: whatever it sends and however that arrives, the caller is told
what the connection's own bytes ask for. -/
def Isolated (skt : Skt) : Prop :=
  ∀ polls, Stays skt polls → (run skt polls).2.filterMap told = requests polls

/-- One whole message that asks for nothing is left, and the region offered to the first `recv`
is smaller than a message: it is taken before a message of the new connection is complete. -/
structure Spent (bytes : List Byte) (buf : RecvBuf) : Prop where
  length : bytes.length = 8
  silent : told (parse bytes) = none
  room : buf.getEmptyBuf.room < 8

/-! ### The buffer after a history -/

/-- These bytes wait in the buffer, whether or not there is a connection. -/
structure Keeps (skt : Skt) (bytes : List Byte) : Prop where
  wellFormed : skt.buf.WellFormed
  content : skt.buf.content = bytes

variable {skt : Skt} {bytes : List Byte} {event : Event}

theorem Holds.keeps (h : Holds skt bytes) : Keeps skt bytes := ⟨h.wellFormed, h.content⟩

theorem Keeps.holds (h : Keeps skt bytes) (conn : skt.conn = true) : Holds skt bytes :=
  ⟨conn, h.wellFormed, h.content⟩

theorem keeps_start {memory : List Byte} (h : memory.length = recvBufLen + 1) :
    Keeps (start memory) [] :=
  ⟨RecvBuf.wellFormed_init h, RecvBuf.content_init memory⟩

/-- A poll without a connection leaves the buffer as it is. -/
theorem handle_of_not_conn (conn : skt.conn = false) (poll : Poll) :
    (handle skt poll).1 = { skt with conn := poll.accepted && poll.nonblock } := by
  rw [handle, if_pos conn]

/-- A poll that closes the connection keeps what is in the buffer. -/
theorem Holds.keeps_close (h : Holds skt bytes) {poll : Poll}
    (close : poll.recv = .closed ∨ poll.recv = .error) : Keeps (handle skt poll).1 bytes := by
  obtain ⟨hwf, hcontent, hroom⟩ := h.wellFormed.getEmptyBuf
  rcases close with close | close <;>
    rw [handle, if_neg (by simp [h.conn]), if_pos hroom, close] <;>
    exact ⟨hwf, hcontent.trans h.content⟩

theorem Keeps.step (h : Keeps skt bytes) (allowed : skt.conn = true → Allowed skt event) :
    Keeps (step skt event) (collect bytes (chunkOf skt event)).1 := by
  cases event with
  | send ok => exact ⟨h.wellFormed, h.content⟩
  | poll poll =>
    rw [DebugSkt.step, chunkOf]
    cases conn : skt.conn with
    | false =>
      rw [handle_of_not_conn conn]
      exact ⟨h.wellFormed, h.content⟩
    | true =>
      have holds := h.holds conn
      cases recv : poll.recv with
      | again => exact (holds.again recv).1.keeps
      | closed => exact holds.keeps_close (.inl recv)
      | error => exact holds.keeps_close (.inr recv)
      | data chunk =>
        have hdata := holds.data recv (allowed conn chunk recv).2
        rw [collect]
        split_ifs at hdata ⊢ with hfull
        · exact hdata.1.keeps
        · exact hdata.1.keeps

/-- The buffer after a history has what is left of the bytes of all connections. -/
theorem keeps_after {events : List Event} (h : Keeps skt bytes) (history : History skt events) :
    Keeps (after skt events) (collect bytes (received skt events)).1 := by
  induction events generalizing skt bytes with
  | nil => exact h
  | cons event rest ih =>
    have hrest := ih (h.step history.1) history.2
    rw [received, collect_append]
    exact hrest

/-! ### Isolation -/

theorem requests_eq (polls : List Poll) : requests polls =
    (collect [] (chunks polls)).2.filterMap fun message => told (parse message) := by
  rw [requests, collect_eq]

/-- That is what an empty buffer makes of these polls. -/
theorem run_accepted {memory : List Byte} (size : memory.length = recvBufLen + 1)
    {polls : List Poll} (stays : Stays (accepted memory) polls) :
    (run (accepted memory) polls).2.filterMap told = requests polls := by
  rw [requests_eq]
  exact (run_refines (holds_accepted size) stays).2

theorem Holds.isolated_of_empty (h : Holds skt []) : Isolated skt := by
  intro polls stays
  rw [requests_eq]
  exact (run_refines h stays).2

theorem getEmptyBuf_getEmptyBuf (b : RecvBuf) : b.getEmptyBuf.getEmptyBuf = b.getEmptyBuf := by
  by_cases move : b.tail = recvBufLen ∧ 0 < b.head
  · have moved : b.getEmptyBuf.head = 0 := by rw [RecvBuf.getEmptyBuf, if_pos move]
    rw [RecvBuf.getEmptyBuf, if_neg fun again => absurd again.2 (by rw [moved]; exact lt_irrefl 0)]
  · have same : b.getEmptyBuf = b := by rw [RecvBuf.getEmptyBuf, if_neg move]
    rw [same, same]

/-- The first bytes that come fit in the region that is offered at the beginning. -/
theorem Holds.length_head_chunk (h : Holds skt bytes) {polls : List Poll} (stays : Stays skt polls)
    {chunk : List Byte} {rest : List (List Byte)} (first : chunks polls = chunk :: rest) :
    chunk.length ≤ skt.buf.getEmptyBuf.room := by
  induction polls generalizing skt with
  | nil => exact absurd first nofun
  | cons poll polls ih =>
    obtain ⟨possible, stays⟩ := stays
    rcases possible with again | ⟨bytes', data, -, fits⟩
    · have waits : (handle skt poll).1 = { skt with buf := skt.buf.getEmptyBuf } := by
        rw [handle, if_neg (by simp [h.conn]), if_pos h.wellFormed.getEmptyBuf.2.2, again]
      have rest' : chunks polls = chunk :: rest := by
        rw [← first, chunks, chunks, List.filterMap_cons, again]
      have later := ih (h.again again).1 stays rest'
      rw [waits, getEmptyBuf_getEmptyBuf] at later
      exact later
    · have here : chunks (poll :: polls) = bytes' :: chunks polls := by simp [chunks, data]
      rw [here, List.cons.injEq] at first
      rw [← first.1]
      exact fits

theorem Holds.isolated_of_spent (h : Holds skt bytes) (spent : Spent bytes skt.buf) :
    Isolated skt := by
  intro polls stays
  rw [(run_refines h stays).2, requests_eq]
  cases first : chunks polls with
  | nil => rfl
  | cons chunk rest =>
    have fits := h.length_head_chunk stays first
    have few : chunk.length < 8 := fits.trans_lt spent.room
    rw [collect, if_pos (by rw [List.length_append, spent.length]; omega), collect, List.nil_append,
      if_neg (Nat.not_le.mpr few), List.filterMap_cons, List.take_left' spent.length,
      List.drop_left' spent.length, spent.silent]

/-! ### Connections that show what was waiting -/

/-- A message that begins with this byte. -/
def opening (c : Byte) : List Byte := [c, 0, 0, 0, 0, 0, 0, 0]

/-- A request that names none of two commands. -/
theorem exists_command (a b : Byte) : ∃ c : Byte, c ≠ a ∧ c ≠ b ∧ (cmdOf c).isSome = true := by
  by_contra none
  push Not at none
  have zero := none 0
  have one := none 1
  have two := none 2
  have commands : (cmdOf 0).isSome = true ∧ (cmdOf 1).isSome = true ∧ (cmdOf 2).isSome = true := by
    decide
  grind

theorem cmd_parse (head : List Byte) :
    (parse head).request.map (fun request => request.cmd) = cmdOf (head.getD 0 0) := by
  rw [parse]
  cases cmdOf (head.getD 0 0) <;> rfl

theorem eq_of_cmdOf {a c : Byte} (same : cmdOf a = cmdOf c) (command : (cmdOf c).isSome = true) :
    a = c := by
  have bytes : ∀ a : Byte, (cmdOf a).isSome = true →
      a = 0 ∧ cmdOf a = some .break ∨ a = 1 ∧ cmdOf a = some .step ∨
        a = 2 ∧ cmdOf a = some .insert ∨ a = 3 ∧ cmdOf a = some .continue := by decide +kernel
  have first := bytes a (by rw [same]; exact command)
  have second := bytes c command
  grind

theorem told_opening {c : Byte} (command : (cmdOf c).isSome = true) :
    told (parse (opening c)) = some (parse (opening c)) := by
  rw [told, if_neg]
  intro quiet
  have cmd := cmd_parse (opening c)
  rw [quiet] at cmd
  rw [← show (opening c).getD 0 0 = c from rfl, ← cmd] at command
  exact Bool.false_ne_true command

/-- Messages that all begin with other bytes do not ask for the same. -/
theorem filterMap_ne_opening {c : Byte} (command : (cmdOf c).isSome = true)
    {ms : List (List Byte)} (other : ∀ m ∈ ms, c ≠ m.getD 0 0) :
    ms.filterMap (fun message => told (parse message)) ≠ [parse (opening c)] := by
  intro same
  have mem : parse (opening c) ∈ ms.filterMap fun message => told (parse message) := by
    rw [same]
    exact List.mem_singleton_self _
  obtain ⟨m, there, asks⟩ := List.mem_filterMap.mp mem
  have equal : parse m = parse (opening c) := by
    rw [told] at asks
    split_ifs at asks
    exact Option.some.inj asks
  have cmds := congrArg (fun out => out.request.map fun request => request.cmd) equal
  simp only [cmd_parse] at cmds
  exact other m there (eq_of_cmdOf cmds command).symm

theorem getD_take_append {bytes more : List Byte} {i : ℕ} (h : i < bytes.length) :
    (((bytes ++ more).drop i).take 8).getD 0 0 = bytes.getD i 0 := by
  rw [List.getD_eq_getElem?_getD, List.getD_eq_getElem?_getD, List.getElem?_take_of_lt (by decide),
    List.getElem?_drop, Nat.add_zero, List.getElem?_append_left h]

/-- A whole message at once comes behind what was waiting. -/
theorem Holds.not_isolated_of_room (h : Holds skt bytes) (ne : bytes ≠ [])
    (room : 8 ≤ skt.buf.getEmptyBuf.room) : ¬Isolated skt := by
  intro isolated
  obtain ⟨c, other, -, command⟩ := exists_command (bytes.getD 0 0) 0
  have stays : Stays skt [receiving (opening c)] :=
    ⟨.inr ⟨opening c, rfl, List.cons_ne_nil _ _, room⟩, trivial⟩
  have whole : 8 ≤ (bytes ++ opening c).length := by
    rw [List.length_append]
    exact Nat.le_add_left _ _
  have own : requests [receiving (opening c)] = [parse (opening c)] := by
    rw [requests_eq]
    show List.filterMap _ [opening c] = _
    rw [List.filterMap_cons, told_opening command]
    rfl
  have tells := isolated _ stays
  rw [own, (run_refines h stays).2] at tells
  refine filterMap_ne_opening command (fun m there => ?_) tells
  have first : (collect bytes [opening c]).2 = [(bytes ++ opening c).take 8] := by
    rw [collect, if_pos whole]
    rfl
  change m ∈ (collect bytes [opening c]).2 at there
  rw [first, List.mem_singleton] at there
  have begins := @getD_take_append bytes (opening c) 0 (List.length_pos_iff.mpr ne)
  rw [List.drop_zero] at begins
  rw [there, begins]
  exact other

theorem tail_handle (h : Holds skt bytes) (chunk : List Byte) :
    (handle skt (receiving chunk)).1.buf.tail = skt.buf.getEmptyBuf.tail + chunk.length := by
  rw [handle, if_neg (by simp [h.conn]), if_pos h.wellFormed.getEmptyBuf.2.2]
  simp only [receiving]
  split_ifs <;> rfl

/-- A buffer that is full to its right edge offers all the room that there is. -/
theorem room_of_full {b : RecvBuf} (h : b.WellFormed) (full : b.tail = recvBufLen) :
    b.getEmptyBuf.room = recvBufLen - b.content.length := by
  have move : b.tail = recvBufLen ∧ 0 < b.head := by
    refine ⟨full, Nat.pos_of_ne_zero fun zero => ?_⟩
    have less := h.room zero
    omega
  rw [RecvBuf.length_content h.toInBounds, RecvBuf.getEmptyBuf, if_pos move]
  rfl

/-- A message in two parts, of which the first fills the buffer. -/
def inTwo (skt : Skt) (c : Byte) : List Poll :=
  [receiving ((opening c).take skt.buf.getEmptyBuf.room),
    receiving ((opening c).drop skt.buf.getEmptyBuf.room)]

theorem Holds.stays_inTwo (h : Holds skt bytes) (room : skt.buf.getEmptyBuf.room < 8) (c : Byte) :
    Stays skt (inTwo skt c) := by
  obtain ⟨wellFormed, content, pos⟩ := h.wellFormed.getEmptyBuf
  have inside := wellFormed.inside
  have waiting := RecvBuf.length_content wellFormed.toInBounds
  have left : skt.buf.getEmptyBuf.room = recvBufLen - skt.buf.getEmptyBuf.tail := rfl
  have held : skt.buf.getEmptyBuf.len = skt.buf.getEmptyBuf.tail - skt.buf.getEmptyBuf.head := rfl
  have size : recvBufLen = 1024 := rfl
  rw [content, h.content] at waiting
  have length : ((opening c).take skt.buf.getEmptyBuf.room).length = skt.buf.getEmptyBuf.room := by
    rw [List.length_take_of_le]
    exact room.le
  have part : (opening c).take skt.buf.getEmptyBuf.room ≠ [] := by
    rw [← List.length_pos_iff, length]
    exact pos
  have part' : (opening c).drop skt.buf.getEmptyBuf.room ≠ [] := by
    rw [← List.length_pos_iff, List.length_drop]
    exact Nat.sub_pos_of_lt room
  refine ⟨.inr ⟨_, rfl, part, length.le⟩, .inr ⟨_, rfl, part', ?_⟩, trivial⟩
  have rest : ((opening c).drop skt.buf.getEmptyBuf.room).length = 8 - skt.buf.getEmptyBuf.room :=
    List.length_drop
  have recv : (receiving ((opening c).take skt.buf.getEmptyBuf.room)).recv =
      .data ((opening c).take skt.buf.getEmptyBuf.room) := rfl
  have data := h.data recv length.le
  let next := (handle skt (receiving ((opening c).take skt.buf.getEmptyBuf.room))).1
  have full : next.buf.tail = skt.buf.getEmptyBuf.tail + skt.buf.getEmptyBuf.room := by
    rw [tail_handle h, length]
  have waits : next.buf.WellFormed ∧
      next.buf.content.length ≤ max 7 (bytes.length + skt.buf.getEmptyBuf.room - 8) := by
    split_ifs at data with whole
    · refine ⟨data.1.wellFormed, ?_⟩
      rw [data.1.content, List.length_drop, List.length_append, length]
      exact le_max_right _ _
    · refine ⟨data.1.wellFormed, ?_⟩
      rw [data.1.content]
      omega
  rw [room_of_full waits.1 (by omega), rest]
  omega

/-- Unless exactly one message was waiting, the messages taken begin with bytes that were
waiting. -/
theorem first_of_inTwo {first rest : List Byte} (ne : bytes ≠ []) (other : bytes.length ≠ 8)
    (whole : first.length + rest.length = 8) {m : List Byte}
    (there : m ∈ (collect bytes [first, rest]).2) :
    m.getD 0 0 = bytes.getD 0 0 ∨ m.getD 0 0 = bytes.getD 8 0 := by
  have pos := List.length_pos_iff.mpr ne
  simp only [collect] at there
  split_ifs at there with now later later
  · rw [List.length_append, List.length_drop, List.length_append] at later
    rw [List.length_append] at now
    rw [List.mem_cons, List.mem_singleton] at there
    rcases there with rfl | rfl
    · exact .inl (getD_take_append pos)
    · rw [← List.drop_append_of_le_length (by rw [List.length_append]; omega), List.append_assoc]
      exact .inr (getD_take_append (by omega))
  · rw [List.mem_singleton] at there
    rw [there]
    exact .inl (getD_take_append pos)
  · rw [List.mem_singleton] at there
    rw [there, List.append_assoc]
    exact .inl (getD_take_append pos)
  · exact absurd there List.not_mem_nil

/-- In two parts the message is still the only one of its connection. -/
theorem requests_inTwo {c : Byte} (command : (cmdOf c).isSome = true)
    (room : skt.buf.getEmptyBuf.room < 8) : requests (inTwo skt c) = [parse (opening c)] := by
  have few : ((opening c).take skt.buf.getEmptyBuf.room).length < 8 := by
    rw [List.length_take]
    omega
  rw [requests_eq]
  show List.filterMap _ (collect [] [_, _]).2 = _
  rw [collect, List.nil_append, if_neg (Nat.not_le.mpr few), collect, List.take_append_drop,
    if_pos (show 8 ≤ (opening c).length from le_rfl)]
  show List.filterMap _ [opening c] = _
  rw [List.filterMap_cons, told_opening command]
  rfl

/-- Where less room than a message is left, only a single message does no harm. -/
theorem Holds.length_of_isolated (h : Holds skt bytes) (ne : bytes ≠ [])
    (room : skt.buf.getEmptyBuf.room < 8) (isolated : Isolated skt) : bytes.length = 8 := by
  by_contra other
  obtain ⟨c, first, second, command⟩ := exists_command (bytes.getD 0 0) (bytes.getD 8 0)
  have stays := h.stays_inTwo room c
  have parts : ((opening c).take skt.buf.getEmptyBuf.room).length +
      ((opening c).drop skt.buf.getEmptyBuf.room).length = 8 := by
    rw [← List.length_append, List.take_append_drop]
    rfl
  have tells := isolated _ stays
  rw [requests_inTwo command room, (run_refines h stays).2] at tells
  refine filterMap_ne_opening command (fun m there => ?_) tells
  rcases first_of_inTwo ne other parts there with begins | begins
  · rw [begins]
    exact first
  · rw [begins]
    exact second

/-- A single message is taken with the first byte that comes. -/
theorem Holds.silent_of_isolated (h : Holds skt bytes) (length : bytes.length = 8)
    (isolated : Isolated skt) : told (parse bytes) = none := by
  have stays : Stays skt [receiving [0]] :=
    ⟨.inr ⟨[0], rfl, List.cons_ne_nil _ _, h.wellFormed.getEmptyBuf.2.2⟩, trivial⟩
  have tells := isolated _ stays
  rw [(run_refines h stays).2] at tells
  have now : (collect bytes [[0]]).2 = [bytes] := by
    rw [collect, if_pos (by rw [List.length_append]; omega), List.take_left' length]
    rfl
  change List.filterMap _ (collect bytes [[0]]).2 = [] at tells
  rw [now, List.filterMap_cons] at tells
  cases asks : told (parse bytes) with
  | none => rfl
  | some out =>
    rw [asks] at tells
    exact absurd tells (List.cons_ne_nil _ _)

/-- A connection that is accepted after a history of others is isolated if and only if the
history left no byte, or a single silent message that is taken in time. -/
theorem isolated_iff {memory : List Byte} (size : memory.length = recvBufLen + 1)
    {events : List Event} (history : History (start memory) events)
    (closed : (after (start memory) events).conn = false) {poll : Poll}
    (accepted : poll.accepted = true) (nonblock : poll.nonblock = true) :
    Isolated (handle (after (start memory) events) poll).1 ↔
      unread (received (start memory) events) = [] ∨
        Spent (unread (received (start memory) events)) (after (start memory) events).buf := by
  have keeps := keeps_after (keeps_start size) history
  rw [collect_eq] at keeps
  change Keeps _ (unread (received (start memory) events)) at keeps
  have buf : (handle (after (start memory) events) poll).1.buf =
      (after (start memory) events).buf := by
    rw [handle_of_not_conn closed]
  have holds : Holds (handle (after (start memory) events) poll).1
      (unread (received (start memory) events)) := by
    rw [handle_of_not_conn closed, accepted, nonblock]
    exact ⟨rfl, keeps.wellFormed, keeps.content⟩
  rw [← buf]
  constructor
  · intro isolated
    by_cases empty : unread (received (start memory) events) = []
    · exact .inl empty
    · have room : (handle (after (start memory) events) poll).1.buf.getEmptyBuf.room < 8 := by
        by_contra enough
        exact holds.not_isolated_of_room empty (Nat.not_lt.mp enough) isolated
      have length := holds.length_of_isolated empty room isolated
      exact .inr ⟨length, holds.silent_of_isolated length isolated, room⟩
  · rintro (empty | spent)
    · rw [empty] at holds
      exact holds.isolated_of_empty
    · exact holds.isolated_of_spent spent

/-- A poll that accepts a connection. -/
def accepting : Poll := { accepted := true, nonblock := true, recv := .again }

/-- A connection whose peer sends these bytes and closes it. -/
def connection (bytes : List Byte) : List Event :=
  [.poll accepting, .poll (receiving bytes),
    .poll { accepted := false, nonblock := false, recv := .closed }]

theorem history_connection (memory : List Byte) {bytes : List Byte} (ne : bytes ≠ [])
    (fits : bytes.length ≤ recvBufLen) : History (start memory) (connection bytes) := by
  refine ⟨nofun, fun _ bytes' hdata => ?_, fun _ => nofun, trivial⟩
  obtain rfl := Recv.data.inj hdata
  exact ⟨ne, fits⟩

theorem isolated_after_whole :
    Isolated (handle (after (start clearedMemory) (connection breakMessage)) accepting).1 := by
  refine (isolated_iff (by simp [clearedMemory])
    (history_connection clearedMemory (by decide) (by decide)) (by decide +kernel) rfl rfl).mpr ?_
  exact .inl (by decide +kernel)

/-- Three bytes of a connection that was closed are the start of the first message of the
next: its request to step is taken for one to break. -/
theorem not_isolated_partial :
    History (start clearedMemory) (connection [0, 0, 0]) ∧
      (after (start clearedMemory) (connection [0, 0, 0])).conn = false ∧
      ¬ Isolated (handle (after (start clearedMemory) (connection [0, 0, 0])) accepting).1 := by
  refine ⟨history_connection clearedMemory (by decide) (by decide), by decide +kernel,
    fun isolated => ?_⟩
  have tells := isolated [receiving stepMessage]
    ⟨.inr ⟨stepMessage, rfl, by decide, by decide +kernel⟩, trivial⟩
  exact absurd tells (by decide +kernel)

/-- A message with an unknown command that stays behind another: the next connection's request
to step is not taken by any later poll without data. -/
example : ((run (handle (after (start clearedMemory)
    (connection (opening 5 ++ opening 5))) accepting).1 [receiving stepMessage, quiet]).2.filterMap
      told) = [] := by
  decide +kernel

end JCore.DebugSkt
