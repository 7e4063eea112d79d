import JCore.Testrom.Hex

/-!
# Packets

How the GDB stub sends and receives packets `$data#checksum` over a serial line. A packet
whose checksum is wrong is answered with `-` and the next one is waited for; a packet that
is sent is sent again until it is answered with `+`.

## Main definitions

* `getmsg`: receiving
* `untilAck`, `putmsg`: sending
* `Heard`: a packet as it comes in

## Main results

* `getmsg_eq_some_iff`: what is received, from any input
* `untilAck_eq_some_iff`: what is sent, for any answers
* `getmsg_frame`: what is sent is received
-/

namespace JCore.Gdb

/-! ### Sending -/

/-- What `putbuf` returns. -/
def checksum (buf : List (BitVec 8)) : BitVec 8 := buf.sum

/-- The footer of a packet. -/
def footer (sum : BitVec 8) : List (BitVec 8) :=
  [chr '#', lnibbleToHex (sum.sshiftRight 4), lnibbleToHex sum]

/-- A packet. -/
def frame (data : List (BitVec 8)) : List (BitVec 8) :=
  chr '$' :: data ++ footer (checksum data)

/-- What was sent, and what is still to be received. -/
@[ext] structure Traffic where
  sent : List (BitVec 8)
  rest : List (BitVec 8)

/-- The turns of a loop that sends a packet: from the checksum at its top, what is sent, and
the checksum at its bottom. -/
abbrev Sender := BitVec 8 → List (BitVec 8) × BitVec 8

/-- `do … while ('+' != gdb_getc ())`. -/
def untilAck (send : Sender) : BitVec 8 → List (BitVec 8) → Option Traffic
  | _, [] => none
  | sum, c :: rx =>
    if c = chr '+' then some { sent := (send sum).1, rest := rx }
    else
      (untilAck send (send sum).2 rx).map fun later =>
        { later with sent := (send sum).1 ++ later.sent }

/-- A message with or without a type. -/
def typed (c : BitVec 8) (buf : List (BitVec 8)) : List (BitVec 8) :=
  if c = 0 then buf else c :: buf

/-- One turn of `putmsg`. -/
def putmsg (c : BitVec 8) (buf : List (BitVec 8)) : Sender := fun _ =>
  let sum := c + checksum buf
  (chr '$' :: typed c buf ++ footer sum, sum)

/-! ### Receiving -/

/-- The places at which `getmsg` waits for a character. -/
inductive Receiving where
  | start
  | data (buf : ℕ) (sum : BitVec 8)
  | csum1 (sum : BitVec 8)
  | csum2 (sum rxSum : BitVec 8)

/-- The buffer with a message in it, what was answered, and what is still to be received. -/
structure Message where
  rxbuf : List (BitVec 8)
  sent : List (BitVec 8)
  rest : List (BitVec 8)

/-- `getmsg` at one of its places. `none` is an input that ends too early, and a packet that
is too long for the buffer. -/
def getmsgFrom : Receiving → List (BitVec 8) → List (BitVec 8) → Option Message
  | _, _, [] => none
  | .start, rxbuf, c :: rx =>
    if c = chr '$' then getmsgFrom (.data 0 0) rxbuf rx else getmsgFrom .start rxbuf rx
  | .data buf sum, rxbuf, c :: rx =>
    if buf + 1 < rxbuf.length then
      -- the character is followed by a zero, which the next one overwrites
      if c = chr '#' then getmsgFrom (.csum1 sum) ((rxbuf.set buf c).set (buf + 1) 0) rx
      else getmsgFrom (.data (buf + 1) (sum + c)) ((rxbuf.set buf c).set (buf + 1) 0) rx
    else none
  | .csum1 sum, rxbuf, c :: rx => getmsgFrom (.csum2 sum ((hexToInt c).setWidth 8)) rxbuf rx
  | .csum2 sum rxSum, rxbuf, c :: rx =>
    if sum ≠ (rxSum <<< 4) + (hexToInt c).setWidth 8 then
      (getmsgFrom .start rxbuf rx).map fun later => { later with sent := chr '-' :: later.sent }
    else some { rxbuf := rxbuf, sent := [chr '+'], rest := rx }

def getmsg : List (BitVec 8) → List (BitVec 8) → Option Message := getmsgFrom .start

/-! ### What is sent -/

section Sending

variable {send : Sender} {sum : BitVec 8}

/-- The first `n` turns. -/
def turns (send : Sender) : ℕ → BitVec 8 → List (BitVec 8)
  | 0, _ => []
  | n + 1, sum => (send sum).1 ++ turns send n (send sum).2

/-- A packet is sent once more than it is refused. -/
theorem untilAck_append {naks : List (BitVec 8)} (refused : chr '+' ∉ naks) (rest : List (BitVec 8)) :
    untilAck send sum (naks ++ chr '+' :: rest) =
      some { sent := turns send (naks.length + 1) sum, rest := rest } := by
  induction naks generalizing sum with
  | nil =>
    rw [List.nil_append, untilAck, if_pos rfl, List.length_nil, turns, turns, List.append_nil]
  | cons c naks ih =>
    rw [List.mem_cons, not_or] at refused
    rw [List.cons_append, untilAck, if_neg (Ne.symm refused.1), ih refused.2]
    rfl

theorem untilAck_eq_none {rx : List (BitVec 8)} (refused : chr '+' ∉ rx) :
    untilAck send sum rx = none := by
  induction rx generalizing sum with
  | nil => rfl
  | cons c rx ih =>
    rw [List.mem_cons, not_or] at refused
    rw [untilAck, if_neg (Ne.symm refused.1), ih refused.2]
    rfl

/-- Whatever comes in, a packet is sent until the first `+`. -/
theorem untilAck_eq_some_iff {rx : List (BitVec 8)} {traffic : Traffic} :
    untilAck send sum rx = some traffic ↔
      ∃ naks, chr '+' ∉ naks ∧ rx = naks ++ chr '+' :: traffic.rest ∧
        traffic.sent = turns send (naks.length + 1) sum := by
  constructor
  · intro h
    by_cases some : chr '+' ∈ rx
    · obtain ⟨naks, rest, rfl, refused⟩ := List.eq_append_cons_of_mem some
      rw [untilAck_append refused, Option.some.injEq] at h
      subst h
      exact ⟨naks, refused, rfl, rfl⟩
    · rw [untilAck_eq_none some] at h
      exact absurd h (Option.some_ne_none _).symm
  · rintro ⟨naks, refused, rfl, sent⟩
    rw [untilAck_append refused, ← sent]

end Sending

theorem checksum_cons (c : BitVec 8) (buf : List (BitVec 8)) :
    checksum (c :: buf) = c + checksum buf := List.sum_cons

theorem checksum_typed (c : BitVec 8) (buf : List (BitVec 8)) :
    checksum (typed c buf) = c + checksum buf := by
  rw [typed]
  split_ifs with h
  · rw [h]
    exact (BitVec.zero_add _).symm
  · exact checksum_cons c buf

theorem putmsg_fst (c : BitVec 8) (buf : List (BitVec 8)) (sum : BitVec 8) :
    (putmsg c buf sum).1 = frame (typed c buf) := by
  rw [frame, checksum_typed]
  rfl

/-- A loop that does not look at the checksum sends the same packet each time. -/
theorem turns_const {send : Sender} {packet : List (BitVec 8)} (h : ∀ sum, (send sum).1 = packet)
    (n : ℕ) (sum : BitVec 8) : turns send n sum = (List.replicate n packet).flatten := by
  induction n generalizing sum with
  | zero => rfl
  | succ n ih => rw [turns, h, ih, List.replicate_succ, List.flatten_cons]

/-! ### What is received -/

/-- A packet as it comes in, with what comes before it. -/
structure Heard where
  noise : List (BitVec 8)
  data : List (BitVec 8)
  hi : BitVec 8
  lo : BitVec 8

namespace Heard

variable (heard : Heard)

def bytes : List (BitVec 8) :=
  heard.noise ++ chr '$' :: (heard.data ++ [chr '#', heard.hi, heard.lo])

/-- Where a packet begins, where its data ends, and that there is room for it. -/
structure Fits (room : ℕ) : Prop where
  noise : chr '$' ∉ heard.noise
  data : chr '#' ∉ heard.data
  room : heard.data.length + 1 < room

/-- The checksum is right. -/
def Intact : Prop := checksum heard.data = hexToByte heard.hi heard.lo

instance : Decidable heard.Intact := inferInstanceAs (Decidable (_ = _))

end Heard

/-- The buffer behind a message. -/
def received (rxbuf data : List (BitVec 8)) : List (BitVec 8) :=
  data ++ chr '#' :: 0 :: rxbuf.drop (data.length + 2)

theorem length_received {rxbuf data : List (BitVec 8)} (room : data.length + 1 < rxbuf.length) :
    (received rxbuf data).length = rxbuf.length := by
  rw [received, List.length_append, List.length_cons, List.length_cons, List.length_drop]
  omega

section Receiving

variable {rxbuf : List (BitVec 8)}

theorem getmsgFrom_start {noise : List (BitVec 8)} (h : chr '$' ∉ noise) (rx : List (BitVec 8)) :
    getmsgFrom .start rxbuf (noise ++ chr '$' :: rx) = getmsgFrom (.data 0 0) rxbuf rx := by
  induction noise with
  | nil => rw [List.nil_append, getmsgFrom, if_pos rfl]
  | cons c noise ih =>
    rw [List.mem_cons, not_or] at h
    rw [List.cons_append, getmsgFrom, if_neg (Ne.symm h.1), ih h.2]

theorem getmsgFrom_start_eq_none {rx : List (BitVec 8)} (h : chr '$' ∉ rx) :
    getmsgFrom .start rxbuf rx = none := by
  induction rx with
  | nil => rfl
  | cons c rx ih =>
    rw [List.mem_cons, not_or] at h
    rw [getmsgFrom, if_neg (Ne.symm h.1), ih h.2]

theorem exists_cons_cons {l : List (BitVec 8)} (h : 1 < l.length) :
    ∃ x y tail, l = x :: y :: tail := by
  obtain ⟨x, tail, rfl⟩ := List.exists_cons_of_length_pos (Nat.zero_lt_of_lt h)
  obtain ⟨y, tail, rfl⟩ := List.exists_cons_of_length_pos (Nat.lt_of_succ_lt_succ h)
  exact ⟨x, y, tail, rfl⟩

/-- Two places of the buffer are set. -/
theorem set_set_append (before : List (BitVec 8)) (x y c : BitVec 8) (after : List (BitVec 8)) :
    ((before ++ x :: y :: after).set before.length c).set (before.length + 1) 0 =
      before ++ c :: 0 :: after := by
  rw [List.set_append_right _ _ le_rfl, Nat.sub_self, List.set_append_right _ _ (Nat.le_succ _),
    show before.length.succ - before.length = 1 from
      Nat.add_sub_cancel_left _ 1]
  rfl

/-- The data goes into the buffer, behind what is already there. -/
theorem getmsgFrom_data {data : List (BitVec 8)} (ends : chr '#' ∉ data)
    (before after : List (BitVec 8)) (room : data.length + 1 < after.length) (sum : BitVec 8)
    (rx : List (BitVec 8)) :
    getmsgFrom (.data before.length sum) (before ++ after) (data ++ chr '#' :: rx) =
      getmsgFrom (.csum1 (sum + checksum data)) (before ++ received after data) rx := by
  induction data generalizing before after sum with
  | nil =>
    obtain ⟨x, y, after, rfl⟩ := exists_cons_cons (Nat.lt_of_succ_le room)
    rw [List.nil_append, getmsgFrom, if_pos, if_pos rfl, set_set_append]
    · rw [show sum + checksum [] = sum from BitVec.add_zero sum]
      rfl
    · rw [List.length_append, List.length_cons, List.length_cons]
      omega
  | cons c data ih =>
    rw [List.mem_cons, not_or] at ends
    obtain ⟨x, y, after, rfl⟩ := exists_cons_cons (lt_of_le_of_lt (Nat.le_add_left 1 _) room)
    have inside : before.length + 1 < (before ++ x :: y :: after).length := by
      rw [List.length_append, List.length_cons, List.length_cons]
      omega
    have later := ih ends.2 (before ++ [c]) (0 :: after)
      (by rw [List.length_cons] at room ⊢; exact Nat.lt_of_succ_lt_succ room) (sum + c)
    rw [List.length_append, List.length_singleton, List.append_assoc, List.singleton_append] at later
    rw [List.cons_append, getmsgFrom, if_pos inside, if_neg (Ne.symm ends.1), set_set_append, later,
      checksum_cons, BitVec.add_assoc, received, received, List.append_assoc]
    rfl

theorem getmsgFrom_data_eq_none {data rx : List (BitVec 8)} (ends : chr '#' ∉ data) (n : ℕ)
    (full : rxbuf.length ≤ n + data.length + 1) (sum : BitVec 8) :
    getmsgFrom (.data n sum) rxbuf (data ++ rx) = none := by
  induction data generalizing n sum rxbuf with
  | nil =>
    cases rx with
    | nil => rfl
    | cons c rx =>
      have filled : ¬n + 1 < rxbuf.length := not_lt.mpr full
      rw [List.nil_append, getmsgFrom, if_neg filled]
  | cons c data ih =>
    rw [List.mem_cons, not_or] at ends
    rw [List.cons_append, getmsgFrom, if_neg (Ne.symm ends.1)]
    split_ifs
    · refine ih ends.2 _ ?_ _
      rw [List.length_set, List.length_set]
      rw [List.length_cons] at full
      omega
    · rfl

/-- Without an end of the data nothing is received. -/
theorem getmsgFrom_open {rx : List (BitVec 8)} (h : chr '#' ∉ rx) (n : ℕ) (sum : BitVec 8) :
    getmsgFrom (.data n sum) rxbuf rx = none := by
  induction rx generalizing n sum rxbuf with
  | nil => rfl
  | cons c rx ih =>
    rw [List.mem_cons, not_or] at h
    rw [getmsgFrom, if_neg (Ne.symm h.1), ih h.2]
    exact ite_self _

/-- The answer to one packet. -/
theorem getmsg_heard {heard : Heard} (fits : heard.Fits rxbuf.length) (rest : List (BitVec 8)) :
    getmsg rxbuf (heard.bytes ++ rest) =
      if heard.Intact then
        some { rxbuf := received rxbuf heard.data, sent := [chr '+'], rest := rest }
      else
        (getmsg (received rxbuf heard.data) rest).map fun later =>
          { later with sent := chr '-' :: later.sent } := by
  have data := getmsgFrom_data fits.data [] rxbuf fits.room 0 (heard.hi :: heard.lo :: rest)
  rw [List.length_nil, List.nil_append, List.nil_append,
    show 0 + checksum heard.data = checksum heard.data from BitVec.zero_add _] at data
  have sum : (hexToInt heard.hi).setWidth 8 <<< 4 + (hexToInt heard.lo).setWidth 8 =
      hexToByte heard.hi heard.lo := by
    rw [hexToByte]
    congr 1
    apply BitVec.eq_of_getLsbD_eq
    intro i hi
    interval_cases i <;> simp
  rw [getmsg, Heard.bytes, List.append_assoc, List.cons_append, List.append_assoc,
    getmsgFrom_start fits.noise]
  show getmsgFrom (.data 0 0) rxbuf (heard.data ++ chr '#' :: heard.hi :: heard.lo :: rest) = _
  rw [data, getmsgFrom, getmsgFrom, sum, ite_not]
  rfl

/-- The buffer behind packets that were refused. -/
def refusals (rxbuf : List (BitVec 8)) (heards : List Heard) : List (BitVec 8) :=
  heards.foldl (fun buf heard => received buf heard.data) rxbuf

theorem getmsg_refusals {heards : List Heard} (fits : ∀ heard ∈ heards, heard.Fits rxbuf.length)
    (refused : ∀ heard ∈ heards, ¬heard.Intact) (rest : List (BitVec 8)) :
    getmsg rxbuf (heards.flatMap Heard.bytes ++ rest) =
      (getmsg (refusals rxbuf heards) rest).map fun later =>
        { later with sent := List.replicate heards.length (chr '-') ++ later.sent } := by
  induction heards generalizing rxbuf with
  | nil =>
    rw [List.flatMap_nil, List.nil_append]
    show _ = (getmsg rxbuf rest).map id
    rw [Option.map_id]
    rfl
  | cons heard heards ih =>
    rw [List.forall_mem_cons] at fits refused
    have same := length_received fits.1.room
    rw [List.flatMap_cons, List.append_assoc, getmsg_heard fits.1, if_neg refused.1,
      ih (by rw [same]; exact fits.2) refused.2, Option.map_map]
    rfl

theorem length_refusals {heards : List Heard} (fits : ∀ heard ∈ heards, heard.Fits rxbuf.length) :
    (refusals rxbuf heards).length = rxbuf.length := by
  induction heards generalizing rxbuf with
  | nil => rfl
  | cons heard heards ih =>
    rw [List.forall_mem_cons] at fits
    have same := length_received fits.1.room
    show (refusals (received rxbuf heard.data) heards).length = _
    rw [ih (by rw [same]; exact fits.2), same]

/-- An input from which something is received begins with a packet. -/
theorem exists_heard {rx : List (BitVec 8)} {message : Message} (h : getmsg rxbuf rx = some message) :
    ∃ heard : Heard, ∃ rest, heard.Fits rxbuf.length ∧ rx = heard.bytes ++ rest := by
  by_cases start : chr '$' ∈ rx
  swap
  · rw [getmsg, getmsgFrom_start_eq_none start] at h
    exact absurd h (Option.some_ne_none _).symm
  obtain ⟨noise, tail, rfl, quiet⟩ := List.eq_append_cons_of_mem start
  rw [getmsg, getmsgFrom_start quiet] at h
  by_cases ends : chr '#' ∈ tail
  swap
  · rw [getmsgFrom_open ends] at h
    exact absurd h (Option.some_ne_none _).symm
  obtain ⟨data, tail, rfl, inside⟩ := List.eq_append_cons_of_mem ends
  by_cases room : data.length + 1 < rxbuf.length
  swap
  · rw [getmsgFrom_data_eq_none inside 0 (by omega)] at h
    exact absurd h (Option.some_ne_none _).symm
  have body := getmsgFrom_data inside [] rxbuf room 0 tail
  rw [List.length_nil, List.nil_append, List.nil_append] at body
  rw [body] at h
  by_cases digits : 1 < tail.length
  · obtain ⟨hi, lo, rest, rfl⟩ := exists_cons_cons digits
    refine ⟨⟨noise, data, hi, lo⟩, rest, ⟨quiet, inside, room⟩, ?_⟩
    rw [Heard.bytes, List.append_assoc, List.cons_append, List.append_assoc]
    rfl
  · rcases Nat.le_one_iff_eq_zero_or_eq_one.mp (not_lt.mp digits) with none | one
    · rw [List.eq_nil_of_length_eq_zero none] at h
      exact absurd h (Option.some_ne_none _).symm
    · obtain ⟨hi, rfl⟩ := List.length_eq_one_iff.mp one
      exact absurd h (Option.some_ne_none _).symm

/-- Whatever comes in, `getmsg` takes the first packet with a right checksum, and refuses
those before it. -/
theorem getmsg_eq_some_iff {rx : List (BitVec 8)} {message : Message} :
    getmsg rxbuf rx = some message ↔
      ∃ (refused : List Heard) (taken : Heard),
        (∀ heard ∈ refused, heard.Fits rxbuf.length ∧ ¬heard.Intact) ∧
        taken.Fits rxbuf.length ∧ taken.Intact ∧
        rx = refused.flatMap Heard.bytes ++ (taken.bytes ++ message.rest) ∧
        message.rxbuf = received (refusals rxbuf refused) taken.data ∧
        message.sent = List.replicate refused.length (chr '-') ++ [chr '+'] := by
  constructor
  · intro h
    generalize size : rx.length = n
    induction n using Nat.strong_induction_on generalizing rx rxbuf message with
    | h n ih =>
      obtain ⟨heard, rest, fits, rfl⟩ := exists_heard h
      rw [getmsg_heard fits] at h
      by_cases intact : heard.Intact
      · rw [if_pos intact, Option.some.injEq] at h
        subst h
        refine ⟨[], heard, ?_, fits, intact, rfl, rfl, rfl⟩
        intro other none
        exact absurd none List.not_mem_nil
      · rw [if_neg intact, Option.map_eq_some_iff] at h
        obtain ⟨later, h, rfl⟩ := h
        have shorter : rest.length < n := by
          rw [← size, Heard.bytes, List.length_append, List.length_append, List.length_cons]
          omega
        obtain ⟨refused, taken, all, fits', intact', rfl, buffer, sent⟩ := ih _ shorter h rfl
        have same := length_received fits.room
        rw [same] at all fits'
        refine ⟨heard :: refused, taken, ?_, fits', intact', ?_, buffer, ?_⟩
        · rw [List.forall_mem_cons]
          exact ⟨⟨fits, intact⟩, all⟩
        · rw [List.flatMap_cons, List.append_assoc]
        · show chr '-' :: later.sent = _
          rw [sent, List.length_cons, List.replicate_succ]
          rfl
  · rintro ⟨refused, taken, all, fits, intact, rfl, buffer, sent⟩
    have room := length_refusals fun heard mem => (all heard mem).1
    rw [getmsg_refusals (fun heard mem => (all heard mem).1) fun heard mem => (all heard mem).2,
      getmsg_heard (by rw [room]; exact fits), if_pos intact, ← buffer, Option.map_some, ← sent]

/-- What is sent is received, whatever noise comes before it. -/
theorem getmsg_frame {noise data : List (BitVec 8)} (quiet : chr '$' ∉ noise) (ends : chr '#' ∉ data)
    (room : data.length + 1 < rxbuf.length) (rest : List (BitVec 8)) :
    getmsg rxbuf (noise ++ (frame data ++ rest)) =
      some { rxbuf := received rxbuf data, sent := [chr '+'], rest := rest } := by
  let sum := checksum data
  let heard : Heard := ⟨noise, data, lnibbleToHex (sum.sshiftRight 4), lnibbleToHex sum⟩
  have bytes : noise ++ (frame data ++ rest) = heard.bytes ++ rest := by
    rw [Heard.bytes, List.append_assoc]
    rfl
  have intact : heard.Intact := (hexToByte_byteToHex sum).symm
  rw [bytes, getmsg_heard ⟨quiet, ends, room⟩, if_pos intact]

end Receiving

end JCore.Gdb
