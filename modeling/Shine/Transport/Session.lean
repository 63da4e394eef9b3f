import Shine.Lib.Chan
import Shine.Transport.Address

/-!
# Sessions (`transport/session.cpp`)

A `Session` is one logical stream (or datagram stream) on a link. This module has
its data and the parts of its methods that touch the session alone; what they do
to the link — frames they enqueue, the session table — is in `Transport.Link`.

The methods are coroutines: between two suspensions their code runs as one
piece, and that piece is what a definition below models. `readStart` is
`Session::read` up to its `async_receive`, `receive` is the rest of it;
`takeChunk` is one turn of the loop of `Session::write`.
-/

namespace Shine

/-- `SessionRequest::Protocol`. -/
inductive Protocol where
  | tcp
  | udp
  deriving DecidableEq, Repr

/-- `Session::State`. -/
inductive SessionState where
  | init
  | opened
  | halfClosedLocal
  | halfClosedRemote
  | closed
  deriving DecidableEq, Repr

/-- The channels of a session. A TCP session has `inbox_` and `credit_signal_`, a
UDP session has `udp_inbox_`. -/
inductive SessionIo where
  | tcp (inbox : Chan Bytes) (creditSignal : Chan Unit)
  | udp (udpInbox : Chan (Bytes × Address))
  deriving DecidableEq

namespace SessionIo

/-- Close the channel that carries incoming payloads. -/
def closeInbox : SessionIo → SessionIo
  | .tcp inbox creditSignal => .tcp inbox.close creditSignal
  | .udp udpInbox => .udp udpInbox.close

/-- Close every channel. -/
def closeAll : SessionIo → SessionIo
  | .tcp inbox creditSignal => .tcp inbox.close creditSignal.close
  | .udp udpInbox => .udp udpInbox.close

/-- The channel that carries incoming payloads is closed. -/
def inboxClosed : SessionIo → Bool
  | .tcp inbox _ => inbox.closed
  | .udp udpInbox => udpInbox.closed

/-- Every channel is closed. -/
def allClosed : SessionIo → Bool
  | .tcp inbox creditSignal => inbox.closed && creditSignal.closed
  | .udp udpInbox => udpInbox.closed

/-- The payloads waiting in `inbox_`. -/
def queue : SessionIo → List Bytes
  | .tcp inbox _ => inbox.queue
  | .udp _ => []

@[simp] theorem allClosed_closeAll (io : SessionIo) : io.closeAll.allClosed = true := by
  cases io <;> rfl

end SessionIo

/-- `class Session`. -/
structure Session where
  sid : UInt64
  target : Address
  /-- The window we advertised. -/
  ourInitialWindow : UInt32
  /-- Bytes we may still send. -/
  sendCredit : Int
  /-- Bytes consumed, pending a WINDOW back. -/
  recvUnacked : UInt32
  state : SessionState
  io : SessionIo
  /-- The payload that did not fit in the last `read`, and how far it is read. -/
  leftover : Option Bytes
  leftoverOff : Nat
  deriving DecidableEq

namespace Session

/-- The constructor of `Session`. -/
def new (sid : UInt64) (target : Address) (peerInitialWindow ourInitialWindow : UInt32)
    (protocol : Protocol) : Session where
  sid := sid
  target := target
  ourInitialWindow := ourInitialWindow
  sendCredit := peerInitialWindow.toNat
  recvUnacked := 0
  state := .opened
  io := match protocol with
    | .tcp => .tcp (.new 1024) (.new 1)
    | .udp => .udp (.new 1024)
  leftover := none
  leftoverOff := 0

theorem new_ne_closed {sid : UInt64} {target : Address} {peerWindow ourWindow : UInt32}
    {protocol : Protocol} : (new sid target peerWindow ourWindow protocol).state ≠ .closed := nofun

/-- `protocol()`. -/
def protocol (s : Session) : Protocol :=
  match s.io with
  | .tcp .. => .tcp
  | .udp .. => .udp

/-! ## The reading side -/

/-- The bytes of `leftover_` that no `read` has returned yet. -/
def unread (s : Session) : Bytes := (s.leftover.getD []).drop s.leftoverOff

/-- The payloads waiting in `inbox_`. -/
def inboxQueue (s : Session) : List Bytes := s.io.queue

/-- Whether the inbox has been closed. -/
def inboxClosed (s : Session) : Bool := s.io.inboxClosed

/-- Whether every channel of the session has been closed. -/
def channelsClosed (s : Session) : Bool := s.io.allClosed

/-- `recv_unacked_.fetch_add(static_cast<u32>(n))`. -/
def consumed (s : Session) (n : Nat) : Session :=
  { s with recvUnacked := s.recvUnacked + n.toUInt32 }

/-- How far a call of `read` has come: it has copied bytes out, it returns 0 for the
end of the stream, or it waits on `inbox_`. -/
inductive ReadOutcome where
  | bytes (out : Bytes) (s : Session)
  | eof
  | wait

/-- The session after `k` more bytes of the leftover have been copied out; it is
reset once all of it has been. -/
def dropLeftover (s : Session) (k : Nat) : Session :=
  if (s.leftover.getD []).length ≤ s.leftoverOff + k then
    { s with leftover := none, leftoverOff := 0 }
  else { s with leftoverOff := s.leftoverOff + k }

/-- `Session::read` with a buffer of `n` bytes, up to its `async_receive`. -/
def readStart (s : Session) (n : Nat) : ReadOutcome :=
  if s.unread ≠ [] then
    .bytes (s.unread.take n)
      ((s.dropLeftover (min n s.unread.length)).consumed (min n s.unread.length))
  else if s.state = .closed ∨ s.state = .halfClosedRemote then .eof
  else .wait

/-- The session after `read` has received the payload `pay` into a buffer of `n`
bytes: what does not fit becomes the leftover. -/
def keepRest (s : Session) (pay : Bytes) (n : Nat) : Session :=
  if min n pay.length < pay.length then
    { s with leftover := some pay, leftoverOff := min n pay.length }
  else s

/-- The rest of `Session::read` after its `async_receive`, which fails on a closed
inbox that is empty. -/
def receive (s : Session) (n : Nat) : ReadOutcome :=
  match s.io with
  | .udp _ => .wait
  | .tcp inbox creditSignal =>
    match inbox.receive with
    | some (pay, inbox') =>
      .bytes (pay.take n) (({ s with io := .tcp inbox' creditSignal }.keepRest pay n).consumed
        (min n pay.length))
    | none => if inbox.closed then .eof else .wait

/-- `maybeSendWindow`, on an open link: the WINDOW delta to send, if any. -/
def takeWindow (s : Session) : Option UInt32 × Session :=
  if s.recvUnacked ≥ s.ourInitialWindow / 2 then
    (some s.recvUnacked, { s with recvUnacked := 0 })
  else (none, s)

/-! ## The writing side -/

/-- `write` refuses to start on a session whose write side is closed. -/
def writeClosed (s : Session) : Bool :=
  s.state = .closed || s.state = .halfClosedLocal

/-- The size of the next DATA chunk of a `write` that has `remaining` bytes left;
0 while the write waits for credit. -/
def chunkSize (s : Session) (remaining maxDataFrame : Nat) : Nat :=
  min (min remaining maxDataFrame) s.sendCredit.toNat

/-- `send_credit_.fetch_sub(chunk)`. -/
def takeCredit (s : Session) (chunk : Nat) : Session :=
  { s with sendCredit := s.sendCredit - chunk }

/-- `state_.store`. -/
def setState (s : Session) (st : SessionState) : Session := { s with state := st }

/-! ## Called by the link's reader -/

/-- `onData`; empty payloads are dropped, and so is everything once the inbox is
closed. -/
def onData (s : Session) (payload : Bytes) : Session :=
  match s.io with
  | .udp _ => s
  | .tcp inbox creditSignal =>
    if payload = [] then s else { s with io := .tcp (inbox.send payload) creditSignal }

/-- `onUdpData`; a full queue drops the datagram. -/
def onUdpData (s : Session) (payload : Bytes) (addr : Address) : Session :=
  match s.io with
  | .tcp .. => s
  | .udp inbox => { s with io := .udp (inbox.trySend (payload, addr)) }

/-- `onWindow`. -/
def onWindow (s : Session) (delta : UInt32) : Session :=
  { s with
    sendCredit := s.sendCredit + delta.toNat
    io := match s.io with
      | .tcp inbox creditSignal => .tcp inbox (creditSignal.trySend ())
      | .udp inbox => .udp inbox }

/-- Close `inbox_` and `udp_inbox_`. -/
def closeInbox (s : Session) : Session := { s with io := s.io.closeInbox }

/-- Close `inbox_`, `udp_inbox_` and `credit_signal_`. -/
def closeChannels (s : Session) : Session := { s with io := s.io.closeAll }

/-- `onPeerClose`. -/
def onPeerClose (s : Session) : Session :=
  (s.setState (match s.state with
    | .halfClosedLocal => .closed
    | .opened => .halfClosedRemote
    | st => st)).closeInbox

/-- `onReset`. -/
def onReset (s : Session) : Session := (s.setState .closed).closeChannels

/-! ## What the methods keep -/

section Fields

variable (s : Session) (payload : Bytes) (addr : Address) (delta : UInt32)

@[simp] theorem onData_sid : (s.onData payload).sid = s.sid := by
  unfold onData; split <;> [rfl; (split_ifs <;> rfl)]

@[simp] theorem onData_state : (s.onData payload).state = s.state := by
  unfold onData; split <;> [rfl; (split_ifs <;> rfl)]

@[simp] theorem onUdpData_sid : (s.onUdpData payload addr).sid = s.sid := by
  unfold onUdpData; split <;> rfl

@[simp] theorem onUdpData_state : (s.onUdpData payload addr).state = s.state := by
  unfold onUdpData; split <;> rfl

@[simp] theorem setState_sid (st : SessionState) : (s.setState st).sid = s.sid := rfl
@[simp] theorem setState_state (st : SessionState) : (s.setState st).state = st := rfl
@[simp] theorem onWindow_sid : (s.onWindow delta).sid = s.sid := rfl
@[simp] theorem onWindow_state : (s.onWindow delta).state = s.state := rfl
@[simp] theorem onPeerClose_sid : s.onPeerClose.sid = s.sid := rfl
@[simp] theorem onReset_sid : s.onReset.sid = s.sid := rfl
@[simp] theorem onReset_state : s.onReset.state = .closed := rfl
@[simp] theorem onReset_inboxQueue : s.onReset.inboxQueue = s.inboxQueue := by
  unfold onReset closeChannels inboxQueue setState
  cases s.io <;> rfl
@[simp] theorem onReset_inboxClosed : s.onReset.inboxClosed = true := by
  unfold onReset closeChannels inboxClosed setState
  cases s.io <;> rfl
@[simp] theorem onReset_unread : s.onReset.unread = s.unread := rfl
@[simp] theorem onReset_sendCredit : s.onReset.sendCredit = s.sendCredit := rfl
@[simp] theorem onReset_recvUnacked : s.onReset.recvUnacked = s.recvUnacked := rfl
@[simp] theorem closeChannels_sid : s.closeChannels.sid = s.sid := rfl
@[simp] theorem closeChannels_state : s.closeChannels.state = s.state := rfl

@[simp] theorem onReset_channelsClosed : s.onReset.channelsClosed = true := by
  simp [onReset, closeChannels, channelsClosed]

@[simp] theorem onWindow_inboxQueue : (s.onWindow delta).inboxQueue = s.inboxQueue := by
  unfold onWindow inboxQueue
  cases s.io <;> rfl

@[simp] theorem onWindow_inboxClosed : (s.onWindow delta).inboxClosed = s.inboxClosed := by
  unfold onWindow inboxClosed
  cases s.io <;> rfl

@[simp] theorem onWindow_protocol : (s.onWindow delta).protocol = s.protocol := by
  unfold onWindow protocol
  cases s.io <;> rfl

@[simp] theorem closeChannels_protocol : s.closeChannels.protocol = s.protocol := by
  unfold closeChannels protocol
  cases s.io <;> rfl

@[simp] theorem onReset_protocol : s.onReset.protocol = s.protocol :=
  closeChannels_protocol (s.setState .closed)

@[simp] theorem onPeerClose_protocol : s.onPeerClose.protocol = s.protocol := by
  unfold onPeerClose closeInbox protocol setState
  cases s.io <;> rfl

@[simp] theorem closeInbox_inboxQueue : s.closeInbox.inboxQueue = s.inboxQueue := by
  unfold closeInbox inboxQueue
  cases s.io <;> rfl

@[simp] theorem closeInbox_inboxClosed : s.closeInbox.inboxClosed = true := by
  unfold closeInbox inboxClosed
  cases s.io <;> rfl

@[simp] theorem closeChannels_inboxQueue : s.closeChannels.inboxQueue = s.inboxQueue := by
  unfold closeChannels inboxQueue
  cases s.io <;> rfl

@[simp] theorem closeChannels_inboxClosed : s.closeChannels.inboxClosed = true := by
  unfold closeChannels inboxClosed
  cases s.io <;> rfl

@[simp] theorem setState_inboxQueue (st : SessionState) :
    (s.setState st).inboxQueue = s.inboxQueue := rfl
@[simp] theorem setState_inboxClosed (st : SessionState) :
    (s.setState st).inboxClosed = s.inboxClosed := rfl
@[simp] theorem setState_unread (st : SessionState) : (s.setState st).unread = s.unread := rfl
@[simp] theorem setState_sendCredit (st : SessionState) :
    (s.setState st).sendCredit = s.sendCredit := rfl
@[simp] theorem setState_recvUnacked (st : SessionState) :
    (s.setState st).recvUnacked = s.recvUnacked := rfl
@[simp] theorem closeChannels_unread : s.closeChannels.unread = s.unread := rfl
@[simp] theorem closeChannels_sendCredit : s.closeChannels.sendCredit = s.sendCredit := rfl
@[simp] theorem closeChannels_recvUnacked : s.closeChannels.recvUnacked = s.recvUnacked := rfl

end Fields

section OnData

variable {s : Session} {payload : Bytes}

/-- On an open inbox a payload is queued. -/
theorem onData_inboxQueue (htcp : s.protocol = .tcp) (hopen : s.inboxClosed = false)
    (hne : payload ≠ []) : (s.onData payload).inboxQueue = s.inboxQueue ++ [payload] := by
  cases hio : s.io with
  | udp _ => simp [protocol, hio] at htcp
  | tcp inbox creditSignal =>
    have hc : inbox.closed = false := by simpa [inboxClosed, hio, SessionIo.inboxClosed] using hopen
    simp [onData, hio, hne, inboxQueue, SessionIo.queue, Chan.send_queue_of_open hc]

/-- A closed inbox drops it. -/
theorem onData_of_closed (htcp : s.protocol = .tcp) (hclosed : s.inboxClosed = true) :
    s.onData payload = s := by
  cases hio : s.io with
  | udp _ => simp [protocol, hio] at htcp
  | tcp inbox creditSignal =>
    have hc : inbox.closed = true := by simpa [inboxClosed, hio, SessionIo.inboxClosed] using hclosed
    unfold onData
    simp only [hio, Chan.send_of_closed hc]
    split_ifs
    · rfl
    · rw [← hio]

theorem onData_fields (s : Session) (payload : Bytes) :
    (s.onData payload).inboxClosed = s.inboxClosed ∧ (s.onData payload).unread = s.unread ∧
      (s.onData payload).sendCredit = s.sendCredit ∧
      (s.onData payload).recvUnacked = s.recvUnacked ∧
      (s.onData payload).protocol = s.protocol ∧
      (s.onData payload).ourInitialWindow = s.ourInitialWindow := by
  cases hio : s.io with
  | udp _ => simp [onData, hio]
  | tcp inbox creditSignal =>
    simp only [onData, hio]
    split_ifs
    · exact ⟨rfl, rfl, rfl, rfl, rfl, rfl⟩
    · simp [inboxClosed, protocol, unread, hio, SessionIo.inboxClosed]

theorem onPeerClose_fields (s : Session) :
    s.onPeerClose.inboxQueue = s.inboxQueue ∧ s.onPeerClose.inboxClosed = true ∧
      s.onPeerClose.unread = s.unread ∧ s.onPeerClose.sendCredit = s.sendCredit ∧
      s.onPeerClose.recvUnacked = s.recvUnacked ∧
      s.onPeerClose.ourInitialWindow = s.ourInitialWindow := by
  unfold onPeerClose
  refine ⟨?_, ?_, rfl, rfl, rfl, rfl⟩
  · rw [closeInbox_inboxQueue, setState_inboxQueue]
  · exact closeInbox_inboxClosed _

theorem onPeerClose_state (s : Session) :
    s.onPeerClose.state = match s.state with
      | .halfClosedLocal => .closed
      | .opened => .halfClosedRemote
      | st => st := rfl

end OnData

/-! ## Reading -/

section Reading

variable {s s' : Session} {n : Nat} {out : Bytes}

theorem dropLeftover_unread (s : Session) (k : Nat) :
    (s.dropLeftover k).unread = s.unread.drop k := by
  unfold dropLeftover unread
  split_ifs with h
  · rw [List.drop_drop, List.drop_eq_nil_of_le h]
    rfl
  · rw [List.drop_drop]

/-- What a `read` that finds a leftover does. -/
theorem readStart_bytes (h : s.readStart n = .bytes out s') :
    s.unread ≠ [] ∧ out = s.unread.take n ∧ s'.unread = s.unread.drop n ∧
      s'.recvUnacked = s.recvUnacked + (min n s.unread.length).toUInt32 ∧ s'.io = s.io ∧
      s'.state = s.state ∧ s'.sendCredit = s.sendCredit ∧ s'.sid = s.sid ∧
      s'.ourInitialWindow = s.ourInitialWindow := by
  unfold readStart at h
  split_ifs at h with hne hst
  cases h
  refine ⟨hne, rfl, ?_, ?_⟩
  · show (s.dropLeftover _).unread = _
    rw [dropLeftover_unread]
    rcases Nat.le_total n s.unread.length with hle | hle
    · rw [Nat.min_eq_left hle]
    · rw [Nat.min_eq_right hle, List.drop_length, List.drop_eq_nil_of_le hle]
  · unfold consumed dropLeftover
    split_ifs <;> exact ⟨rfl, rfl, rfl, rfl, rfl, rfl⟩

theorem readStart_eof (h : s.readStart n = .eof) :
    s.unread = [] ∧ (s.state = .closed ∨ s.state = .halfClosedRemote) := by
  unfold readStart at h
  split_ifs at h with hne hst
  exact ⟨by simpa using hne, hst⟩

theorem readStart_wait (h : s.readStart n = .wait) :
    s.unread = [] ∧ ¬ (s.state = .closed ∨ s.state = .halfClosedRemote) := by
  unfold readStart at h
  split_ifs at h with hne hst
  exact ⟨by simpa using hne, hst⟩

/-- What a `read` that receives a payload does. -/
theorem receive_bytes (h : s.receive n = .bytes out s') :
    ∃ pay rest, s.inboxQueue = pay :: rest ∧ out = pay.take n ∧ s'.inboxQueue = rest ∧
      (s.unread = [] → s'.unread = pay.drop n) ∧
      s'.recvUnacked = s.recvUnacked + (min n pay.length).toUInt32 ∧
      s'.inboxClosed = s.inboxClosed ∧ s'.protocol = s.protocol ∧
      s'.state = s.state ∧ s'.sendCredit = s.sendCredit ∧ s'.sid = s.sid ∧
      s'.ourInitialWindow = s.ourInitialWindow := by
  unfold receive at h
  cases hio : s.io with
  | udp _ => simp [hio] at h
  | tcp inbox creditSignal =>
    simp only [hio, Chan.receive] at h
    cases hq : inbox.queue with
    | nil =>
      simp only [hq] at h
      split_ifs at h
    | cons pay rest =>
      simp only [hq] at h
      cases h
      refine ⟨pay, rest, by simp [inboxQueue, hio, SessionIo.queue, hq], rfl, ?_⟩
      unfold consumed keepRest
      split_ifs with hlt
      · refine ⟨rfl, fun _ => ?_, rfl, by simp [inboxClosed, SessionIo.inboxClosed, hio],
          by simp [protocol, hio], rfl, rfl, rfl, rfl⟩
        show pay.drop (min n pay.length) = pay.drop n
        rw [Nat.min_eq_left (by omega)]
      · refine ⟨rfl, fun hunread => ?_, rfl, by simp [inboxClosed, SessionIo.inboxClosed, hio],
          by simp [protocol, hio], rfl, rfl, rfl, rfl⟩
        rw [List.drop_eq_nil_of_le (by omega)]
        exact hunread

theorem receive_eof (h : s.receive n = .eof) : s.inboxQueue = [] ∧ s.inboxClosed = true := by
  unfold receive at h
  cases hio : s.io with
  | udp _ => simp [hio] at h
  | tcp inbox creditSignal =>
    simp only [hio, Chan.receive] at h
    cases hq : inbox.queue with
    | cons pay rest => simp [hq] at h
    | nil =>
      simp only [hq] at h
      split_ifs at h with hc
      exact ⟨by simp [inboxQueue, hio, SessionIo.queue, hq],
        by simp [inboxClosed, hio, SessionIo.inboxClosed, hc]⟩

theorem takeWindow_some {delta : UInt32} (h : s.takeWindow = (some delta, s')) :
    delta = s.recvUnacked ∧ s.ourInitialWindow / 2 ≤ s.recvUnacked ∧
      s' = { s with recvUnacked := 0 } := by
  unfold takeWindow at h
  split_ifs at h with hdue
  · cases h
    exact ⟨rfl, hdue, rfl⟩
  · cases h

theorem takeWindow_none (h : s.takeWindow = (none, s')) :
    s.recvUnacked < s.ourInitialWindow / 2 := by
  unfold takeWindow at h
  split_ifs at h with hdue
  · cases h
  · exact UInt32.not_le.mp hdue

end Reading

end Session

end Shine
