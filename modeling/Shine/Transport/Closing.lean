import Shine.Transport.Table

/-!
# Closing a link (`failLink`, `closeNow`)

A link is closed by `failLink` (reader, writer, heartbeat and handshake timer call
it) or by `closeNow`. Both start with an exchange on `closed_`, and only the caller
that wins it goes on; of the two, only `failLink` walks the session table. Sessions
are opened meanwhile by `openSession`, which runs off the strand of the link, and by
the reader dispatching NEW. Methods of sessions are in progress too, and some of them
wait: for a payload, for credit, or for room in `write_chan_`.

Here every operation is a coroutine whose pieces are separate steps, interleaved in
any order with those of any number of others. Closing a channel lets the receivers go
that wait on it. A sender that waits for room stays suspended until the writer takes a
frame, and the writer stops once `closed_` is set.

- `Finishes`: an operation runs on to its end without waiting for anything.
- `closing_resets_all`: if `closed_` is set by `failLink`, every session is inserted
  before that `failLink` clears the table, under a sid that the table does not hold,
  and no sender waits for room when it closes `write_chan_`, then once `failLink` has
  returned the table is empty, every session is closed with its channels, and whatever
  is still in progress finishes.
-/

namespace Shine

/-! ## Methods of a session -/

namespace Session

/-- A method in progress, by the piece that it runs next. -/
inductive Method where
  | read (n : Nat)
  /-- `read`, in `async_receive` on `inbox_`. -/
  | receive (n : Nat)
  | maybeSendWindow
  | write (data : Bytes)
  /-- The loop of `write`, with the bytes that are left. -/
  | writeLoop (rest : Bytes)
  /-- `write`, in `async_receive` on `credit_signal_`. -/
  | awaitCredit (rest : Bytes)
  | sendTo (data : Bytes) (target : Address)
  | receiveFrom
  /-- `receiveFrom`, in `async_receive` on `udp_inbox_`. -/
  | receiveDatagram
  deriving DecidableEq

namespace Method

/-- The method can be called on the session, and is not just a later piece of one. -/
def callable (s : Session) : Method → Bool
  | .read _ | .write _ => s.protocol = .tcp
  | .sendTo .. | .receiveFrom => s.protocol = .udp
  | _ => false

/-- Run the next piece: the session after it, the frame that it enqueues and what of the
method is left. None while it is suspended. A session that lacks the channel has no such
method (`callable`); here it ends. -/
def run (closed : Bool) (maxDataFrame : Nat) (s : Session) :
    Method → Option (Session × Option ShineFrame × Option Method)
  | .read n =>
    match s.readStart n with
    | .bytes _ s' => some (s', none, some .maybeSendWindow)
    | .eof => some (s, none, none)
    | .wait => some (s, none, some (.receive n))
  | .receive n =>
    if s.protocol = .udp then some (s, none, none)
    else match s.receive n with
      | .bytes _ s' => some (s', none, some .maybeSendWindow)
      | .eof => some (s, none, none)
      | .wait => none
  | .maybeSendWindow =>
    if closed then some (s, none, none)
    else some (s.takeWindow.2, s.takeWindow.1.map (.window s.sid), none)
  | .write data =>
    if closed || s.writeClosed then some (s, none, none) else some (s, none, some (.writeLoop data))
  | .writeLoop rest =>
    if rest = [] then some (s, none, none)
    else if s.sendCredit ≤ 0 then some (s, none, some (.awaitCredit rest))
    else
      let chunk := s.chunkSize rest.length maxDataFrame
      -- a frame that may not hold a byte is not sent, and the loop goes round
      if chunk = 0 then some (s, none, some (.writeLoop rest))
      else some (s.takeCredit chunk, some (.data s.sid (rest.take chunk)),
        some (.writeLoop (rest.drop chunk)))
  | .awaitCredit rest =>
    match s.io with
    | .udp _ => some (s, none, none)
    | .tcp inbox creditSignal =>
      let left := if closed then none else some (.writeLoop rest)
      match creditSignal.receive with
      | some (_, creditSignal') => some ({ s with io := .tcp inbox creditSignal' }, none, left)
      | none => if creditSignal.closed then some (s, none, left) else none
  | .sendTo data target =>
    if closed || s.writeClosed then some (s, none, none)
    else some (s, some (.udpData s.sid target.toBinary data), none)
  | .receiveFrom =>
    if s.state = .closed ∨ s.state = .halfClosedRemote then some (s, none, none)
    else some (s, none, some .receiveDatagram)
  | .receiveDatagram =>
    match s.io with
    | .tcp .. => some (s, none, none)
    | .udp inbox =>
      match inbox.receive with
      | some (_, inbox') => some ({ s with io := .udp inbox' }, none, none)
      | none => if inbox.closed then some (s, none, none) else none

end Method

/-- What comes in for a session while its methods run: a DATA frame that finds room in
`inbox_`, a UDP_DATA or a WINDOW frame. -/
inductive Incoming where
  | data (payload : Bytes)
  | udpData (payload : Bytes) (addr : Address)
  | window (delta : UInt32)

/-- The session takes it; none for a DATA frame that would suspend the reader. -/
def take (s : Session) : Incoming → Option Session
  | .data payload =>
    match s.io with
    | .tcp inbox _ => if inbox.queue.length < inbox.cap then some (s.onData payload) else none
    | .udp _ => some s
  | .udpData payload addr => some (s.onUdpData payload addr)
  | .window delta => some (s.onWindow delta)

end Session

namespace Link

/-! ## Operations -/

/-- The request of a NEW or NEW_UDP frame. -/
inductive NewRequest where
  | tcp (sid : UInt64) (addrBlob : Bytes) (initWindow : UInt32)
  | udp (sid : UInt64)
  deriving DecidableEq

namespace NewRequest

/-- The target, parsed. -/
def target : NewRequest → StatusOr Address
  | .tcp _ addrBlob _ => Address.parseBinary addrBlob
  | .udp _ => .ok .default

/-- The session that `dispatchFrame` constructs. -/
def session (l : Link) (target : Address) : NewRequest → Session
  | .tcp sid _ initWindow => .new sid target initWindow l.opts.initWindow .tcp
  | .udp sid => .new sid target 0 l.opts.initWindow .udp

def sid : NewRequest → UInt64
  | .tcp sid .. | .udp sid => sid

end NewRequest

/-- An operation in progress, by the piece that it runs next. Behind `enqueueFrame` a method
`m` of the session object `p` goes on, if `rest` is `some (p, m)`. -/
inductive Op where
  /-- `failLink`, at its exchange on `closed_`. -/
  | failLink
  /-- `closeNow`, at its exchange on `closed_`. -/
  | closeNow
  /-- `openSession`, at its check of `closed_`. -/
  | openCheck (sid : UInt64) (target : Address) (isUdp : Bool)
  /-- `openSession`, at its insertion. -/
  | openInsert (sid : UInt64) (target : Address) (isUdp : Bool)
  /-- `readerLoop`, at its check of `closed_`. -/
  | readerCheck (r : NewRequest)
  /-- `dispatchFrame` for NEW or NEW_UDP. -/
  | dispatch (r : NewRequest)
  | method (p : Nat) (m : Session.Method)
  /-- `enqueueFrame`, at its check of `closed_`. -/
  | enqueueFrame (f : ShineFrame) (rest : Option (Nat × Session.Method))
  /-- `enqueueFrame`, at its `async_send`. -/
  | send (f : ShineFrame) (rest : Option (Nat × Session.Method))
  /-- `enqueueFrame` in its `async_send`, with the place of the frame in `write_chan_`. -/
  | sending (place : Nat) (rest : Option (Nat × Session.Method))
  /-- `writerLoop`, at its check of `closed_`. -/
  | writerLoop
  /-- `writerLoop`, in its `async_receive`. -/
  | writerReceive
  /-- `writerLoop`, in its `async_write`. -/
  | writerWrite
  deriving DecidableEq

/-- The operation that has won the exchange on `closed_`, by the piece that it runs next. -/
inductive Closer where
  /-- `failLink`, before it closes `write_chan_`. -/
  | failClose
  /-- `failLink`, before it empties the table. -/
  | failWalk
  /-- `failLink` with the sessions it still has to reset. -/
  | failReset (all : List Nat)
  /-- The handler that `closeNow` posts to the strand. -/
  | closePosted
  deriving DecidableEq

/-- A link, whether its `write_chan_` has been closed, what is left of the operation that closes
it, and the other operations in progress. -/
structure Closing where
  link : Link
  chanClosed : Bool
  closer : Option Closer
  ops : List Op

/-- The objects that the table holds. -/
def stored (l : Link) : List Nat :=
  (List.range l.next).filter fun p =>
    (l.heap p).any fun s => l.sessions s.sid = some p

/-- Empty the table. -/
def clearSessions (l : Link) : Link := { l with sessions := fun _ => none }

/-- The exchange on `closed_`, with what the winner does next. -/
def Closing.exchange (c : Closing) (next : Closer) : Closing :=
  if c.link.closed then c
  else { c with link := { c.link with closed := true }, closer := some next }

/-- Run the next piece of the operation that closes the link. -/
def Closing.close (c : Closing) : Option Closing :=
  c.closer.map fun
    -- closes the socket and `handshake_signal_` as well
    | .failClose => { c with chanClosed := true, closer := some .failWalk }
    | .failWalk =>
      { c with link := c.link.clearSessions, closer := some (.failReset c.link.stored) }
    | .failReset [] => { c with closer := none }
    | .failReset (p :: rest) =>
      { c with link := c.link.modify p (·.onReset), closer := some (.failReset rest) }
    -- closes what `failClose` closes, and no session
    | .closePosted => { c with chanClosed := true, closer := none }

namespace Op

/-- The operation after the writer has taken a frame off `write_chan_`. -/
def shift : Op → Op
  | .sending place rest => .sending (place - 1) rest
  | op => op

/-- What comes after `enqueueFrame`. -/
def resume (rest : Option (Nat × Session.Method)) : Option Op := rest.map fun (p, m) => .method p m

/-- A method goes on, after the frame that it enqueues. -/
def after (p : Nat) (left : Option Session.Method) : Option ShineFrame → Option Op
  | none => resume (left.map (p, ·))
  | some f => some (.enqueueFrame f (left.map (p, ·)))

/-- Run the next piece of an operation: what it does and what of the operation is left.
None while it is suspended. -/
def run (cap : Nat) (c : Closing) : Op → Option (Closing × Option Op)
  | .failLink => some (c.exchange .failClose, none)
  | .closeNow => some (c.exchange .closePosted, none)
  | .openCheck sid target isUdp =>
    some (c, if c.link.closed then none else some (.openInsert sid target isUdp))
  | .openInsert sid target isUdp =>
    some ({ c with link := c.link.emplace (c.link.openedSession sid target isUdp) },
      some (.enqueueFrame (c.link.openFrame sid target isUdp) none))
  | .readerCheck r => some (c, if c.link.closed then none else some (.dispatch r))
  | .dispatch r =>
    if c.link.onNewSession then
      match r.target with
      | .error _ => some (c, some (.enqueueFrame (.reset r.sid) none))
      -- once the ACK is enqueued, a handler is spawned that calls the methods of the session
      | .ok target =>
        some ({ c with link := c.link.emplace (r.session c.link target) },
          some (.enqueueFrame (.ack r.sid) none))
    else some (c, none)
  | .method p m =>
    match c.link.heap p with
    | none => some (c, none)
    | some s =>
      (m.run c.link.closed c.link.opts.maxDataFrame s).map fun (s', f, left) =>
        ({ c with link := c.link.modify p fun _ => s' }, after p left f)
  | .enqueueFrame f rest => some (c, if c.link.closed then resume rest else some (.send f rest))
  | .send f rest =>
    if c.chanClosed then some (c, resume rest)
    else some ({ c with link := { c.link with writeChan := c.link.writeChan ++ [f] } },
      some (.sending (c.link.writeChan.length + 1) rest))
  | .sending place rest => if place ≤ cap then some (c, resume rest) else none
  | .writerLoop => some (c, if c.link.closed then none else some .writerReceive)
  | .writerReceive =>
    match c.link.writeChan with
    | [] => if c.chanClosed then some (c, none) else none
    | _ :: rest =>
      some ({ c with link := { c.link with writeChan := rest }, ops := c.ops.map shift },
        some .writerWrite)
  -- the socket of a closed link fails the write
  | .writerWrite => some (c, some (if c.link.closed then .failLink else .writerLoop))

end Op

/-- The calls that start an operation; `enqueueFrame` is also called for the frames of the
heartbeat, for PONG and for CLOSE. -/
inductive Call where
  | failLink
  | closeNow
  | openSession (sid : UInt64) (target : Address) (isUdp : Bool)
  | dispatchNew (r : NewRequest)
  | enqueueFrame (f : ShineFrame)
  | method (p : Nat) (m : Session.Method)

/-- The operation that a call starts. -/
def Call.op (l : Link) : Call → Option Op
  | .failLink => some .failLink
  | .closeNow => some .closeNow
  | .openSession sid target isUdp => some (.openCheck sid target isUdp)
  | .dispatchNew r => some (.readerCheck r)
  | .enqueueFrame f => some (.enqueueFrame f none)
  | .method p m => if (l.heap p).any m.callable then some (.method p m) else none

/-- An operation starts, the one at a position runs its next piece, or the one that closes the
link does; a write on the socket fails; something comes in for a session. -/
inductive ClosingEvent where
  | start (c : Call)
  | advance (i : Nat)
  | close
  | writeError (i : Nat)
  | incoming (p : Nat) (m : Session.Incoming)

namespace Closing

/-- The link as `start` leaves it, with its writer. -/
def new (l : Link) : Closing := ⟨l, false, none, [.writerLoop]⟩

/-- Put what is left of the operation at a position in its place. -/
def replace (c : Closing) (i : Nat) (left : Option Op) : Closing :=
  { c with ops := c.ops.take i ++ left.toList ++ c.ops.drop (i + 1) }

end Closing

/-- Any number of operations, their pieces interleaved in any order; `write_chan_` has room for
`cap` frames. -/
def closingSystem (cap : Nat) : Lts Closing ClosingEvent where
  step
    | c, .start call => (call.op c.link).map fun op => { c with ops := c.ops ++ [op] }
    | c, .advance i =>
      (c.ops[i]?).bind fun op => (op.run cap c).map fun (c', left) => c'.replace i left
    | c, .close => c.close
    | c, .writeError i =>
      if c.ops[i]? = some .writerWrite then some (c.replace i (some .failLink)) else none
    | c, .incoming p m =>
      (c.link.heap p).bind fun s =>
        (s.take m).map fun s' => { c with link := c.link.modify p fun _ => s' }

/-- The sid that the next piece of an operation inserts, if any. -/
def Op.inserts (l : Link) : Op → Option UInt64
  | .openInsert sid _ _ => some sid
  | .dispatch r => if l.onNewSession && r.target.isOk then some r.sid else none
  | _ => none

/-- The operation is a send that waits for room. -/
def Op.blocked (cap : Nat) : Op → Bool
  | .sending place _ => cap < place
  | _ => false

/-- `closed_` is not set by `closeNow`, and a session is inserted before `failLink` empties the
table, under a sid that the table does not hold. -/
@[mk_iff]
structure Op.InTime (c : Closing) (op : Op) : Prop where
  not_closeNow : op = .closeNow → c.link.closed = true
  before_walk : (op.inserts c.link).isSome →
    c.link.closed = false ∨ c.closer = some .failClose ∨ c.closer = some .failWalk
  fresh : (op.inserts c.link).bind c.link.sessions = none

instance (c : Closing) (op : Op) : Decidable (op.InTime c) :=
  decidable_of_iff _ (Op.inTime_iff c op).symm

/-- The guard on events that `closing_resets_all` needs. When `failLink` closes `write_chan_`,
no send waits for room. -/
def InTime (cap : Nat) (c : Closing) : ClosingEvent → Prop
  | .advance i => ∀ op ∈ c.ops[i]?, op.InTime c
  | .close => c.closer = some .failClose → ∀ op ∈ c.ops, op.blocked cap = false
  | _ => True

instance (cap : Nat) : ∀ c e, Decidable (InTime cap c e)
  | c, .advance i => inferInstanceAs (Decidable (∀ op ∈ c.ops[i]?, op.InTime c))
  | c, .close => inferInstanceAs
      (Decidable (c.closer = some .failClose → ∀ op ∈ c.ops, op.blocked cap = false))
  | _, .start _ | _, .writeError _ | _, .incoming .. => .isTrue trivial

end Link

/-! ## What the pieces keep -/

namespace Session

/-- What neither the methods of a session nor frames with payload or credit change. -/
def outline (s : Session) : UInt64 × SessionState × Bool :=
  (s.sid, s.state, s.channelsClosed)

variable {s s' : Session}

theorem outline_of_io (hsid : s'.sid = s.sid) (hstate : s'.state = s.state) (hio : s'.io = s.io) :
    s'.outline = s.outline := by
  simp only [outline, channelsClosed, hsid, hstate, hio]

theorem outline_receive {n : Nat} {out : Bytes} (h : s.receive n = .bytes out s') :
    s'.outline = s.outline := by
  unfold receive at h
  split at h
  · cases h
  rename_i inbox creditSignal hio
  cases hq : inbox.queue with
  | nil =>
    simp only [Chan.receive, hq] at h
    split_ifs at h
  | cons pay rest =>
    simp only [Chan.receive, hq] at h
    cases h
    unfold consumed keepRest
    split_ifs <;> simp [outline, channelsClosed, hio, SessionIo.allClosed]

theorem outline_take {m : Incoming} (h : s.take m = some s') : s'.outline = s.outline := by
  cases m with
  | data payload =>
    simp only [take] at h
    split at h
    · rename_i inbox creditSignal hio
      split_ifs at h
      cases h
      simp only [onData, hio]
      split_ifs
      · rfl
      · simp [outline, channelsClosed, hio, SessionIo.allClosed]
    · cases h
      rfl
  | udpData payload addr =>
    cases h
    unfold onUdpData
    split
    · rfl
    · rename_i inbox hio
      simp [outline, channelsClosed, hio, SessionIo.allClosed]
  | window delta =>
    cases h
    cases hio : s.io <;>
      simp [outline, onWindow, channelsClosed, hio, SessionIo.allClosed]

namespace Method

variable {m : Method} {closed : Bool} {maxDataFrame : Nat} {f : Option ShineFrame}
  {left : Option Method}

theorem run_outline (h : m.run closed maxDataFrame s = some (s', f, left)) :
    s'.outline = s.outline := by
  cases m with
  | read n =>
    simp only [run] at h
    split at h <;> cases h
    · rename_i hread
      obtain ⟨-, -, -, -, hio, hstate, -, hsid, -⟩ := readStart_bytes hread
      exact outline_of_io hsid hstate hio
    · rfl
    · rfl
  | receive n =>
    simp only [run] at h
    split_ifs at h
    · cases h
      rfl
    · split at h <;> cases h
      · rename_i hread
        exact outline_receive hread
      · rfl
  | maybeSendWindow =>
    simp only [run] at h
    split_ifs at h <;> cases h
    · rfl
    · unfold takeWindow
      split_ifs <;> rfl
  | awaitCredit rest =>
    simp only [run] at h
    split at h
    · cases h
      rfl
    rename_i inbox creditSignal hio
    cases hq : creditSignal.queue with
    | nil =>
      simp only [Chan.receive, hq] at h
      split_ifs at h <;> cases h <;> rfl
    | cons x tail =>
      simp only [Chan.receive, hq] at h
      cases h
      simp [outline, channelsClosed, hio, SessionIo.allClosed]
  | receiveDatagram =>
    simp only [run] at h
    split at h
    · cases h
      rfl
    rename_i inbox hio
    cases hq : inbox.queue with
    | nil =>
      simp only [Chan.receive, hq] at h
      split_ifs at h
      cases h
      rfl
    | cons x tail =>
      simp only [Chan.receive, hq] at h
      cases h
      simp [outline, channelsClosed, hio, SessionIo.allClosed]
  | write data | writeLoop rest | sendTo data target | receiveFrom =>
    simp only [run] at h
    split_ifs at h <;> cases h <;> rfl

end Method

end Session

namespace Link

variable {cap : Nat} {l l' : Link} {c c' : Closing} {op : Op} {left : Option Op}

/-- The queue changes, or a session as its methods change it. -/
inductive Quiet (l : Link) : Link → Prop where
  | queue (fs : List ShineFrame) : Quiet l { l with writeChan := fs }
  | session {p : Nat} {s s' : Session} (hp : l.heap p = some s) (hs : s'.outline = s.outline) :
      Quiet l (l.modify p fun _ => s')

theorem Quiet.same (h : Quiet l l') : l'.closed = l.closed ∧ l'.sessions = l.sessions := by
  cases h <;> exact ⟨rfl, rfl⟩

theorem Quiet.back (h : Quiet l l') {p : Nat} {s' : Session} (hp : l'.heap p = some s') :
    ∃ s, l.heap p = some s ∧ s'.outline = s.outline := by
  cases h with
  | queue fs => exact ⟨s', hp, rfl⟩
  | session hq hs =>
    rw [modify_heap] at hp
    split_ifs at hp with heq
    · rw [hq] at hp
      cases hp
      exact ⟨_, heq ▸ hq, hs⟩
    · exact ⟨s', hp, rfl⟩

/-- What a piece of an operation can do; on a closed `write_chan_` it does not start to wait for
room. -/
inductive Moves (cap : Nat) (c : Closing) : Op → Closing → Option Op → Prop where
  | quiet {op : Op} {l : Link} {ops : List Op} {left : Option Op} (hquiet : Quiet c.link l)
      (hops : ops = c.ops ∨ ops = c.ops.map Op.shift)
      (hleft : c.chanClosed = true → ∀ o ∈ left, o.blocked cap = false) :
      Moves cap c op { c with link := l, ops := ops } left
  | insert {op : Op} {s : Session} (f : ShineFrame) (hs : s.state = .opened)
      (hins : op.inserts c.link = some s.sid) :
      Moves cap c op { c with link := c.link.emplace s } (some (.enqueueFrame f none))
  | exchange {op : Op} (next : Closer) (hopen : c.link.closed = false)
      (hop : (op = .failLink ∧ next = .failClose) ∨ (op = .closeNow ∧ next = .closePosted)) :
      Moves cap c op { c with link := { c.link with closed := true }, closer := some next } none

/-- A piece that only looks. -/
theorem Moves.looks (hleft : ∀ o ∈ left, o.blocked cap = false) : Moves cap c op c left :=
  .quiet (.queue c.link.writeChan) (.inl rfl) fun _ => hleft

theorem resume_unblocked {rest : Option (Nat × Session.Method)} :
    ∀ o ∈ Op.resume rest, o.blocked cap = false := by
  rintro o ho
  obtain ⟨⟨p, m⟩, -, rfl⟩ := Option.map_eq_some_iff.mp ho
  rfl

theorem after_unblocked {p : Nat} {m : Option Session.Method} {f : Option ShineFrame} :
    ∀ o ∈ Op.after p m f, o.blocked cap = false := by
  intro o ho
  cases f with
  | none => exact resume_unblocked o ho
  | some f =>
    cases ho
    rfl

theorem moves_of_run (h : op.run cap c = some (c', left)) : Moves cap c op c' left := by
  cases op with
  | failLink | closeNow =>
    cases h
    unfold Closing.exchange
    split_ifs with hc
    · exact .looks (by simp)
    · exact .exchange _ (Bool.eq_false_iff.mpr hc) (by simp)
  | openCheck | readerCheck | writerLoop | writerWrite =>
    cases h
    refine .looks ?_
    split_ifs <;> simp [Op.blocked]
  | enqueueFrame f rest =>
    cases h
    refine .looks ?_
    split_ifs
    · exact resume_unblocked
    · simp [Op.blocked]
  | openInsert sid target isUdp =>
    cases h
    exact .insert _ rfl rfl
  | dispatch r =>
    simp only [Op.run] at h
    split_ifs at h with hhandler
    · split at h <;> cases h
      · exact .looks (by simp [Op.blocked])
      · rename_i target htarget
        refine .insert _ ?_ ?_
        · cases r <;> rfl
        · cases r <;> simp [Op.inserts, hhandler, htarget, Except.isOk, Except.toBool,
            NewRequest.session, NewRequest.sid, Session.new]
    · cases h
      exact .looks (by simp)
  | method p m =>
    simp only [Op.run] at h
    split at h
    · cases h
      exact .looks (by simp)
    rename_i s hp
    obtain ⟨⟨s', f, left⟩, hrun, h⟩ := Option.map_eq_some_iff.mp h
    cases h
    exact .quiet (.session hp (Session.Method.run_outline hrun)) (.inl rfl) fun _ => after_unblocked
  | send f rest =>
    simp only [Op.run] at h
    split_ifs at h with hchan <;> cases h
    · exact .looks resume_unblocked
    · exact .quiet (.queue _) (.inl rfl) fun hc => absurd hc hchan
  | sending place rest =>
    simp only [Op.run] at h
    split_ifs at h
    cases h
    exact .looks resume_unblocked
  | writerReceive =>
    simp only [Op.run] at h
    split at h
    · split_ifs at h
      cases h
      exact .looks (by simp)
    · cases h
      exact .quiet (.queue _) (.inr rfl) (by simp [Op.blocked])

/-! ## The phases of a close -/

/-- The session is closed, with all its channels. -/
def Released (s : Session) : Prop := s.state = .closed ∧ s.channelsClosed = true

theorem Released.of_outline {s s' : Session} (h : Released s) (heq : s'.outline = s.outline) :
    Released s' :=
  ⟨(congrArg (·.2.1) heq).trans h.1, (congrArg (·.2.2) heq).trans h.2⟩

/-- The table is sound, and no session has been closed. -/
structure Whole (l : Link) : Prop extends l.Sound where
  opened : ∀ p s, l.heap p = some s → s.state = .opened

theorem Whole.quiet (h : Whole l) (hq : Quiet l l') : Whole l' := by
  refine ⟨?_, fun p s' hp => ?_⟩
  · cases hq with
    | queue fs => exact h.toSound.congr rfl rfl rfl
    | session hp hs =>
      have hstate := congrArg (·.2.1) hs
      refine h.toSound.modify _ _ (fun t ht => ?_) fun t ht => ?_ <;> cases hp.symm.trans ht
      · exact congrArg (·.1) hs
      · exact ⟨hstate.symm.trans, hstate.trans⟩
  · obtain ⟨s, hs, heq⟩ := hq.back hp
    exact (congrArg (·.2.1) heq).trans (h.opened p s hs)

theorem Whole.emplace (h : Whole l) {s : Session} (hs : s.state = .opened)
    (hfree : l.sessions s.sid = none) : Whole (l.emplace s) := by
  refine ⟨h.toSound.emplace hfree (by simp [hs]), fun p t hp => ?_⟩
  rw [emplace_heap] at hp
  split_ifs at hp
  · cases hp
    exact hs
  · exact h.opened p t hp

/-- `failLink` has gathered the sessions and has those in `ps` still to reset. -/
structure Emptied (c : Closing) (ps : List Nat) : Prop where
  closed : c.link.closed = true
  chan : c.chanClosed = true
  table : ∀ sid, c.link.sessions sid = none
  heap : ∀ p s, c.link.heap p = some s → p ∉ ps → Released s

/-- The phases that a guarded run goes through, by what is left of `failLink`. -/
inductive Phase (c : Closing) : Option Closer → Prop where
  | opened (hclosed : c.link.closed = false) (h : Whole c.link) : Phase c none
  | closing (hclosed : c.link.closed = true) (h : Whole c.link) : Phase c (some .failClose)
  | walking (hclosed : c.link.closed = true) (hchan : c.chanClosed = true) (h : Whole c.link) :
      Phase c (some .failWalk)
  | resetting (ps : List Nat) (h : Emptied c ps) : Phase c (some (.failReset ps))
  | done (h : Emptied c []) : Phase c none

theorem Emptied.quiet {ps : List Nat} (h : Emptied c ps) (hq : Quiet c.link l) (ops : List Op) :
    Emptied { c with link := l, ops := ops } ps := by
  obtain ⟨hclosed, htable⟩ := hq.same
  refine ⟨hclosed.trans h.closed, h.chan, fun sid => htable ▸ h.table sid, fun p s' hp hps => ?_⟩
  obtain ⟨s, hs, heq⟩ := hq.back hp
  exact (h.heap p s hs hps).of_outline heq

theorem Phase.quiet {w : Option Closer} (h : Phase c w) (hq : Quiet c.link l) (ops : List Op) :
    Phase { c with link := l, ops := ops } w := by
  have hclosed := hq.same.1
  cases h with
  | opened hc hw => exact .opened (hclosed.trans hc) (hw.quiet hq)
  | closing hc hw => exact .closing (hclosed.trans hc) (hw.quiet hq)
  | walking hc hchan hw => exact .walking (hclosed.trans hc) hchan (hw.quiet hq)
  | resetting ps he => exact .resetting ps (he.quiet hq ops)
  | done he => exact .done (he.quiet hq ops)

/-- It does not depend on what else is in progress. -/
theorem Phase.ops {w : Option Closer} (h : Phase c w) (ops : List Op) :
    Phase { c with ops := ops } w :=
  h.quiet (.queue c.link.writeChan) ops

/-- An insertion in time keeps the phase. -/
theorem Phase.emplace (h : Phase c c.closer) {s : Session} (hs : s.state = .opened)
    (hfree : c.link.sessions s.sid = none)
    (htime : c.link.closed = false ∨ c.closer = some .failClose ∨ c.closer = some .failWalk) :
    Phase { c with link := c.link.emplace s } c.closer := by
  generalize c.closer = w at h htime ⊢
  cases h with
  | opened hc hw => exact .opened hc (hw.emplace hs hfree)
  | closing hc hw => exact .closing hc (hw.emplace hs hfree)
  | walking hc hchan hw => exact .walking hc hchan (hw.emplace hs hfree)
  | resetting _ he | done he => simp [he.closed] at htime

theorem Phase.exchange (h : Phase c c.closer) (hopen : c.link.closed = false) :
    Phase { c with link := { c.link with closed := true }, closer := some .failClose }
      (some .failClose) := by
  generalize c.closer = w at h
  cases h with
  | opened hc hw => exact .closing rfl ⟨hw.toSound.congr rfl rfl rfl, hw.opened⟩
  | closing hc | walking hc => simp [hc] at hopen
  | resetting _ he | done he => simp [he.closed] at hopen

theorem mem_stored (hl : l.Sound) {p : Nat} {s : Session} (hp : l.heap p = some s)
    (hopen : s.state ≠ .closed) : p ∈ l.stored := by
  have hlt : p < l.next := by
    by_contra hge
    rw [hl.unused p (Nat.le_of_not_lt hge)] at hp
    cases hp
  simp [stored, hlt, hp, hl.live_stored p s hp hopen]

/-- **`failLink` runs on** from phase to phase. -/
theorem Phase.close (h : Phase c c.closer) (hclose : c.close = some c') : Phase c' c'.closer := by
  obtain ⟨w, hw, rfl⟩ := Option.map_eq_some_iff.mp hclose
  rw [hw] at h
  cases h with
  | closing hc hwhole => exact .walking hc rfl hwhole
  | walking hc hchan hwhole =>
    refine .resetting _ ⟨hc, hchan, fun _ => rfl, fun p s hp hps => absurd ?_ hps⟩
    exact mem_stored hwhole.toSound hp (by simp [hwhole.opened p s hp])
  | resetting ps he =>
    cases ps with
    | nil => exact .done ⟨he.closed, he.chan, he.table, he.heap⟩
    | cons p rest =>
      refine .resetting rest ⟨he.closed, he.chan, he.table, fun q t hq hqs => ?_⟩
      rw [modify_heap] at hq
      split_ifs at hq with hqp
      · obtain ⟨s, -, rfl⟩ := Option.map_eq_some_iff.mp hq
        exact ⟨rfl, Session.onReset_channelsClosed s⟩
      · exact he.heap q t hq (by simp [hqp, hqs])

/-! ## Guarded runs -/

/-- What holds in every guarded run. -/
structure Inv (cap : Nat) (c : Closing) : Prop where
  phase : Phase c c.closer
  unblocked : c.chanClosed = true → ∀ o ∈ c.ops, o.blocked cap = false

theorem shift_blocked (h : op.blocked cap = false) : op.shift.blocked cap = false := by
  cases op with
  | sending place rest =>
    simp only [Op.shift, Op.blocked, decide_eq_false_iff_not] at h ⊢
    omega
  | _ => rfl

theorem mem_replace {i : Nat} {o : Op} (h : o ∈ (c.replace i left).ops) : o ∈ left ∨ o ∈ c.ops := by
  simp only [Closing.replace, List.mem_append, Option.mem_toList] at h
  rcases h with (h | h) | h
  · exact .inr (List.mem_of_mem_take h)
  · exact .inl h
  · exact .inr (List.mem_of_mem_drop h)

theorem Inv.advance (h : Inv cap c) (hok : op.InTime c) (hmoves : Moves cap c op c' left) (i : Nat) :
    Inv cap (c'.replace i left) := by
  cases hmoves with
  | quiet hquiet hops hleft =>
    refine ⟨h.phase.quiet hquiet _, fun hc o ho => ?_⟩
    rcases mem_replace ho with ho | ho
    · exact hleft hc o ho
    · rcases hops with rfl | rfl
      · exact h.unblocked hc o ho
      · obtain ⟨o', ho', rfl⟩ := List.mem_map.mp ho
        exact shift_blocked (h.unblocked hc o' ho')
  | insert f hs hins =>
    have hfresh := hok.fresh
    rw [hins] at hfresh
    refine ⟨(h.phase.emplace hs hfresh (hok.before_walk (by simp [hins]))).ops _, ?_⟩
    intro hc o ho
    rcases mem_replace ho with ho | ho
    · cases ho
      rfl
    · exact h.unblocked hc o ho
  | exchange next hopen hop =>
    rcases hop with ⟨rfl, rfl⟩ | ⟨rfl, rfl⟩
    · refine ⟨(h.phase.exchange hopen).ops _, fun hc o ho => h.unblocked hc o ?_⟩
      exact (mem_replace ho).resolve_left (by simp)
    · rw [hok.not_closeNow rfl] at hopen
      cases hopen

theorem Inv.step (h : Inv cap c) {e : ClosingEvent} (hok : InTime cap c e)
    (hstep : (closingSystem cap).step c e = some c') : Inv cap c' := by
  cases e with
  | start call =>
    obtain ⟨op, hop, rfl⟩ := Option.map_eq_some_iff.mp hstep
    refine ⟨h.phase.ops _, fun hc o ho => ?_⟩
    rcases List.mem_append.mp ho with ho | ho
    · exact h.unblocked hc o ho
    · obtain rfl := List.mem_singleton.mp ho
      cases call <;> simp only [Call.op] at hop <;> try split_ifs at hop
      all_goals
        cases hop
        rfl
  | advance i =>
    obtain ⟨op, hop, hstep⟩ := Option.bind_eq_some_iff.mp hstep
    obtain ⟨⟨c', left⟩, hrun, rfl⟩ := Option.map_eq_some_iff.mp hstep
    exact h.advance (hok op hop) (moves_of_run hrun) i
  | close =>
    refine ⟨h.phase.close hstep, fun hc => ?_⟩
    obtain ⟨w, hw, rfl⟩ := Option.map_eq_some_iff.mp hstep
    cases w with
    | failClose => exact hok hw
    | failReset all => cases all <;> exact h.unblocked hc
    | failWalk => exact h.unblocked hc
    | closePosted =>
      have hphase := h.phase
      rw [hw] at hphase
      cases hphase
  | writeError i =>
    simp only [closingSystem] at hstep
    split_ifs at hstep
    cases hstep
    refine ⟨h.phase.ops _, fun hc o ho => ?_⟩
    rcases mem_replace ho with ho | ho
    · cases ho
      rfl
    · exact h.unblocked hc o ho
  | incoming p m =>
    obtain ⟨s, hs, hstep⟩ := Option.bind_eq_some_iff.mp hstep
    obtain ⟨s', hs', rfl⟩ := Option.map_eq_some_iff.mp hstep
    exact ⟨h.phase.quiet (.session hs (Session.outline_take hs')) c.ops, h.unblocked⟩

/-! ## After a close -/

/-- The operation runs to its end, waiting for nothing. -/
inductive Finishes (cap : Nat) : Closing → Op → Closing → Prop where
  | last {c c' : Closing} {op : Op} : op.run cap c = some (c', none) → Finishes cap c op c'
  | more {c c₁ c' : Closing} {op left : Op} :
      op.run cap c = some (c₁, some left) → Finishes cap c₁ left c' → Finishes cap c op c'

/-- How far a method is from its end on a closed link. -/
def methodRank : Session.Method → Nat
  | .read _ => 3
  | .receive _ => 2
  | .writeLoop rest => 2 * rest.length + 2
  | _ => 1

/-- How far an operation is from its end on a closed link. -/
def Op.rank : Op → Nat
  | .method _ m => methodRank m
  | .enqueueFrame _ rest | .send _ rest | .sending _ rest => rest.elim 0 (methodRank ·.2) + 1
  | .openInsert .. | .dispatch _ | .writerWrite => 2
  | .writerReceive => 3
  | _ => 1

/-- On a closed link nothing keeps a method waiting that works on a closed session, and with
frames that hold at least a byte it comes closer to its end. -/
theorem method_released {s : Session} (hs : Released s) (maxDataFrame : Nat)
    (m : Session.Method) :
    ∃ s' f left, m.run true maxDataFrame s = some (s', f, left) ∧
      (0 < maxDataFrame → left.elim 0 methodRank + f.toList.length < methodRank m) := by
  obtain ⟨hstate, hchannels⟩ := hs
  cases m with
  | read n =>
    simp only [Session.Method.run]
    cases hread : s.readStart n with
    | bytes out s' => exact ⟨_, _, _, rfl, by simp [methodRank]⟩
    | eof => exact ⟨_, _, _, rfl, by simp [methodRank]⟩
    | wait =>
      unfold Session.readStart at hread
      split_ifs at hread with hunread hclosed
      exact absurd (.inl hstate) hclosed
  | receive n =>
    simp only [Session.Method.run]
    split_ifs with hudp
    · exact ⟨_, _, _, rfl, by simp [methodRank]⟩
    cases hread : s.receive n with
    | bytes out s' => exact ⟨_, _, _, rfl, by simp [methodRank]⟩
    | eof => exact ⟨_, _, _, rfl, by simp [methodRank]⟩
    | wait =>
      exfalso
      cases hio : s.io <;> simp_all [Session.receive, Session.protocol, Session.channelsClosed,
        SessionIo.allClosed]
      split at hread <;> simp_all
  | writeLoop rest =>
    simp only [Session.Method.run]
    split_ifs with hrest hcredit hchunk
    · exact ⟨_, _, _, rfl, by simp [methodRank]⟩
    · exact ⟨_, _, _, rfl, by simp [methodRank]⟩
    · refine ⟨_, _, _, rfl, fun hpos => absurd hchunk ?_⟩
      have hlen := List.length_pos_iff.mpr hrest
      simp only [Session.chunkSize]
      omega
    · refine ⟨_, _, _, rfl, fun _ => ?_⟩
      have hlen := List.length_pos_iff.mpr hrest
      simp only [methodRank, Option.elim_some, List.length_drop, Option.toList_some,
        List.length_singleton]
      omega
  | awaitCredit rest =>
    simp only [Session.Method.run]
    cases hio : s.io with
    | udp _ => exact ⟨_, _, _, rfl, by simp [methodRank]⟩
    | tcp inbox creditSignal =>
      simp only [Session.channelsClosed, hio, SessionIo.allClosed, Bool.and_eq_true] at hchannels
      cases hq : creditSignal.queue <;> simp [Chan.receive, hq, hchannels.2, methodRank]
  | receiveDatagram =>
    simp only [Session.Method.run]
    cases hio : s.io with
    | tcp _ _ => exact ⟨_, _, _, rfl, by simp [methodRank]⟩
    | udp inbox =>
      simp only [Session.channelsClosed, hio, SessionIo.allClosed] at hchannels
      cases hq : inbox.queue <;> simp [Chan.receive, hq, hchannels, methodRank]
  | maybeSendWindow | write data | sendTo data target => exact ⟨_, _, _, rfl, by simp [methodRank]⟩
  | receiveFrom => exact ⟨_, _, _, if_pos (.inl hstate), by simp [methodRank]⟩

/-- The method that the operation is in, or goes on with. -/
def Op.call : Op → Option (Nat × Session.Method)
  | .method p m => some (p, m)
  | .enqueueFrame _ rest | .send _ rest | .sending _ rest => rest
  | _ => none

theorem after_spec {p : Nat} {left : Option Session.Method} {f : Option ShineFrame} {o : Op}
    (h : o ∈ Op.after p left f) :
    (∀ q m, o.call = some (q, m) → q = p) ∧
      o.rank ≤ left.elim 0 methodRank + f.toList.length := by
  cases f <;> cases left <;> cases h <;> simp [Op.call, Op.rank, eq_comm]

/-- The link is closed, the operation does not wait for room, and its session is closed too. -/
structure Ready (cap : Nat) (c : Closing) (op : Op) : Prop where
  closed : c.link.closed = true
  chan : c.chanClosed = true
  unblocked : op.blocked cap = false
  released : ∀ p m s, op.call = some (p, m) → c.link.heap p = some s → Released s

theorem Ready.resume {rest : Option (Nat × Session.Method)} (h : Ready cap c op)
    (hcall : op.call = rest) (hrank : op.rank = rest.elim 0 (methodRank ·.2) + 1) :
    ∀ o ∈ Op.resume rest,
      Ready cap c o ∧ (0 < c.link.opts.maxDataFrame → o.rank < op.rank) := by
  intro o ho
  obtain ⟨⟨p, m⟩, rfl, rfl⟩ := Option.map_eq_some_iff.mp ho
  refine ⟨⟨h.closed, h.chan, rfl, fun q n s hq => ?_⟩, fun _ => hrank ▸ Nat.lt_succ_self _⟩
  cases hq
  exact h.released p m s hcall

/-- What is left of an operation without a method. -/
theorem Ready.plain (h : Ready cap c op) {o : Op} (hclosed : c'.link.closed = c.link.closed)
    (hchan : c'.chanClosed = c.chanClosed) (hcall : o.call = none)
    (hblocked : o.blocked cap = false) : Ready cap c' o :=
  ⟨hclosed.trans h.closed, hchan.trans h.chan, hblocked, fun p m s hc => by simp [hcall] at hc⟩

theorem Ready.method {p : Nat} {m : Session.Method} (h : Ready cap c (.method p m)) :
    ∃ c' left, (Op.method p m).run cap c = some (c', left) ∧ c'.link.opts = c.link.opts ∧
      ∀ o ∈ left, Ready cap c' o ∧
        (0 < c.link.opts.maxDataFrame → o.rank < (Op.method p m).rank) := by
  cases hp : c.link.heap p with
  | none => exact ⟨c, none, by simp [Op.run, hp], rfl, by simp⟩
  | some s =>
    have hs := h.released p m s rfl hp
    obtain ⟨s', f, left, hrun, hrank⟩ := method_released hs c.link.opts.maxDataFrame m
    refine ⟨{ c with link := c.link.modify p fun _ => s' }, Op.after p left f,
      by simp [Op.run, hp, h.closed, hrun], rfl, fun o ho => ⟨⟨h.closed, h.chan, ?_, ?_⟩,
        fun hpos => (after_spec ho).2.trans_lt (hrank hpos)⟩⟩
    · exact after_unblocked o ho
    · intro q n t hcall ht
      obtain rfl := (after_spec ho).1 q n hcall
      obtain rfl : s' = t := by simpa [modify_heap, hp] using ht
      exact hs.of_outline (Session.Method.run_outline hrun)

/-- **After a close no operation waits.** -/
theorem Ready.run (h : Ready cap c op) :
    ∃ c' left, op.run cap c = some (c', left) ∧ c'.link.opts = c.link.opts ∧
      ∀ o ∈ left, Ready cap c' o ∧ (0 < c.link.opts.maxDataFrame → o.rank < op.rank) := by
  cases op with
  | failLink | closeNow =>
    exact ⟨c, none, by simp [Op.run, Closing.exchange, h.closed], rfl, by simp⟩
  | openCheck | readerCheck | writerLoop =>
    exact ⟨c, none, by simp [Op.run, h.closed], rfl, by simp⟩
  | openInsert sid target isUdp =>
    refine ⟨_, _, rfl, rfl, fun o ho => ?_⟩
    cases ho
    exact ⟨h.plain rfl rfl rfl rfl, fun _ => by simp [Op.rank]⟩
  | dispatch r =>
    simp only [Op.run]
    split_ifs
    · split <;> refine ⟨_, _, rfl, rfl, fun o ho => ?_⟩ <;> cases ho
      · exact ⟨h.plain rfl rfl rfl rfl, fun _ => by simp [Op.rank]⟩
      · exact ⟨h.plain rfl rfl rfl rfl, fun _ => by simp [Op.rank]⟩
    · exact ⟨c, none, rfl, rfl, by simp⟩
  | method p m => exact h.method
  | enqueueFrame f rest =>
    exact ⟨c, Op.resume rest, by simp [Op.run, h.closed], rfl, h.resume rfl rfl⟩
  | send f rest => exact ⟨c, Op.resume rest, by simp [Op.run, h.chan], rfl, h.resume rfl rfl⟩
  | sending place rest =>
    have hroom : place ≤ cap := by simpa [Op.blocked] using h.unblocked
    exact ⟨c, _, if_pos hroom, rfl, h.resume rfl rfl⟩
  | writerReceive =>
    simp only [Op.run]
    split
    · exact ⟨c, none, by simp [h.chan], rfl, by simp⟩
    · refine ⟨_, _, rfl, rfl, fun o ho => ?_⟩
      cases ho
      exact ⟨h.plain rfl rfl rfl rfl, fun _ => by simp [Op.rank]⟩
  | writerWrite =>
    refine ⟨c, some .failLink, by simp [Op.run, h.closed], rfl, fun o ho => ?_⟩
    cases ho
    exact ⟨h.plain rfl rfl rfl rfl, fun _ => by simp [Op.rank]⟩

theorem Ready.finishes (h : Ready cap c op) (hframe : 0 < c.link.opts.maxDataFrame) :
    ∃ c', Finishes cap c op c' := by
  induction hn : op.rank using Nat.strong_induction_on generalizing c op with
  | _ n ih =>
    obtain ⟨c', left, hrun, hopts, hleft⟩ := h.run
    cases left with
    | none => exact ⟨c', .last hrun⟩
    | some o =>
      obtain ⟨hready, hrank⟩ := hleft o rfl
      obtain ⟨c'', hfin⟩ := ih o.rank (hn ▸ hrank hframe) hready (hopts ▸ hframe) rfl
      exact ⟨c'', .more hrun hfin⟩

/-- **Closing a link resets every session**, in every run in which `closed_` is set by `failLink`
and not by `closeNow`, every session is inserted before that `failLink` empties the table, under a
sid that the table does not hold, and no send waits for room when it closes `write_chan_`. Once it
has returned, the table is empty and every session ever created is closed with all its channels;
and no operation in progress waits. If frames may hold a byte, each of them runs to its end. -/
theorem closing_resets_all (cap : Nat) (opts : LinkOptions) (handler : Bool) (now : UInt64)
    {c : Closing}
    (h : (closingSystem cap).Reach (InTime cap) (.new (.new opts handler now)) c)
    (hclosed : c.link.closed = true) (hreturned : c.closer = none) :
    (∀ sid, c.link.sessions sid = none) ∧
      (∀ p s, c.link.heap p = some s → s.state = .closed ∧ s.channelsClosed = true) ∧
      ∀ op ∈ c.ops, op.run cap c ≠ none ∧
        (0 < c.link.opts.maxDataFrame → ∃ c', Finishes cap c op c') := by
  have hinv : Inv cap c := by
    refine h.invariant ⟨.opened rfl ⟨sound_new opts handler now, ?_⟩, ?_⟩ fun c e c' hc hok hstep =>
      hc.step hok hstep
    · exact fun _ _ hp => nomatch hp
    · exact fun hchan => nomatch hchan
  have hphase := hinv.phase
  rw [hreturned] at hphase
  cases hphase with
  | opened hopen =>
    rw [hclosed] at hopen
    cases hopen
  | done hempty =>
    have hreleased (p : Nat) (s : Session) (hp : c.link.heap p = some s) : Released s :=
      hempty.heap p s hp List.not_mem_nil
    refine ⟨hempty.table, hreleased, fun op hop => ?_⟩
    have hready : Ready cap c op := ⟨hclosed, hempty.chan, hinv.unblocked hempty.chan op hop,
      fun p m s _ => hreleased p s⟩
    obtain ⟨c', left, hrun, -⟩ := hready.run
    exact ⟨by simp [hrun], hready.finishes⟩

/-- One session with a pending `receiveFrom`. -/
theorem closing_resets_all_one_session :
    ∃ c : Closing, c.ops = [.method 0 .receiveDatagram] ∧ (∀ sid, c.link.sessions sid = none) ∧
      (∀ p s, c.link.heap p = some s → s.state = .closed ∧ s.channelsClosed = true) ∧
      ∀ op ∈ c.ops, op.run 1024 c ≠ none ∧
        (0 < c.link.opts.maxDataFrame → ∃ c', Finishes 1024 c op c') :=
  ⟨_, rfl, closing_resets_all 1024 sampleOpts true 0
    (Lts.reach_of_exec [.start (.dispatchNew (.udp 7)), .advance 1, .advance 1, .advance 1,
      .advance 1, .advance 1, .start (.method 0 .receiveFrom), .advance 1, .start .failLink,
      .advance 2, .close, .close, .close, .close, .advance 0] rfl) rfl rfl⟩

/-- `write_chan_` can fill up, while the writer does not run. -/
theorem reach_full {c₀ c : Closing} (h : (closingSystem cap).Reach Lts.Free c₀ c)
    (hopen : c.link.closed = false) (hchan : c.chanClosed = false) (hops : c.ops = [.writerLoop])
    (hroom : c.link.writeChan.length ≤ cap) :
    ∃ queue, queue.length = cap ∧ (closingSystem cap).Reach Lts.Free c₀
      { c with link := { c.link with writeChan := queue } } := by
  induction hn : cap - c.link.writeChan.length generalizing c with
  | zero => exact ⟨c.link.writeChan, by omega, h⟩
  | succ n ih =>
    have hfits : c.link.writeChan.length + 1 ≤ cap := by omega
    have hnext : (closingSystem cap).Reach Lts.Free c { c with link :=
        { c.link with writeChan := c.link.writeChan ++ [.ping 1] } } := by
      refine Lts.reach_of_exec [.start (.enqueueFrame (.ping 1)), .advance 1, .advance 1,
        .advance 1] ?_
      simp [Lts.exec, Lts.Free, closingSystem, Call.op, Op.run, Closing.replace, Op.resume, hopen,
        hchan, hops, hfits]
    have hrest := ih (h.trans hnext) hopen hchan hops (by simpa using hfits) (by simp; omega)
    exact hrest

/-- Four runs that leave something behind. The link is closed by `closeNow`, and a pending
`receiveFrom` waits; a session is inserted after `failLink` has emptied the table, `openSession`
having found the link open; a second session has the sid of a first; `write_chan_` is full, and a
pending `write` waits for room. In each of them everything else has finished. -/
theorem closing_leaves_sessions :
    (∃ c, (closingSystem 1024).Reach Lts.Free (.new sampleServer) c ∧ c.link.closed = true ∧
      c.closer = none ∧ c.link.sessions 7 = some 0 ∧
      (c.link.heap 0).map (·.state) = some .opened ∧ c.ops = [.method 0 .receiveDatagram] ∧
      (Op.method 0 .receiveDatagram).run 1024 c = none) ∧
    (∃ c, (closingSystem 1024).Reach Lts.Free (.new sampleServer) c ∧ c.link.closed = true ∧
      c.closer = none ∧ c.ops = [] ∧ c.link.sessions 8 = some 0 ∧
      (c.link.heap 0).map (·.state) = some .opened) ∧
    (∃ c, (closingSystem 1024).Reach Lts.Free (.new sampleServer) c ∧ c.link.closed = true ∧
      c.closer = none ∧ c.ops = [] ∧ (c.link.heap 1).map (·.state) = some .opened) ∧
    (∃ c, (closingSystem 1024).Reach Lts.Free (.new sampleServer) c ∧ c.link.closed = true ∧
      c.closer = none ∧ c.ops = [.sending 1025 (some (0, .writeLoop []))] ∧
      (Op.sending 1025 (some (0, .writeLoop []))).run 1024 c = none) := by
  refine ⟨⟨_, Lts.reach_of_exec [.start (.dispatchNew (.udp 7)), .advance 1, .advance 1, .advance 1,
      .advance 1, .advance 1, .start (.method 0 .receiveFrom), .advance 1, .start .closeNow,
      .advance 2, .close, .advance 0] rfl, rfl, rfl, rfl, rfl, rfl, rfl⟩,
    ⟨_, Lts.reach_of_exec [.start (.openSession 8 Address.default false), .advance 1,
      .start .failLink, .advance 2, .close, .close, .close, .advance 1, .advance 1, .advance 0] rfl,
      rfl, rfl, rfl, rfl, rfl⟩,
    ⟨_, Lts.reach_of_exec [.start (.dispatchNew (.udp 7)), .advance 1, .advance 1, .advance 1,
      .advance 1, .advance 1, .start (.dispatchNew (.udp 7)), .advance 1, .advance 1, .advance 1,
      .advance 1, .advance 1, .start .failLink, .advance 1, .close, .close, .close, .close,
      .advance 0] rfl, rfl, rfl, rfl, rfl⟩, ?_⟩
  have hopened : (closingSystem 1024).Reach Lts.Free (.new sampleServer)
      ⟨(sampleServer.emplace (.new 7 sampleTarget 100 sampleServer.opts.initWindow
        .tcp)).enqueueFrame (.ack 7), false, none, [.writerLoop]⟩ :=
    Lts.reach_of_exec [.start (.dispatchNew (.tcp 7 sampleBlob 100)), .advance 1, .advance 1,
      .advance 1, .advance 1, .advance 1] rfl
  obtain ⟨queue, hlen, hfull⟩ := reach_full hopened rfl rfl rfl (by decide)
  have hrun := hfull.trans (Lts.reach_of_exec [.start (.method 0 (.write [1])),
    .advance 1, .advance 1, .advance 1, .advance 1, .start .failLink, .advance 2, .close, .close,
    .close, .close, .advance 0] rfl)
  refine ⟨_, hrun, rfl, rfl, ?_, rfl⟩
  show [Op.sending (queue.length + 1) (some (0, .writeLoop []))] = _
  rw [hlen]

end Link

end Shine
