import Shine.Proto.ShineFrame
import Shine.Transport.Session

/-!
# Links (`transport/link.cpp`)

A `Link` multiplexes sessions over one TCP connection. The model keeps every
`Session` object ever created in `heap`, under a pointer that is never reused, so
that an object handed to the application can be told apart from the one that
`sessions_` holds under the same sid.

Every definition is one piece of the source that runs without suspension, under
the source's name: `dispatchFrame` for each of the fourteen kinds of frame,
`openSession`, `failLink`, `closeNow`, and the methods of `Session` that reach
into the link (`shutdownWrite`, `close`).

The last part has, for each building block, what it does to the fields.
-/

namespace Shine

/-- The part of `LinkOptions` that the protocol logic reads. -/
structure LinkOptions where
  password : Bytes
  initWindow : UInt32
  maxPayload : Nat
  maxDataFrame : Nat
  isServer : Bool
  deriving DecidableEq

/-- `class Link`. `writeChan` holds the frames queued for the writer coroutine, in
order, `posted` those of the `enqueueFrame` coroutines that `Session::close` has
spawned and that have not run yet. `handed` lists the sessions passed to
`on_new_session_`. -/
structure Link where
  opts : LinkOptions
  /-- `on_new_session_` is set: only server links have a handler. -/
  onNewSession : Bool
  closed : Bool
  heap : Nat → Option Session
  /-- The next unused pointer. -/
  next : Nat
  sessions : UInt64 → Option Nat
  writeChan : List ShineFrame
  posted : List ShineFrame
  handed : List (Nat × Address)
  pendingPingNonce : UInt64
  lastPongNs : UInt64

namespace Link

/-- A link that has just been constructed. -/
def new (opts : LinkOptions) (onNewSession : Bool) (now : UInt64) : Link where
  opts := opts
  onNewSession := onNewSession
  closed := false
  heap := fun _ => none
  next := 0
  sessions := fun _ => none
  writeChan := []
  posted := []
  handed := []
  pendingPingNonce := 0
  lastPongNs := now

/-! ## Building blocks -/

/-- Call a method of the session object `p`. -/
def modify (l : Link) (p : Nat) (f : Session → Session) : Link :=
  { l with heap := Function.update l.heap p ((l.heap p).map f) }

/-- `enqueueFrame`; on a closed link the frame is dropped. -/
def enqueueFrame (l : Link) (f : ShineFrame) : Link :=
  if l.closed then l else { l with writeChan := l.writeChan ++ [f] }

/-- Spawn a detached `enqueueFrame`, unless the link is closed. -/
def spawnEnqueue (l : Link) (f : ShineFrame) : Link :=
  if l.closed then l else { l with posted := l.posted ++ [f] }

/-- `findSession`. -/
def findSession (l : Link) (sid : UInt64) : Option Nat := l.sessions sid

/-- `eraseSession`: by sid, whatever object is stored under it. -/
def eraseSession (l : Link) (sid : UInt64) : Link :=
  { l with sessions := Function.update l.sessions sid none }

/-- Construct the session object `s` and `sessions_.emplace(s.sid, s)`. Like
`emplace`, this leaves an entry that is already there alone. -/
def emplace (l : Link) (s : Session) : Link :=
  { l with
    heap := Function.update l.heap l.next (some s)
    next := l.next + 1
    sessions := match l.sessions s.sid with
      | some _ => l.sessions
      | none => Function.update l.sessions s.sid (some l.next) }

/-! ## Frames from the peer -/

/-- The last part of `dispatchFrame` for NEW and NEW_UDP. -/
def accept (l : Link) (sid : UInt64) (target : Address) (win : UInt32) (protocol : Protocol) :
    Link :=
  let l' := (l.emplace (.new sid target win l.opts.initWindow protocol)).enqueueFrame (.ack sid)
  { l' with handed := l'.handed ++ [(l.next, target)] }

/-- `dispatchFrame`. The time of the call is an argument. -/
def dispatchFrame (l : Link) (now : UInt64) : ShineFrame → Link
  | .data sid payload =>
    match l.findSession sid with
    | none => l
    | some p => l.modify p (·.onData payload)
  | .udpData sid addrBlob payload =>
    match l.findSession sid with
    | none => l
    | some p =>
      match Address.parseBinary addrBlob with
      | .error _ => l
      | .ok addr => l.modify p (·.onUdpData payload addr)
  | .new sid addrBlob initWindow =>
    if !l.onNewSession then l
    else match Address.parseBinary addrBlob with
      | .error _ => l.enqueueFrame (.reset sid)
      | .ok target => l.accept sid target initWindow .tcp
  | .newUdp sid =>
    if !l.onNewSession then l else l.accept sid Address.default 0 .udp
  | .ack _ => l
  | .close sid _ =>
    match l.findSession sid with
    | none => l
    | some p =>
      let l' := l.modify p (·.onPeerClose)
      if (l'.heap p).map (·.state) = some .closed then l'.eraseSession sid else l'
  | .reset sid =>
    match l.findSession sid with
    | none => l
    | some p => (l.modify p (·.onReset)).eraseSession sid
  | .window sid delta =>
    match l.findSession sid with
    | none => l
    | some p => l.modify p (·.onWindow delta)
  | .ping nonce => l.enqueueFrame (.pong nonce)
  | .pong nonce =>
    if l.pendingPingNonce = nonce then { l with pendingPingNonce := 0, lastPongNs := now } else l
  -- ignored once the handshake is over
  | .hello .. | .auth .. | .ok | .err .. => l

/-! ## Calls from the application -/

/-- The session that `openSession` constructs. -/
def openedSession (l : Link) (sid : UInt64) (target : Address) (isUdp : Bool) : Session :=
  .new sid target l.opts.initWindow l.opts.initWindow (if isUdp then .udp else .tcp)

/-- The frame that `openSession` enqueues. -/
def openFrame (l : Link) (sid : UInt64) (target : Address) (isUdp : Bool) : ShineFrame :=
  if isUdp then .newUdp sid else .new sid target.toBinary l.opts.initWindow

/-- `openSession`, for the sid that the generator drew; on a closed link it fails. -/
def openSession (l : Link) (sid : UInt64) (target : Address) (isUdp : Bool) : Link :=
  if l.closed then l
  else (l.emplace (l.openedSession sid target isUdp)).enqueueFrame (l.openFrame sid target isUdp)

/-- `Session::shutdownWrite` on the session object `p`. -/
def shutdownWrite (l : Link) (p : Nat) : Link :=
  match l.heap p with
  | none => l
  | some s =>
    if l.closed then l
    else match s.state with
      | .opened =>
        (l.modify p (·.setState .halfClosedLocal)).enqueueFrame (.close s.sid [])
      | .halfClosedRemote =>
        ((l.modify p (·.setState .closed)).eraseSession s.sid).enqueueFrame
          (.close s.sid [])
      | _ => l

/-- `Session::close` on the session object `p`. The CLOSE is enqueued by a coroutine
of its own. -/
def close (l : Link) (p : Nat) : Link :=
  match l.heap p with
  | none => l
  | some s =>
    if s.state ≠ .closed then
      (((l.modify p (·.setState .closed)).spawnEnqueue (.close s.sid [])).eraseSession s.sid).modify
        p (·.closeChannels)
    else l.modify p (·.closeChannels)

/-- The first coroutine spawned by a `Session::close` runs. -/
def runPosted (l : Link) : Option Link :=
  match l.posted with
  | [] => none
  | f :: rest => some ({ l with posted := rest }.enqueueFrame f)

/-! ## Closing the link -/

/-- `onReset` on every session in the table, as `failLink` does after it has
cleared the table. -/
def resetAll (l : Link) : Link :=
  { l with
    heap := fun p => (l.heap p).map fun s => if l.sessions s.sid = some p then s.onReset else s
    sessions := fun _ => none }

/-- `failLink`. -/
def failLink (l : Link) : Link := if l.closed then l else { l with closed := true }.resetAll

/-- `closeNow`: it does not touch the sessions. -/
def closeNow (l : Link) : Link := { l with closed := true }

/-! ## Field lemmas -/

section Fields

variable (l : Link) (p : Nat) (f : Session → Session) (sid : UInt64) (fr : ShineFrame)

@[simp] theorem modify_sessions : (l.modify p f).sessions = l.sessions := rfl
@[simp] theorem modify_next : (l.modify p f).next = l.next := rfl
@[simp] theorem modify_closed : (l.modify p f).closed = l.closed := rfl
@[simp] theorem modify_opts : (l.modify p f).opts = l.opts := rfl
@[simp] theorem modify_writeChan : (l.modify p f).writeChan = l.writeChan := rfl
@[simp] theorem modify_posted : (l.modify p f).posted = l.posted := rfl
@[simp] theorem modify_onNewSession : (l.modify p f).onNewSession = l.onNewSession := rfl

theorem modify_heap (q : Nat) :
    (l.modify p f).heap q = if q = p then (l.heap p).map f else l.heap q :=
  Function.update_apply ..

@[simp] theorem modify_heap_self : (l.modify p f).heap p = (l.heap p).map f := by
  simp [modify_heap]

@[simp] theorem eraseSession_heap : (l.eraseSession sid).heap = l.heap := rfl
@[simp] theorem eraseSession_next : (l.eraseSession sid).next = l.next := rfl
@[simp] theorem eraseSession_closed : (l.eraseSession sid).closed = l.closed := rfl
@[simp] theorem eraseSession_opts : (l.eraseSession sid).opts = l.opts := rfl
@[simp] theorem eraseSession_writeChan : (l.eraseSession sid).writeChan = l.writeChan := rfl
@[simp] theorem eraseSession_posted : (l.eraseSession sid).posted = l.posted := rfl
@[simp] theorem eraseSession_onNewSession :
    (l.eraseSession sid).onNewSession = l.onNewSession := rfl

theorem eraseSession_sessions (sid' : UInt64) :
    (l.eraseSession sid).sessions sid' = if sid' = sid then none else l.sessions sid' :=
  Function.update_apply ..

@[simp] theorem enqueueFrame_heap : (l.enqueueFrame fr).heap = l.heap := by
  unfold enqueueFrame; split_ifs <;> rfl
@[simp] theorem enqueueFrame_next : (l.enqueueFrame fr).next = l.next := by
  unfold enqueueFrame; split_ifs <;> rfl
@[simp] theorem enqueueFrame_sessions : (l.enqueueFrame fr).sessions = l.sessions := by
  unfold enqueueFrame; split_ifs <;> rfl
@[simp] theorem enqueueFrame_closed : (l.enqueueFrame fr).closed = l.closed := by
  unfold enqueueFrame; split_ifs <;> rfl
@[simp] theorem enqueueFrame_opts : (l.enqueueFrame fr).opts = l.opts := by
  unfold enqueueFrame; split_ifs <;> rfl
@[simp] theorem enqueueFrame_posted : (l.enqueueFrame fr).posted = l.posted := by
  unfold enqueueFrame; split_ifs <;> rfl
@[simp] theorem enqueueFrame_onNewSession :
    (l.enqueueFrame fr).onNewSession = l.onNewSession := by
  unfold enqueueFrame; split_ifs <;> rfl

theorem enqueueFrame_writeChan :
    (l.enqueueFrame fr).writeChan = if l.closed then l.writeChan else l.writeChan ++ [fr] := by
  unfold enqueueFrame; split_ifs <;> rfl

@[simp] theorem spawnEnqueue_heap : (l.spawnEnqueue fr).heap = l.heap := by
  unfold spawnEnqueue; split_ifs <;> rfl
@[simp] theorem spawnEnqueue_next : (l.spawnEnqueue fr).next = l.next := by
  unfold spawnEnqueue; split_ifs <;> rfl
@[simp] theorem spawnEnqueue_sessions : (l.spawnEnqueue fr).sessions = l.sessions := by
  unfold spawnEnqueue; split_ifs <;> rfl
@[simp] theorem spawnEnqueue_closed : (l.spawnEnqueue fr).closed = l.closed := by
  unfold spawnEnqueue; split_ifs <;> rfl
@[simp] theorem spawnEnqueue_opts : (l.spawnEnqueue fr).opts = l.opts := by
  unfold spawnEnqueue; split_ifs <;> rfl
@[simp] theorem spawnEnqueue_writeChan : (l.spawnEnqueue fr).writeChan = l.writeChan := by
  unfold spawnEnqueue; split_ifs <;> rfl
@[simp] theorem spawnEnqueue_onNewSession :
    (l.spawnEnqueue fr).onNewSession = l.onNewSession := by
  unfold spawnEnqueue; split_ifs <;> rfl

theorem spawnEnqueue_posted :
    (l.spawnEnqueue fr).posted = if l.closed then l.posted else l.posted ++ [fr] := by
  unfold spawnEnqueue; split_ifs <;> rfl

@[simp] theorem emplace_next (s : Session) : (l.emplace s).next = l.next + 1 := rfl
@[simp] theorem emplace_closed (s : Session) : (l.emplace s).closed = l.closed := rfl
@[simp] theorem emplace_opts (s : Session) : (l.emplace s).opts = l.opts := rfl
@[simp] theorem emplace_writeChan (s : Session) : (l.emplace s).writeChan = l.writeChan := rfl
@[simp] theorem emplace_posted (s : Session) : (l.emplace s).posted = l.posted := rfl
@[simp] theorem emplace_onNewSession (s : Session) :
    (l.emplace s).onNewSession = l.onNewSession := rfl

theorem emplace_heap (s : Session) (q : Nat) :
    (l.emplace s).heap q = if q = l.next then some s else l.heap q :=
  Function.update_apply ..

theorem resetAll_heap (q : Nat) : l.resetAll.heap q
    = (l.heap q).map fun s => if l.sessions s.sid = some q then s.onReset else s := rfl

@[simp] theorem shutdownWrite_closed : (l.shutdownWrite p).closed = l.closed := by
  unfold shutdownWrite
  split
  · rfl
  · split_ifs
    · rfl
    · split <;> simp

@[simp] theorem close_closed : (l.close p).closed = l.closed := by
  unfold close
  split
  · rfl
  · split_ifs <;> simp

@[simp] theorem failLink_closed : l.failLink.closed = true := by
  unfold failLink
  split_ifs with h
  · exact h
  · rfl

@[simp] theorem failLink_opts : l.failLink.opts = l.opts := by
  unfold failLink; split_ifs <;> rfl
@[simp] theorem failLink_writeChan : l.failLink.writeChan = l.writeChan := by
  unfold failLink; split_ifs <;> rfl

@[simp] theorem shutdownWrite_onNewSession :
    (l.shutdownWrite p).onNewSession = l.onNewSession := by
  unfold shutdownWrite
  split
  · rfl
  · split_ifs
    · rfl
    · split <;> simp

@[simp] theorem close_onNewSession : (l.close p).onNewSession = l.onNewSession := by
  unfold close
  split
  · rfl
  · split_ifs <;> simp

@[simp] theorem failLink_onNewSession : l.failLink.onNewSession = l.onNewSession := by
  unfold failLink; split_ifs <;> rfl

/-- `dispatchFrame` neither closes the link nor touches its options and its handler. -/
theorem dispatchFrame_kept (now : UInt64) : (l.dispatchFrame now fr).opts = l.opts ∧
    (l.dispatchFrame now fr).onNewSession = l.onNewSession ∧
    (l.dispatchFrame now fr).closed = l.closed := by
  have haccept : ∀ sid target win protocol, (l.accept sid target win protocol).opts = l.opts ∧
      (l.accept sid target win protocol).onNewSession = l.onNewSession ∧
      (l.accept sid target win protocol).closed = l.closed := by
    intro sid target win protocol
    simp only [accept, enqueueFrame_opts, enqueueFrame_onNewSession, enqueueFrame_closed]
    exact ⟨rfl, rfl, rfl⟩
  cases fr with
  | data _ _ | window _ _ => simp only [dispatchFrame]; split <;> exact ⟨rfl, rfl, rfl⟩
  | udpData _ _ _ =>
    simp only [dispatchFrame]
    split
    · exact ⟨rfl, rfl, rfl⟩
    · split <;> exact ⟨rfl, rfl, rfl⟩
  | new sid _ _ =>
    simp only [dispatchFrame]
    split_ifs
    · exact ⟨rfl, rfl, rfl⟩
    · split
      · simp
      · exact haccept ..
  | newUdp sid =>
    simp only [dispatchFrame]
    split_ifs
    · exact ⟨rfl, rfl, rfl⟩
    · exact haccept ..
  | close _ _ =>
    simp only [dispatchFrame]
    split
    · exact ⟨rfl, rfl, rfl⟩
    · split_ifs <;> exact ⟨rfl, rfl, rfl⟩
  | reset _ => simp only [dispatchFrame]; split <;> exact ⟨rfl, rfl, rfl⟩
  | ping _ => simp [dispatchFrame]
  | pong _ => simp only [dispatchFrame]; split_ifs <;> exact ⟨rfl, rfl, rfl⟩
  | ack _ | hello _ _ | auth _ | ok | err _ _ => exact ⟨rfl, rfl, rfl⟩

theorem dispatchFrame_opts (now : UInt64) : (l.dispatchFrame now fr).opts = l.opts :=
  (l.dispatchFrame_kept fr now).1

end Fields

end Link

end Shine
