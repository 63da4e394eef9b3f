import Shine.Transport.Table

/-!
# Two links and the sessions between them

A client link and a server link joined by a connection, with the coroutines that
use their sessions: one writer and one reader for each direction of each session.
The pieces of `Session::write` and `Session::read` between which something else can
happen are separate steps — taking credit for a chunk and enqueueing it, copying a
payload out, checking whether a WINDOW is due and enqueueing it — and steps of both
links interleave in any order.

The connection carries frames here, in order; it may be cut, from which moment on
nothing that the sender puts on it arrives. (`Transport.Bytes` replaces it by a
connection that carries bytes.) Channels never block: a sender that the source
suspends is a schedule in which its next step comes later.

`App` records, next to where the coroutines stand, what the application has passed to
`write` and got from `read`; `Net.aborted` records which sessions were torn down by
`close`, RESET or a link failure. Nothing in the program reads these.
-/

namespace Shine

/-- The two ends of a connection. -/
inductive Side where
  | client
  | server
  deriving DecidableEq

/-- The other end. -/
def Side.other : Side → Side
  | .client => .server
  | .server => .client

@[simp] theorem Side.other_other (z : Side) : z.other.other = z := by cases z <;> rfl

@[simp] theorem Side.other_ne (z : Side) : z.other ≠ z := by cases z <;> nofun

@[simp] theorem Side.ne_other (z : Side) : z ≠ z.other := z.other_ne.symm

theorem Side.eq_or_other (x z : Side) : x = z ∨ x = z.other := by cases x <;> cases z <;> decide

/-! ## The application's coroutines -/

/-- A call of `Session::write`: none, in its loop with `rest` left to send, or about
to enqueue `chunk` with `rest` left behind it. -/
inductive Writer where
  | idle
  | writing (data rest : Bytes)
  | sending (data rest chunk : Bytes)
  deriving DecidableEq

/-- What the call has not taken credit for. -/
def Writer.rest : Writer → Bytes
  | .idle => []
  | .writing _ rest => rest
  | .sending _ rest _ => rest

/-- The chunk that it is about to enqueue. -/
def Writer.chunk : Writer → Option Bytes
  | .sending _ _ chunk => some chunk
  | _ => none

@[simp] theorem Writer.rest_idle : Writer.idle.rest = [] := rfl
@[simp] theorem Writer.rest_writing (data rest : Bytes) : (writing data rest).rest = rest := rfl
@[simp] theorem Writer.rest_sending (data rest chunk : Bytes) :
    (sending data rest chunk).rest = rest := rfl
@[simp] theorem Writer.chunk_idle : Writer.idle.chunk = none := rfl
@[simp] theorem Writer.chunk_writing (data rest : Bytes) : (writing data rest).chunk = none := rfl
@[simp] theorem Writer.chunk_sending (data rest chunk : Bytes) :
    (sending data rest chunk).chunk = some chunk := rfl

/-- A call of `Session::read`: none, waiting on `inbox_` with a buffer of `n` bytes,
at the start of `maybeSendWindow`, or about to enqueue a WINDOW. -/
inductive Reading where
  | idle
  | waiting (n : Nat)
  | acking
  | granting (delta : UInt32)
  deriving DecidableEq

/-- The application's side of one session: its coroutines, all bytes it has passed to
`write`, those of the calls that were let in and of the calls that returned Ok, and
all bytes it got from `read`. `eof` records that a `read` with a non-empty buffer has
returned 0. -/
structure App where
  writer : Writer
  reader : Reading
  passed : Bytes
  accepted : Bytes
  acked : Bytes
  got : Bytes
  eof : Bool
  deriving DecidableEq

/-- Before the first call. -/
def App.init : App := ⟨.idle, .idle, [], [], [], [], false⟩

/-- A call of `write` is let in. -/
def App.accept (a : App) (data : Bytes) : App :=
  { a with
    passed := a.passed ++ data
    accepted := a.accepted ++ data
    writer := if data = [] then .idle else .writing data data }

/-- After a chunk has been enqueued: the call goes on or returns Ok. -/
def App.chunkSent (a : App) (data rest : Bytes) : App :=
  if rest = [] then { a with writer := .idle, acked := a.acked ++ data }
  else { a with writer := .writing data rest }

/-- A link and the application's side of its sessions, by sid. -/
structure Peer where
  link : Link
  app : UInt64 → App

namespace Peer

def setApp (pe : Peer) (sid : UInt64) (a : App) : Peer :=
  { pe with app := Function.update pe.app sid a }

def setLink (pe : Peer) (l : Link) : Peer := { pe with link := l }

/-- The session object at `p` becomes `s`, and its application side `a`. -/
def update (pe : Peer) (p : Nat) (s : Session) (a : App) : Peer :=
  (pe.setLink (pe.link.modify p fun _ => s)).setApp s.sid a

/-- Enqueue a frame, and on to `a`. -/
def enqueue (pe : Peer) (f : ShineFrame) (sid : UInt64) (a : App) : Peer :=
  (pe.setLink (pe.link.enqueueFrame f)).setApp sid a

/-- Take credit for a chunk of `n` bytes; with `n = 0` the call waits. -/
def takeChunk (pe : Peer) (p : Nat) (s : Session) (a : App) (data rest : Bytes) (n : Nat) :
    Option Peer :=
  if n = 0 then none
  else some (pe.update p (s.takeCredit n)
    { a with writer := .sending data (rest.drop n) (rest.take n) })

end Peer

/-- What one end can do by itself. The session object is given by its pointer. -/
inductive LocalAct where
  | openSession (sid : UInt64) (target : Address)
  | write (p : Nat) (data : Bytes)
  | takeChunk (p : Nat)
  | sendChunk (p : Nat)
  | abortWrite (p : Nat)
  | shutdownWrite (p : Nat)
  | close (p : Nat)
  /-- The coroutine spawned by `close` runs. -/
  | runPosted
  | read (p n : Nat)
  | receive (p : Nat)
  | checkWindow (p : Nat)
  | sendWindow (p : Nat)
  /-- A frame of the handshake or the heartbeat. -/
  | control (f : ShineFrame)
  | failLink
  | closeNow

/-- The frame belongs to no session. -/
def ShineFrame.isControl : ShineFrame → Bool
  | .hello .. | .auth .. | .ok | .err .. | .ping .. | .pong .. => true
  | _ => false

/-- The pieces of `write`, `read` and the other calls on the session object `s` at
pointer `p`, whose application side is `a`. -/
def Peer.sessionStep (pe : Peer) (p : Nat) (s : Session) (a : App) : LocalAct → Option Peer
  | .write _ data =>
    if a.writer ≠ .idle then none
    -- `write` on a closed link or a closed write side fails
    else if pe.link.closed || s.writeClosed then
      some (pe.setApp s.sid { a with passed := a.passed ++ data })
    else some (pe.setApp s.sid (a.accept data))
  | .takeChunk _ =>
    match a.writer with
    | .writing data rest =>
      pe.takeChunk p s a data rest (s.chunkSize rest.length pe.link.opts.maxDataFrame)
    | _ => none
  | .sendChunk _ =>
    match a.writer with
    | .sending data rest chunk =>
      some (pe.enqueue (.data s.sid chunk) s.sid (a.chunkSent data rest))
    | _ => none
  | .abortWrite _ =>
    match a.writer with
    | .writing _ _ =>
      if s.sendCredit ≤ 0 ∧ pe.link.closed then some (pe.setApp s.sid { a with writer := .idle })
      else none
    | _ => none
  | .shutdownWrite _ =>
    if a.writer ≠ .idle then none else some (pe.setLink (pe.link.shutdownWrite p))
  | .close _ => some (pe.setLink (pe.link.close p))
  | .read _ n =>
    if a.reader ≠ .idle then none
    else match s.readStart n with
      | .bytes out s' => some (pe.update p s' { a with got := a.got ++ out, reader := .acking })
      | .eof => some (pe.setApp s.sid { a with eof := a.eof || decide (0 < n) })
      | .wait => some (pe.setApp s.sid { a with reader := .waiting n })
  | .receive _ =>
    match a.reader with
    | .waiting n =>
      match s.receive n with
      | .bytes out s' => some (pe.update p s' { a with got := a.got ++ out, reader := .acking })
      | .eof => some (pe.setApp s.sid { a with reader := .idle, eof := a.eof || decide (0 < n) })
      | .wait => none
    | _ => none
  | .checkWindow _ =>
    match a.reader with
    | .acking =>
      if pe.link.closed then some (pe.setApp s.sid { a with reader := .idle })
      else match s.takeWindow with
        | (none, _) => some (pe.setApp s.sid { a with reader := .idle })
        | (some delta, s') => some (pe.update p s' { a with reader := .granting delta })
    | _ => none
  | .sendWindow _ =>
    match a.reader with
    | .granting delta =>
      some (pe.enqueue (.window s.sid delta) s.sid { a with reader := .idle })
    | _ => none
  | _ => none

/-- The session object that an act is about. -/
def LocalAct.target : LocalAct → Option Nat
  | .write p _ | .takeChunk p | .sendChunk p | .abortWrite p | .shutdownWrite p | .close p
  | .read p _ | .receive p | .checkWindow p | .sendWindow p => some p
  | _ => none

/-- A step of one end. -/
def Peer.step (pe : Peer) (act : LocalAct) : Option Peer :=
  match act.target with
  | some p => (pe.link.heap p).bind fun s => pe.sessionStep p s (pe.app s.sid) act
  | none =>
    match act with
    | .openSession sid target => some (pe.setLink (pe.link.openSession sid target false))
    | .runPosted => pe.link.runPosted.map pe.setLink
    | .control f => if f.isControl then some (pe.setLink (pe.link.enqueueFrame f)) else none
    | .failLink => some (pe.setLink pe.link.failLink)
    | .closeNow => some (pe.setLink pe.link.closeNow)
    | _ => none

/-- What a piece of a call does to the session `s` at pointer `p`, by where the call stands. -/
inductive Peer.Piece (pe : Peer) (p : Nat) (s : Session) (a : App) : LocalAct → Peer → Prop where
  | write_refused (data : Bytes) (h : (pe.link.closed || s.writeClosed) = true) :
      Piece pe p s a (.write p data) (pe.setApp s.sid { a with passed := a.passed ++ data })
  | write_accepted (data : Bytes) (hw : a.writer = .idle)
      (h : (pe.link.closed || s.writeClosed) = false) :
      Piece pe p s a (.write p data) (pe.setApp s.sid (a.accept data))
  | takeChunk (data rest : Bytes) (n : Nat) (hw : a.writer = .writing data rest)
      (hn : n = s.chunkSize rest.length pe.link.opts.maxDataFrame) (hpos : n ≠ 0) :
      Piece pe p s a (.takeChunk p) (pe.update p (s.takeCredit n)
        { a with writer := .sending data (rest.drop n) (rest.take n) })
  | sendChunk (data rest chunk : Bytes) (hw : a.writer = .sending data rest chunk) :
      Piece pe p s a (.sendChunk p)
        (pe.enqueue (.data s.sid chunk) s.sid (a.chunkSent data rest))
  | abortWrite (data rest : Bytes) (hw : a.writer = .writing data rest)
      (hc : pe.link.closed = true) :
      Piece pe p s a (.abortWrite p) (pe.setApp s.sid { a with writer := .idle })
  | shutdownWrite (hw : a.writer = .idle) :
      Piece pe p s a (.shutdownWrite p) (pe.setLink (pe.link.shutdownWrite p))
  | close : Piece pe p s a (.close p) (pe.setLink (pe.link.close p))
  | read_bytes (n : Nat) (out : Bytes) (s' : Session) (hr : a.reader = .idle)
      (hs : s.readStart n = .bytes out s') :
      Piece pe p s a (.read p n) (pe.update p s' { a with got := a.got ++ out, reader := .acking })
  | read_eof (n : Nat) (hr : a.reader = .idle) (hs : s.readStart n = .eof) :
      Piece pe p s a (.read p n) (pe.setApp s.sid { a with eof := a.eof || decide (0 < n) })
  | read_wait (n : Nat) (hr : a.reader = .idle) (hs : s.readStart n = .wait) :
      Piece pe p s a (.read p n) (pe.setApp s.sid { a with reader := .waiting n })
  | receive_bytes (n : Nat) (out : Bytes) (s' : Session) (hr : a.reader = .waiting n)
      (hs : s.receive n = .bytes out s') :
      Piece pe p s a (.receive p) (pe.update p s' { a with got := a.got ++ out, reader := .acking })
  | receive_eof (n : Nat) (hr : a.reader = .waiting n) (hs : s.receive n = .eof) :
      Piece pe p s a (.receive p)
        (pe.setApp s.sid { a with reader := .idle, eof := a.eof || decide (0 < n) })
  | check_closed (hr : a.reader = .acking) (hc : pe.link.closed = true) :
      Piece pe p s a (.checkWindow p) (pe.setApp s.sid { a with reader := .idle })
  | check_not_due (s' : Session) (hr : a.reader = .acking) (hs : s.takeWindow = (none, s')) :
      Piece pe p s a (.checkWindow p) (pe.setApp s.sid { a with reader := .idle })
  | check_due (delta : UInt32) (s' : Session) (hr : a.reader = .acking)
      (hs : s.takeWindow = (some delta, s')) :
      Piece pe p s a (.checkWindow p) (pe.update p s' { a with reader := .granting delta })
  | sendWindow (delta : UInt32) (hr : a.reader = .granting delta) :
      Piece pe p s a (.sendWindow p)
        (pe.enqueue (.window s.sid delta) s.sid { a with reader := .idle })

theorem Peer.piece_of_step {pe pe' : Peer} {act : LocalAct} {p : Nat} (h : pe.step act = some pe')
    (htarget : act.target = some p) :
    ∃ s, pe.link.heap p = some s ∧ pe.Piece p s (pe.app s.sid) act pe' := by
  simp only [step, htarget, Option.bind_eq_some_iff] at h
  obtain ⟨s, hs, h⟩ := h
  refine ⟨s, hs, ?_⟩
  cases act <;> cases htarget <;> simp only [sessionStep] at h
  case write data =>
    split_ifs at h with hw hc <;> cases h
    · exact .write_refused data hc
    · exact .write_accepted data (not_not.mp hw) (Bool.eq_false_iff.mpr hc)
  case takeChunk =>
    split at h
    · next data rest hw =>
      unfold takeChunk at h
      split_ifs at h with hn
      cases h
      exact .takeChunk data rest _ hw rfl hn
    · cases h
  case sendChunk =>
    split at h <;> cases h
    exact .sendChunk _ _ _ ‹_›
  case abortWrite =>
    split at h
    · split_ifs at h with hc
      cases h
      exact .abortWrite _ _ ‹_› hc.2
    · cases h
  case shutdownWrite =>
    split_ifs at h with hw
    cases h
    exact .shutdownWrite (not_not.mp hw)
  case close =>
    cases h
    exact .close
  case read n =>
    split_ifs at h with hr
    have hidle := not_not.mp hr
    split at h <;> cases h
    · exact .read_bytes n _ _ hidle ‹_›
    · exact .read_eof n hidle ‹_›
    · exact .read_wait n hidle ‹_›
  case receive =>
    split at h
    · split at h <;> cases h
      · exact .receive_bytes _ _ _ ‹_› ‹_›
      · exact .receive_eof _ ‹_› ‹_›
    · cases h
  case checkWindow =>
    split at h
    · split_ifs at h with hc
      · cases h
        exact .check_closed ‹_› hc
      · split at h <;> cases h
        · exact .check_not_due _ ‹_› ‹_›
        · exact .check_due _ _ ‹_› ‹_›
    · cases h
  case sendWindow =>
    split at h <;> cases h
    exact .sendWindow _ ‹_›

/-! ## The pair -/

/-- Two links joined by a connection. `wire z` are the frames that `z` has put on it
and that have not been dispatched at the other end. -/
structure Net where
  peer : Side → Peer
  wire : Side → List ShineFrame
  cut : Side → Bool
  aborted : UInt64 → Bool

/-- What can happen. -/
inductive NetEvent where
  | act (z : Side) (a : LocalAct)
  /-- The writer coroutine of `z` puts a frame on the connection. -/
  | flush (z : Side)
  /-- The reader coroutine of `z` dispatches a frame. -/
  | dispatch (z : Side) (now : UInt64)
  /-- The connection loses what `z` has put on it beyond `k` frames, and whatever
  follows. -/
  | cut (z : Side) (k : Nat)

namespace Net

def setPeer (n : Net) (z : Side) (pe : Peer) : Net :=
  { n with peer := Function.update n.peer z pe }

def setWire (n : Net) (z : Side) (fs : List ShineFrame) : Net :=
  { n with wire := Function.update n.wire z fs }

/-- The sessions that a step of one end tears down. -/
def abortedBy (pe : Peer) (aborted : UInt64 → Bool) : LocalAct → UInt64 → Bool
  | .close p => fun sid => aborted sid || decide ((pe.link.heap p).map (·.sid) = some sid)
  | .failLink | .closeNow => fun _ => true
  | _ => aborted

/-- The sessions that dispatching a frame tears down: a RESET of a session in the
table, and a NEW that is not accepted. -/
def abortedByFrame (l : Link) (aborted : UInt64 → Bool) : ShineFrame → UInt64 → Bool
  | .reset sid' => fun sid => aborted sid || decide (sid = sid' ∧ (l.findSession sid').isSome)
  | .new sid' addrBlob w => fun sid =>
    aborted sid || decide (sid = sid' ∧ l.frameInserts (.new sid' addrBlob w) = none)
  | _ => aborted

/-- The effect of an event; `none` where it cannot happen. -/
def step (n : Net) : NetEvent → Option Net
  | .act z a => ((n.peer z).step a).map fun pe =>
      { n.setPeer z pe with aborted := abortedBy (n.peer z) n.aborted a }
  | .flush z =>
    match (n.peer z).link.writeChan with
    | [] => none
    | f :: rest =>
      if (n.peer z).link.closed then none
      else some ((n.setPeer z ((n.peer z).setLink { (n.peer z).link with writeChan := rest })).setWire
        z (if n.cut z then n.wire z else n.wire z ++ [f]))
  | .dispatch z now =>
    match n.wire z.other with
    | [] => none
    | f :: rest =>
      some { (n.setPeer z ((n.peer z).setLink ((n.peer z).link.dispatchFrame now f))).setWire
          z.other rest with aborted := abortedByFrame (n.peer z).link n.aborted f }
  | .cut z k => some { n.setWire z ((n.wire z).take k) with
      cut := Function.update n.cut z true
      aborted := fun _ => true }

/-- Two links whose handshake frames are not on the way yet. -/
def start (client server : LinkOptions) (now : UInt64) : Net where
  peer
    | .client => ⟨.new client false now, fun _ => .init⟩
    | .server => ⟨.new server true now, fun _ => .init⟩
  wire := fun _ => []
  cut := fun _ => false
  aborted := fun _ => false

variable {n : Net} {z : Side} {f : ShineFrame} {rest : List ShineFrame}

theorem step_flush (hchan : (n.peer z).link.writeChan = f :: rest)
    (hopen : ¬ (n.peer z).link.closed = true) :
    n.step (.flush z) = some
      ((n.setPeer z ((n.peer z).setLink { (n.peer z).link with writeChan := rest })).setWire
        z (if n.cut z then n.wire z else n.wire z ++ [f])) := by
  simp only [step, hchan]
  rw [if_neg hopen]

theorem step_dispatch (hwire : n.wire z.other = f :: rest) (now : UInt64) :
    n.step (.dispatch z now) = some
      { (n.setPeer z ((n.peer z).setLink ((n.peer z).link.dispatchFrame now f))).setWire
          z.other rest with aborted := abortedByFrame (n.peer z).link n.aborted f } := by
  simp only [step, hwire]

end Net

/-- The two links as a transition system. -/
def netSystem : Lts Net NetEvent where
  step := Net.step

/-- Sessions are opened by the client, each under a sid that it has not used. -/
def FreshSids (n : Net) : NetEvent → Prop
  | .act z (.openSession sid _) =>
    z = .client ∧ ∀ p < (n.peer .client).link.next, ((n.peer .client).link.heap p).map (·.sid) ≠ some sid
  | _ => True

instance (n : Net) (ev : NetEvent) : Decidable (FreshSids n ev) := by
  unfold FreshSids
  split <;> infer_instance

end Shine
