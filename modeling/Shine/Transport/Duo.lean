import Shine.Inbound.Served

/-!
# One session on a pair of links

Two links joined by a connection, seen from one session, TCP or UDP. Anything may happen
on both links (`Duo.Event.other`); the calls on the session itself are events of their
own, and a node remembers those that matter for its end: whether its application has
called `shutdownWrite` or `close` on the session, and whether the peer's CLOSE has been
dispatched. `writes` are the calls of `write` in progress, with the bytes each has left.
-/

namespace Shine

/-- The session that a frame is about. -/
def ShineFrame.session : ShineFrame → Option UInt64
  | .data sid _ | .udpData sid _ _ | .new sid _ _ | .newUdp sid | .ack sid | .close sid _
  | .reset sid | .window sid _ => some sid
  | _ => none

/-- CLOSE for the session. -/
def ShineFrame.closes (sid : UInt64) : ShineFrame → Bool
  | .close sid' _ => sid' = sid
  | _ => false

/-- NEW or NEW_UDP for the session. -/
def ShineFrame.opensFor (sid : UInt64) : ShineFrame → Bool
  | .new sid' _ _ | .newUdp sid' => sid' = sid
  | _ => false

/-- Whether `credit_signal_` is closed; a UDP session has none. -/
def Session.creditSignal (s : Session) : Option Bool :=
  match s.io with
  | .tcp _ creditSignal => some creditSignal.closed
  | .udp _ => none

/-- One end: its link, how many of the peer's frames it has read, the session object and
the calls on it. -/
structure Node where
  served : Served
  taken : Nat
  ptr : Option Nat
  writes : List Bytes
  shutCalled : Bool
  closeCalled : Bool
  heard : Bool

namespace Node

def link (n : Node) : Link := n.served.link

def setLink (n : Node) (l : Link) : Node := { n with served := n.served.setLink l }

/-- The session object. -/
def session (n : Node) : Option Session := n.ptr.bind n.link.heap

/-- The events that are not about the session: other sessions, and the link as a whole. -/
def apart (sid : UInt64) (n : Node) : Served.Event → Bool
  | .dispatch .. => false
  | .openSession sid' _ _ => sid' ≠ sid
  | .call q op =>
    (n.link.heap q).map (·.sid) ≠ some sid &&
      match op with
      | .enqueueFrame f => f.session ≠ some sid
      | _ => true
  | _ => true

/-- The pieces of the methods of the session that neither write nor close. -/
def reads (sid : UInt64) : SessionOp → Bool
  | .readStart _ | .receive _ | .takeWindow | .checkWrite | .checkReceive
  | .receiveDatagram => true
  | .enqueueFrame (.window sid' _) | .enqueueFrame (.udpData sid' _ _) => sid' = sid
  | _ => false

/-- A call of `write` on the session object `p` passes its checks. -/
def write (n : Node) (p : Nat) (data : Bytes) : Option Node :=
  match SessionOp.checkWrite.run n.link p with
  | some (.ok (), _) => some (if data = [] then n else { n with writes := n.writes ++ [data] })
  | _ => none

/-- The `i`-th write in progress sends its next chunk, or gives up on a closed link. -/
def chunk (sid : UInt64) (n : Node) (p i : Nat) : Option Node :=
  match n.writes[i]? with
  | none => none
  | some data =>
    match (SessionOp.takeChunk data.length).run n.link p with
    | none => none
    | some (none, l) => some { n.setLink l with writes := n.writes.eraseIdx i }
    | some (some k, l) => some
      { n.setLink (l.enqueueFrame (.data sid (data.take k))) with
        writes := if data.drop k = [] then n.writes.eraseIdx i else n.writes.set i (data.drop k) }

/-- A frame of the peer's is decoded and dispatched. A NEW that is accepted makes the
session object. -/
def dispatch (sid : UInt64) (n : Node) (now : UInt64) (f : ShineFrame) : Node :=
  { n.setLink (n.link.dispatchFrame now f) with
    taken := n.taken + 1
    ptr :=
      if n.ptr.isNone && f.opensFor sid && (n.link.dispatchFrame now f).next ≠ n.link.next then
        some n.link.next
      else n.ptr
    heard := n.heard || (n.ptr.isSome && f.closes sid) }

/-- Some write waits for credit: its `async_receive` on `credit_signal_` has nothing to
return. -/
def Suspended (n : Node) : Prop :=
  n.writes ≠ [] ∧ ∃ s, n.session = some s ∧ s.sendCredit ≤ 0 ∧ s.creditSignal = some false

/-- Some write on a TCP session has bytes left that the credit does not allow. -/
def OutOfCredit (n : Node) : Prop :=
  n.writes ≠ [] ∧ ∃ s, n.session = some s ∧ s.protocol = .tcp ∧ s.sendCredit ≤ 0

/-- The session is Closed, no longer in the table, and no write waits for credit. -/
def TornDown (n : Node) : Prop :=
  ∃ p s, n.ptr = some p ∧ n.link.heap p = some s ∧ s.state = .closed ∧
    (∀ sid, n.link.sessions sid ≠ some p) ∧ ¬ n.Suspended

end Node

/-- The two ends. -/
structure Duo where
  node : Side → Node

namespace Duo

/-- What can happen. -/
inductive Event where
  | other (z : Side) (e : Served.Event)
  /-- The client opens the session. -/
  | openSession (target : Address) (isUdp : Bool)
  /-- A piece of `read`, `sendTo` or `receiveFrom`. -/
  | call (z : Side) (op : SessionOp)
  | write (z : Side) (data : Bytes)
  | chunk (z : Side) (i : Nat)
  | shutdownWrite (z : Side)
  | close (z : Side)
  /-- The reader takes the next frame. -/
  | deliver (z : Side) (now : UInt64)

def setNode (d : Duo) (z : Side) (n : Node) : Duo := ⟨Function.update d.node z n⟩

/-- One step. The sid is drawn once; a TCP session is for a target that can be encoded. -/
def step (sid : UInt64) (d : Duo) : Event → Option Duo
  | .other z e =>
    if (d.node z).apart sid e then
      ((d.node z).served.step e).map fun w => d.setNode z { d.node z with served := w }
    else none
  | .openSession target isUdp =>
    let n := d.node .client
    if n.ptr = none ∧ n.link.closed = false ∧ (isUdp = true ∨ target.Named) then
      some (d.setNode .client
        { n.setLink (n.link.openSession sid target isUdp) with ptr := some n.link.next })
    else none
  | .call z op =>
    if Node.reads sid op then
      (d.node z).ptr.bind fun p =>
        (op.run (d.node z).link p).map fun a => d.setNode z ((d.node z).setLink a.2)
    else none
  | .write z data =>
    (d.node z).ptr.bind fun p => ((d.node z).write p data).map (d.setNode z)
  | .chunk z i =>
    (d.node z).ptr.bind fun p => ((d.node z).chunk sid p i).map (d.setNode z)
  | .shutdownWrite z =>
    (d.node z).ptr.map fun p => d.setNode z
      { (d.node z).setLink ((d.node z).link.shutdownWrite p) with shutCalled := true }
  | .close z =>
    (d.node z).ptr.map fun p => d.setNode z
      { (d.node z).setLink ((d.node z).link.close p) with closeCalled := true }
  | .deliver z now =>
    if (d.node z).link.closed then none
    else ((d.node z.other).served.sent[(d.node z).taken]?).map fun f =>
      match attempt (d.node z).link.opts.maxPayload (encode f) with
      | .frame _ g => d.setNode z ((d.node z).dispatch sid now g)
      | _ => d.setNode z
        { (d.node z).setLink (d.node z).link.failLink with taken := (d.node z).taken + 1 }

/-- All runs of the session `sid`. -/
def system (sid : UInt64) : Lts Duo Event := ⟨step sid⟩

/-- Two links that have just been constructed; only the server has a handler. -/
def start (co so : LinkOptions) : Duo where
  node
    | .client => ⟨⟨.new co false 0, [], none⟩, 0, none, [], false, false, false⟩
    | .server => ⟨.start so 0, 0, none, [], false, false, false⟩

end Duo

end Shine
