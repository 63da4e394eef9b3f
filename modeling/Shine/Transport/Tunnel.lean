import Shine.Transport.Bytes
import Shine.Transport.PipeFlow

/-!
# A tunnel from socket to socket

A client's socket, `bidiCopy` at the client node, a session over a pair of links, `bidiCopy` at
the server node and the socket to the remote end. The links are the byte-level pair of
`Transport.Bytes`, on which any number of other sessions is in use at the same time.

A method of the session is called and later returns; in between its pieces are steps of the
pair. `TunnelOp` therefore has a call and a return for `read` and for `write`. The sockets
answer as they like.

`tunnel_integrity`: what is written to the socket at one end is at every time, from the start
and in order, what was read from the socket at the other.
-/

namespace Shine

open Co

/-! ## What a step does to the application's side of a session -/

/-- The bytes that are passed to `write`. -/
def LocalAct.passes : LocalAct → Bytes
  | .write _ data => data
  | _ => []

/-- A call of `read`. -/
def LocalAct.isRead : LocalAct → Bool
  | .read .. => true
  | _ => false

/-- What a step does to the application's side of a session: it passes `data` to `write`, and
returns bytes only if it is a `read` or there is one in progress. -/
structure App.Moved (data : Bytes) (reads : Bool) (a a' : App) : Prop where
  passed_eq : a'.passed = a.passed ++ data
  got_le : a.got <+: a'.got
  quiet : a.reader = .idle → reads = false → a'.got = a.got ∧ a'.reader = .idle

/-- The step of an act. -/
abbrev App.MovedBy (act : LocalAct) (a a' : App) : Prop := App.Moved act.passes act.isRead a a'

theorem App.Moved.of_eq {data : Bytes} {reads : Bool} {a a' : App} (hdata : data = [])
    (hpassed : a'.passed = a.passed) (hgot : a'.got = a.got)
    (hreader : a.reader = .idle → a'.reader = .idle) : App.Moved data reads a a' where
  passed_eq := by rw [hpassed, hdata, List.append_nil]
  got_le := hgot ▸ List.prefix_rfl
  quiet hidle _ := ⟨hgot, hreader hidle⟩

theorem App.Moved.refl (reads : Bool) (a : App) : App.Moved [] reads a a := .of_eq rfl rfl rfl id

namespace Peer

variable {pe pe' : Peer} {act : LocalAct} {p : Nat} {s : Session}

theorem update_app {s' : Session} (hsid : s'.sid = s.sid) (a : App) :
    (pe.update p s' a).app = Function.update pe.app s.sid a := by
  rw [← hsid]
  rfl

theorem Piece.app (h : pe.Piece p s (pe.app s.sid) act pe') :
    ∃ a', pe'.app = Function.update pe.app s.sid a' ∧ App.MovedBy act (pe.app s.sid) a' := by
  have hsame (l : Link) (hact : act.passes = []) :
      ∃ a', (pe.setLink l).app = Function.update pe.app s.sid a' ∧
        App.MovedBy act (pe.app s.sid) a' :=
    ⟨pe.app s.sid, (Function.update_eq_self s.sid pe.app).symm, .of_eq hact rfl rfl id⟩
  have hread {P : Prop} (hreads : true = false) : P := absurd hreads.symm Bool.false_ne_true
  cases h with
  | write_refused | write_accepted =>
    exact ⟨_, rfl, rfl, List.prefix_rfl, fun hidle _ => ⟨rfl, hidle⟩⟩
  | takeChunk | abortWrite => exact ⟨_, rfl, .of_eq rfl rfl rfl id⟩
  | sendChunk =>
    exact ⟨_, rfl, .of_eq rfl (End.chunkSent_passed ..) (End.chunkSent_got ..)
      fun hidle => (End.chunkSent_reader ..).trans hidle⟩
  | shutdownWrite | close => exact hsame _ rfl
  | read_bytes n out s' _ hs =>
    obtain ⟨-, -, -, -, -, -, -, hsid, -⟩ := Session.readStart_bytes hs
    exact ⟨_, update_app hsid _, (List.append_nil _).symm, List.prefix_append ..,
      fun _ => hread⟩
  | read_eof | read_wait =>
    exact ⟨_, rfl, (List.append_nil _).symm, List.prefix_rfl, fun _ => hread⟩
  | receive_bytes n out s' hr hs =>
    obtain ⟨-, -, -, -, -, -, -, -, -, -, -, hsid, -⟩ := Session.receive_bytes hs
    refine ⟨_, update_app hsid _, (List.append_nil _).symm, List.prefix_append .., fun hidle => ?_⟩
    rw [hr] at hidle
    cases hidle
  | receive_eof n hr =>
    refine ⟨_, rfl, (List.append_nil _).symm, List.prefix_rfl, fun hidle => ?_⟩
    rw [hr] at hidle
    cases hidle
  | check_closed | check_not_due | sendWindow =>
    exact ⟨_, rfl, .of_eq rfl rfl rfl fun _ => rfl⟩
  | check_due delta s' hr hs =>
    have hsid := congrArg Session.sid (Session.takeWindow_some hs).2.2
    refine ⟨_, update_app hsid _, .of_eq rfl rfl rfl fun hidle => ?_⟩
    rw [hr] at hidle
    cases hidle

/-- The act is a piece of a call on the session. -/
def On (pe : Peer) (sid : UInt64) (act : LocalAct) : Prop :=
  ∃ p, act.target = some p ∧ (pe.link.heap p).map (·.sid) = some sid

/-- The application's side of a session changes only by a piece of a call on it. -/
theorem step_app (h : pe.step act = some pe') (sid : UInt64) :
    pe.On sid act ∧ App.MovedBy act (pe.app sid) (pe'.app sid) ∨
      ¬ pe.On sid act ∧ pe'.app sid = pe.app sid := by
  cases hp : act.target with
  | some p =>
    obtain ⟨s, hs, hpiece⟩ := piece_of_step h hp
    obtain ⟨a', happ, hmoved⟩ := hpiece.app
    have hon : pe.On sid act ↔ sid = s.sid := by simp [On, hp, hs, eq_comm]
    rw [happ, Function.update_apply, hon]
    split_ifs with hsid
    · exact .inl ⟨hsid, hsid ▸ hmoved⟩
    · exact .inr ⟨hsid, rfl⟩
  | none =>
    refine .inr ⟨by simp [On, hp], ?_⟩
    simp only [step, hp] at h
    split at h
    · cases h
      rfl
    · obtain ⟨l, -, rfl⟩ := Option.map_eq_some_iff.mp h
      rfl
    · split_ifs at h
      cases h
      rfl
    · cases h
      rfl
    · cases h
      rfl
    · cases h

end Peer

namespace ByteNet

variable {want : Nat} {b b' : ByteNet}

/-- A step of one end, for both. -/
theorem act_app {x : Side} {act : LocalAct} (h : b.step want (.act x act) = some b') (z : Side)
    (sid : UInt64) :
    x = z ∧ (b.peer z).On sid act ∧ App.MovedBy act ((b.peer z).app sid) ((b'.peer z).app sid) ∨
      ¬ (x = z ∧ (b.peer z).On sid act) ∧ (b'.peer z).app sid = (b.peer z).app sid := by
  obtain ⟨pe, hpe, rfl⟩ := Option.map_eq_some_iff.mp h
  by_cases hx : x = z
  · subst hx
    obtain ⟨hon, hmoved⟩ | ⟨hon, hsame⟩ := Peer.step_app hpe sid
    · exact .inl ⟨rfl, hon, by simpa using hmoved⟩
    · exact .inr ⟨fun h => hon h.2, by simpa using hsame⟩
  · exact .inr ⟨fun h => hx h.1, by simp [Ne.symm hx]⟩

/-- The links' own coroutines do not touch the applications. -/
theorem step_app_eq {ev : ByteEvent} (h : b.step want ev = some b')
    (hev : ∀ x act, ev ≠ .act x act) (z : Side) (sid : UInt64) :
    (b'.peer z).app sid = (b.peer z).app sid := by
  have hlink (x : Side) (l : Link) :
      (Function.update b.peer x ((b.peer x).setLink l) z).app sid = (b.peer z).app sid := by
    rw [Function.update_apply]
    split_ifs with hx
    · rw [hx]
      rfl
    · rfl
  cases ev with
  | act x act => exact absurd rfl (hev x act)
  | flush x =>
    simp only [step] at h
    split at h
    · cases h
    · split_ifs at h <;> cases h <;> exact hlink x _
  | recv x k =>
    simp only [step] at h
    split_ifs at h
    cases h
    rfl
  | turn x now =>
    simp only [step] at h
    split_ifs at h
    split at h <;> cases h <;> exact hlink x _
  | cut x k =>
    cases h
    rfl

end ByteNet

/-! ## The tunnel -/

/-- The bytes that were read from a socket, and those that were written to it. -/
structure Plug where
  taken : Bytes
  given : Bytes

/-- The pair of links and the sockets at its two ends. For the calls on the session in progress
at each end: how many bytes the application had got when it called `read`, and the bytes that are
acknowledged if the `write` returns Ok. -/
structure Tunnel where
  net : ByteNet
  sock : Side → Plug
  seen : Side → Nat
  due : Side → Bytes

/-- The calls of the relay at one end. -/
inductive EndOp where
  | socketRead (n : Nat)
  | socketWrite (data : Bytes)
  | socketShutdown
  | socketClose
  /-- Call `read` of the session, with a buffer of `n` bytes. -/
  | read (n : Nat)
  /-- The `read` returns. -/
  | readDone
  /-- Call `write` of the session. -/
  | write (data : Bytes)
  /-- The `write` returns. -/
  | writeDone
  | shutdownWrite
  | close

abbrev EndOp.Ans : EndOp → Type
  | .socketRead _ | .readDone => StatusOr Bytes
  | .socketWrite _ | .writeDone => StatusOr Unit
  | _ => Unit

/-- The calls of the relays at both ends. -/
abbrev TunnelOp := Side × EndOp

abbrev TunnelOp.Ans (op : TunnelOp) : Type := op.2.Ans

namespace Tunnel

/-- The socket at `z` as a stream (`TcpSocketStream`). -/
def socket (z : Side) : SessionStream TunnelOp TunnelOp.Ans where
  read n := Co.await (z, EndOp.socketRead n)
  write data := Co.await (z, EndOp.socketWrite data)
  shutdownWrite := Co.await (z, EndOp.socketShutdown)
  close := Co.await (z, EndOp.socketClose)

/-- The session at `z` as a stream. -/
def session (z : Side) : SessionStream TunnelOp TunnelOp.Ans where
  read n := do
    Co.await (z, EndOp.read n)
    Co.await (z, EndOp.readDone)
  write data := do
    Co.await (z, EndOp.write data)
    Co.await (z, EndOp.writeDone)
  shutdownWrite := Co.await (z, EndOp.shutdownWrite)
  close := Co.await (z, EndOp.close)

/-- The relay at one end: `ShineOutbound::handle` joins the client's socket to the session, and
the outbound that the server picks joins the session to its socket. -/
def relay : Side → Co TunnelOp TunnelOp.Ans Unit
  | .client => bidiCopy (socket .client) (session .client)
  | .server => bidiCopy (session .server) (socket .server)

variable (want : Nat) (sid : UInt64)

/-- The application's side of the session. -/
def app (w : Tunnel) (z : Side) : App := (w.net.peer z).app sid

/-- A method of the session is called at `z`. -/
def Calls (w : Tunnel) (z : Side) (act : Nat → LocalAct) (b : ByteNet) : Prop :=
  ∃ p, ((w.net.peer z).link.heap p).map (·.sid) = some sid ∧
    w.net.step want (.act z (act p)) = some b

def setSock (w : Tunnel) (z : Side) (k : Plug) : Tunnel :=
  { w with sock := Function.update w.sock z k }

/-- What the calls do. A `read` of the session returns what the application has got since it was
called, and a `write` returns Ok if its bytes have been acknowledged. -/
def exec (w : Tunnel) (op : TunnelOp) (r : op.Ans) (w' : Tunnel) : Prop :=
  match op, r with
  | (z, .socketRead n), .ok data => data.length ≤ n ∧
      w' = w.setSock z { w.sock z with taken := (w.sock z).taken ++ data }
  | (_, .socketRead _), .error _ => w' = w
  | (z, .socketWrite data), .ok () =>
      w' = w.setSock z { w.sock z with given := (w.sock z).given ++ data }
  | (z, .socketWrite data), .error _ =>
      ∃ k, w' = w.setSock z { w.sock z with given := (w.sock z).given ++ data.take k }
  | (_, .socketShutdown), _ | (_, .socketClose), _ => w' = w
  | (z, .read n), _ => ∃ b, Calls want sid w z (.read · n) b ∧
      w' = { w with net := b, seen := Function.update w.seen z (w.app sid z).got.length }
  | (z, .readDone), r => (w.app sid z).reader = .idle ∧
      r = .ok ((w.app sid z).got.drop (w.seen z)) ∧ w' = w
  | (z, .write data), _ => ∃ b, Calls want sid w z (.write · data) b ∧
      w' = { w with net := b, due := Function.update w.due z ((w.app sid z).acked ++ data) }
  | (z, .writeDone), r => (w.app sid z).writer = .idle ∧
      (r = .ok () ↔ (w.app sid z).acked = w.due z) ∧ w' = w
  | (z, .shutdownWrite), _ => ∃ b, Calls want sid w z .shutdownWrite b ∧ w' = { w with net := b }
  | (z, .close), _ => ∃ b, Calls want sid w z .close b ∧ w' = { w with net := b }

/-- The event is not a call on the session. -/
def Elsewhere (b : ByteNet) : ByteEvent → Prop
  | .act z (.write p _) | .act z (.read p _) | .act z (.shutdownWrite p) | .act z (.close p) =>
    ((b.peer z).link.heap p).map (·.sid) ≠ some sid
  | _ => True

/-- Everything else that happens on the pair: the pieces of the calls in progress, the links'
coroutines, failures, and whatever is done with other sessions, whose sids are fresh. -/
def Besides (w w' : Tunnel) : Prop :=
  ∃ ev b, w.net.FreshSids ev ∧ Elsewhere sid w.net ev ∧ w.net.step want ev = some b ∧
    w' = { w with net := b }

variable {want sid} {w w' : Tunnel} {z : Side}

/-! ### What the two directions leave alone -/

/-- The bytes that the call passes to `write` of the session at `z`. -/
def passes (z : Side) : TunnelOp → Bytes
  | (x, .write data) => if x = z then data else []
  | _ => []

/-- The call is `read` of the session at `z`. -/
def reads (z : Side) : TunnelOp → Bool
  | (x, .read _) => x = z
  | _ => false

theorem Besides.moved (h : Besides want sid w w') (z : Side) :
    App.Moved [] false (w.app sid z) (w'.app sid z) := by
  obtain ⟨ev, b, -, helse, hstep, rfl⟩ := h
  have hsame (heq : (b.peer z).app sid = w.app sid z) :
      App.Moved [] false (w.app sid z) ((b.peer z).app sid) := heq ▸ .refl _ _
  by_cases hev : ∃ x act, ev = .act x act
  · obtain ⟨x, act, rfl⟩ := hev
    obtain ⟨rfl, ⟨p, hp, hsid⟩, hmoved⟩ | ⟨-, heq⟩ := ByteNet.act_app hstep z sid
    · cases act with
      | write q data | read q n | shutdownWrite q | close q =>
        cases hp
        exact absurd hsid helse
      | _ => exact hmoved
    · exact hsame heq
  · exact hsame (ByteNet.step_app_eq hstep (fun x act heq => hev ⟨x, act, heq⟩) z sid)

/-- A call on the session moves its own end, and not the other. -/
theorem Calls.moved {x : Side} {act : Nat → LocalAct} {b : ByteNet} {data : Bytes} {isRead : Bool}
    (h : Calls want sid w x act b)
    (hact : ∀ p, (act p).target = some p ∧ (act p).passes = data ∧ (act p).isRead = isRead)
    (z : Side) :
    App.Moved (if x = z then data else []) (decide (x = z) && isRead) (w.app sid z)
      ((b.peer z).app sid) := by
  obtain ⟨p, hp, hstep⟩ := h
  obtain ⟨htarget, rfl, rfl⟩ := hact p
  obtain ⟨rfl, -, hmoved⟩ | ⟨hx, heq⟩ := ByteNet.act_app hstep z sid
  · simpa [app] using hmoved
  · have hne : x ≠ z := fun hxz => hx ⟨hxz, p, htarget, hxz ▸ hp⟩
    rw [if_neg hne, heq]
    exact .refl _ _

theorem exec_moved {op : TunnelOp} {r : op.Ans} (h : exec want sid w op r w') (z : Side) :
    App.Moved (passes z op) (reads z op) (w.app sid z) (w'.app sid z) := by
  obtain ⟨x, op⟩ := op
  cases op with
  | socketRead n =>
    cases r with
    | ok data =>
      obtain ⟨-, rfl⟩ := h
      exact .refl _ _
    | error e =>
      obtain rfl := h
      exact .refl _ _
  | socketWrite data =>
    cases r with
    | ok u =>
      obtain rfl := h
      exact .refl _ _
    | error e =>
      obtain ⟨k, rfl⟩ := h
      exact .refl _ _
  | socketShutdown | socketClose =>
    obtain rfl := h
    exact .refl _ _
  | read n =>
    obtain ⟨b, hcalls, rfl⟩ := h
    simpa [passes, reads, app] using hcalls.moved (fun p => ⟨rfl, rfl, rfl⟩) z
  | readDone | writeDone =>
    obtain ⟨-, -, rfl⟩ := h
    exact .refl _ _
  | write data =>
    obtain ⟨b, hcalls, rfl⟩ := h
    simpa [passes, reads, app] using hcalls.moved (fun p => ⟨rfl, rfl, rfl⟩) z
  | shutdownWrite | close =>
    obtain ⟨b, hcalls, rfl⟩ := h
    simpa [passes, reads, app] using hcalls.moved (fun p => ⟨rfl, rfl, rfl⟩) z

/-- The calls of the direction from the socket at `z` to the session. -/
def Sending (z : Side) : TunnelOp → Prop
  | (x, .socketRead _) | (x, .write _) | (x, .writeDone) | (x, .shutdownWrite) => x = z
  | _ => False

/-- The calls of the direction from the session to the socket at `z`. -/
def Receiving (z : Side) : TunnelOp → Prop
  | (x, .read _) | (x, .readDone) | (x, .socketWrite _) | (x, .socketShutdown) => x = z
  | _ => False

variable (want sid) in
/-- The world moves by anything but the calls `N`. -/
def Around (N : TunnelOp → Prop) (w w' : Tunnel) : Prop :=
  Besides want sid w w' ∨ ∃ op r, ¬ N op ∧ exec want sid w op r w'

@[simp] theorem setSock_self (w : Tunnel) (z : Side) (k : Plug) : (w.setSock z k).sock z = k :=
  Function.update_self ..

theorem setSock_of_ne {x : Side} (h : z ≠ x) (k : Plug) : (w.setSock x k).sock z = w.sock z :=
  Function.update_of_ne h _ _

theorem setSock_taken {x : Side} {k : Plug} (h : k.taken = (w.sock x).taken) :
    ((w.setSock x k).sock z).taken = (w.sock z).taken := by
  by_cases hz : z = x
  · subst hz
    rw [setSock_self, h]
  · rw [setSock_of_ne hz]

theorem setSock_given {x : Side} {k : Plug} (h : k.given = (w.sock x).given) :
    ((w.setSock x k).sock z).given = (w.sock z).given := by
  by_cases hz : z = x
  · subst hz
    rw [setSock_self, h]
  · rw [setSock_of_ne hz]

/-- The socket at `z`, and what its relay remembers, change by the calls of their directions. -/
theorem exec_sock {op : TunnelOp} {r : op.Ans} (h : exec want sid w op r w') (z : Side) :
    (¬ Sending z op → (w'.sock z).taken = (w.sock z).taken) ∧
      (¬ Receiving z op → (w'.sock z).given = (w.sock z).given ∧ w'.seen z = w.seen z) := by
  obtain ⟨x, op⟩ := op
  cases op with
  | socketRead n =>
    cases r with
    | ok data =>
      obtain ⟨-, rfl⟩ := h
      refine ⟨fun hx => ?_, fun _ => ⟨setSock_given rfl, rfl⟩⟩
      rw [setSock_of_ne fun hz => hx hz.symm]
    | error e =>
      obtain rfl := h
      exact ⟨fun _ => rfl, fun _ => ⟨rfl, rfl⟩⟩
  | socketWrite data =>
    cases r with
    | ok u =>
      obtain rfl := h
      refine ⟨fun _ => setSock_taken rfl, fun hx => ⟨?_, rfl⟩⟩
      rw [setSock_of_ne fun hz => hx hz.symm]
    | error e =>
      obtain ⟨k, rfl⟩ := h
      refine ⟨fun _ => setSock_taken rfl, fun hx => ⟨?_, rfl⟩⟩
      rw [setSock_of_ne fun hz => hx hz.symm]
  | socketShutdown | socketClose =>
    obtain rfl := h
    exact ⟨fun _ => rfl, fun _ => ⟨rfl, rfl⟩⟩
  | read n =>
    obtain ⟨b, -, rfl⟩ := h
    exact ⟨fun _ => rfl, fun hx => ⟨rfl, Function.update_of_ne (fun hz => hx hz.symm) _ _⟩⟩
  | readDone | writeDone =>
    obtain ⟨-, -, rfl⟩ := h
    exact ⟨fun _ => rfl, fun _ => ⟨rfl, rfl⟩⟩
  | write data | shutdownWrite | close =>
    obtain ⟨b, -, rfl⟩ := h
    exact ⟨fun _ => rfl, fun _ => ⟨rfl, rfl⟩⟩

/-- The calls of the other direction do not pass anything to `write`. -/
theorem passes_eq_nil {op : TunnelOp} (h : ¬ Sending z op) : passes z op = [] := by
  obtain ⟨x, op⟩ := op
  cases op with
  | write data => exact if_neg h
  | _ => rfl

theorem reads_eq_false {op : TunnelOp} (h : ¬ Receiving z op) : reads z op = false := by
  obtain ⟨x, op⟩ := op
  cases op with
  | read n => exact decide_eq_false h
  | _ => rfl

/-! ### The assertions -/

variable (sid)

/-- Everything read from the socket has been passed to the session. -/
def Sent (z : Side) (w : Tunnel) : Prop := (w.app sid z).passed = (w.sock z).taken

/-- `data` was read from the socket and is to be passed to the session. -/
def ToSend (z : Side) (data : Bytes) (w : Tunnel) : Prop :=
  (w.sock z).taken = (w.app sid z).passed ++ data

/-- Everything got from the session has been written to the socket, and there is no `read`. -/
def Received (z : Side) (w : Tunnel) : Prop :=
  (w.app sid z).got = (w.sock z).given ∧ (w.app sid z).reader = .idle

/-- A `read` of the session has been called. -/
def ToReceive (z : Side) (w : Tunnel) : Prop :=
  w.seen z = (w.sock z).given.length ∧ (w.sock z).given <+: (w.app sid z).got

/-- `data` was got from the session and is to be written to the socket. -/
def ToWrite (z : Side) (data : Bytes) (w : Tunnel) : Prop :=
  (w.app sid z).got = (w.sock z).given ++ data ∧ (w.app sid z).reader = .idle

/-- A write to the socket has failed, perhaps after a part. -/
def Stopped (z : Side) (w : Tunnel) : Prop := (w.sock z).given <+: (w.app sid z).got

/-- When the relays may make their calls. -/
def Proper (w : Tunnel) : TunnelOp → Prop
  | (z, .write data) => ToSend sid z data w
  | (z, .shutdownWrite) => Sent sid z w
  | (z, .socketWrite data) => ToWrite sid z data w
  | _ => True

variable {sid}

/-- What is asserted of the direction to the session survives everything but its own calls. -/
theorem stable_sending (P : Bytes → Bytes → Prop) :
    Stable (Around want sid (Sending z)) fun w => P (w.app sid z).passed (w.sock z).taken := by
  rintro w w' hP (henv | ⟨op, r, hop, hexec⟩)
  · have hpassed := (henv.moved z).passed_eq
    obtain ⟨ev, b, -, -, -, rfl⟩ := henv
    rw [hpassed, List.append_nil]
    exact hP
  · rw [(exec_moved hexec z).passed_eq, passes_eq_nil hop, List.append_nil,
      (exec_sock hexec z).1 hop]
    exact hP

/-- The other direction: nothing else writes to the socket, and more is got only while a `read` is
in progress. -/
theorem around_receiving (h : Around want sid (Receiving z) w w') :
    (w'.sock z).given = (w.sock z).given ∧ w'.seen z = w.seen z ∧
      (w.app sid z).got <+: (w'.app sid z).got ∧
      ((w.app sid z).reader = .idle →
        (w'.app sid z).got = (w.app sid z).got ∧ (w'.app sid z).reader = .idle) := by
  rcases h with henv | ⟨op, r, hop, hexec⟩
  · have hmoved := henv.moved z
    obtain ⟨ev, b, -, -, -, rfl⟩ := henv
    exact ⟨rfl, rfl, hmoved.got_le, fun hidle => hmoved.quiet hidle rfl⟩
  · have hmoved := exec_moved hexec z
    obtain ⟨hgiven, hseen⟩ := (exec_sock hexec z).2 hop
    exact ⟨hgiven, hseen, hmoved.got_le, fun hidle => hmoved.quiet hidle (reads_eq_false hop)⟩

theorem stable_received : Stable (Around want sid (Receiving z)) (Received sid z) := by
  rintro w w' ⟨hgot, hidle⟩ h
  obtain ⟨hgiven, -, -, hquiet⟩ := around_receiving h
  obtain ⟨hgot', hidle'⟩ := hquiet hidle
  exact ⟨by rw [hgot', hgiven, hgot], hidle'⟩

theorem stable_toReceive : Stable (Around want sid (Receiving z)) (ToReceive sid z) := by
  rintro w w' ⟨hseen, hle⟩ h
  obtain ⟨hgiven, hseen', hgot, -⟩ := around_receiving h
  exact ⟨by rw [hseen', hgiven, hseen], by rw [hgiven]; exact hle.trans hgot⟩

theorem stable_toWrite (data : Bytes) :
    Stable (Around want sid (Receiving z)) (ToWrite sid z data) := by
  rintro w w' ⟨hgot, hidle⟩ h
  obtain ⟨hgiven, -, -, hquiet⟩ := around_receiving h
  obtain ⟨hgot', hidle'⟩ := hquiet hidle
  exact ⟨by rw [hgot', hgiven, hgot], hidle'⟩

theorem stable_stopped : Stable (Around want sid (Receiving z)) (Stopped sid z) := by
  intro w w' hle h
  obtain ⟨hgiven, -, hgot, -⟩ := around_receiving h
  rw [Stopped, hgiven]
  exact hle.trans hgot

/-! ### The two directions at one end -/

section Directions

variable {R : Tunnel → Tunnel → Prop}

/-- From the socket to the session. -/
theorem secures_sending (hR : ∀ w w', R w w' → Around want sid (Sending z) w w')
    (hw : Sent sid z w) :
    Secures (exec want sid) (Proper sid) R (halfCopy (socket z) (session z)) (fun _ _ => True) w := by
  have hsent : Stable R (Sent sid z) := (stable_sending (· = ·)).of_le hR
  have htoSend (data : Bytes) : Stable R (ToSend sid z data) :=
    (stable_sending fun passed taken => taken = passed ++ data).of_le hR
  refine secures_halfCopy (Sent sid z) (ToSend sid z) (Sent sid z) hsent hsent ?_ ?_ ?_ hw
  · intro w hw
    refine .await _ hw hsent (fun _ _ => trivial) ?_ (AfterRead.stable htoSend hsent)
    intro w r w' hw hexec
    rcases r with e | (_ | ⟨x, xs⟩)
    · obtain rfl := hexec
      exact hw
    · obtain ⟨-, rfl⟩ := hexec
      show (w.app sid z).passed = _
      rw [setSock_self, List.append_nil]
      exact hw
    · obtain ⟨-, rfl⟩ := hexec
      show ((w.setSock z _).sock z).taken = (w.app sid z).passed ++ _
      rw [setSock_self, hw]
  · intro data w hw
    refine .call _ hw (htoSend data) (fun _ h => h) fun w r w' hw hexec => ?_
    have hsent' : Sent sid z w' := by
      have hpassed : (w'.app sid z).passed = (w.app sid z).passed ++ data := by
        simpa [passes] using (exec_moved hexec z).passed_eq
      obtain ⟨b, -, rfl⟩ := hexec
      exact hpassed.trans hw.symm
    refine .await _ hsent' hsent (fun _ _ => trivial) ?_ (AfterWrite.stable hsent hsent)
    rintro w r w' hw ⟨-, -, rfl⟩
    rcases r with e | ⟨⟩ <;> exact hw
  · intro w hw
    exact .await _ hw hsent (fun _ h => h) (fun _ _ _ _ _ => trivial) fun _ _ _ _ _ => trivial

/-- From the session to the socket. -/
theorem secures_receiving (hR : ∀ w w', R w w' → Around want sid (Receiving z) w w')
    (hw : Received sid z w) :
    Secures (exec want sid) (Proper sid) R (halfCopy (session z) (socket z)) (fun _ _ => True) w := by
  have hreceived := stable_received.of_le hR
  have hstopped := stable_stopped.of_le hR
  have htoWrite (data : Bytes) := (stable_toWrite data).of_le hR
  refine secures_halfCopy (Received sid z) (ToWrite sid z) (Stopped sid z) hreceived hstopped
    ?_ ?_ ?_ hw
  · intro w hw
    refine .call _ hw hreceived (fun _ _ => trivial) fun w r w' hw hexec => ?_
    have hcalled : ToReceive sid z w' := by
      have hgot := (exec_moved hexec z).got_le
      obtain ⟨b, -, rfl⟩ := hexec
      rw [hw.1] at hgot
      exact ⟨by simp [hw.1], hgot⟩
    refine .await _ hcalled (stable_toReceive.of_le hR) (fun _ _ => trivial) ?_
      (AfterRead.stable htoWrite hstopped)
    rintro w r w' ⟨hseen, hle⟩ ⟨hidle, hr, hw'⟩
    subst hr hw'
    have hgot : (w'.app sid z).got = (w'.sock z).given ++ (w'.app sid z).got.drop (w'.seen z) := by
      rw [hseen]
      exact (List.prefix_iff_eq_append.mp hle).symm
    rcases hdata : (w'.app sid z).got.drop (w'.seen z) with _ | ⟨x, xs⟩
    · exact hle
    · exact ⟨hdata ▸ hgot, hidle⟩
  · intro data w hw
    refine .await _ hw (htoWrite data) (fun _ h => h) ?_ (AfterWrite.stable hreceived hstopped)
    rintro w r w' ⟨hgot, hidle⟩ hexec
    rcases r with e | ⟨⟩
    · obtain ⟨k, rfl⟩ := hexec
      show ((w.setSock z _).sock z).given <+: (w.app sid z).got
      rw [setSock_self, hgot]
      exact (List.prefix_append_right_inj _).mpr (List.take_prefix k data)
    · obtain rfl := hexec
      refine ⟨?_, hidle⟩
      show (w.app sid z).got = _
      rw [setSock_self, hgot]
  · intro w hw
    exact .await _ hw hstopped (fun _ _ => trivial) (fun _ _ _ _ _ => trivial)
      fun _ _ _ _ _ => trivial

end Directions

/-! ### Both ends -/

/-- The calls of the relay at `z`. -/
def AtEnd (z : Side) (op : TunnelOp) : Prop := op.1 = z

theorem AtEnd.not_sending {op : TunnelOp} (h : AtEnd z.other op) : ¬ Sending z op := by
  obtain ⟨x, op⟩ := op
  obtain rfl : x = z.other := h
  cases op <;> first | exact z.other_ne | exact id

theorem AtEnd.not_receiving {op : TunnelOp} (h : AtEnd z.other op) : ¬ Receiving z op := by
  obtain ⟨x, op⟩ := op
  obtain rfl : x = z.other := h
  cases op <;> first | exact z.other_ne | exact id

theorem Receiving.not_sending {op : TunnelOp} (h : Receiving z op) : ¬ Sending z op := by
  obtain ⟨x, op⟩ := op
  cases op <;> first | exact id | exact h.elim

/-- The moves of others. -/
theorem next_around {R : Tunnel → Tunnel → Prop} {M N : TunnelOp → Prop}
    (hR : ∀ w w', R w w' → Around want sid N w w') (hM : ∀ op, M op → ¬ N op) (w w' : Tunnel)
    (h : Next (exec want sid) (Proper sid) R M w w') : Around want sid N w w' := by
  rcases h with hr | ⟨op, r, hop, -, hexec⟩
  · exact hR w w' hr
  · exact .inr ⟨op, r, hM op hop, hexec⟩

theorem clean_sending (z : Side) {bad : TunnelOp → Prop} (h : ∀ op, Sending z op → ¬ bad op) :
    Clean bad (halfCopy (socket z) (session z)) :=
  clean_halfCopy_of (fun _ => .await (h _ rfl))
    (fun _ => .bind (.await (h _ rfl)) fun _ => .await (h _ rfl)) (.await (h _ rfl))

theorem clean_receiving (z : Side) {bad : TunnelOp → Prop} (h : ∀ op, Receiving z op → ¬ bad op) :
    Clean bad (halfCopy (session z) (socket z)) :=
  clean_halfCopy_of (fun _ => .bind (.await (h _ rfl)) fun _ => .await (h _ rfl))
    (fun _ => .await (h _ rfl)) (.await (h _ rfl))

theorem Sending.atEnd {op : TunnelOp} (h : Sending z op) : AtEnd z op := by
  obtain ⟨x, op⟩ := op
  cases op <;> first | exact h | exact h.elim

theorem Receiving.atEnd {op : TunnelOp} (h : Receiving z op) : AtEnd z op := by
  obtain ⟨x, op⟩ := op
  cases op <;> first | exact h | exact h.elim

theorem clean_relay (z : Side) : Clean (¬ AtEnd z ·) (relay z) := by
  have hs := clean_sending z fun op (h : Sending z op) => not_not.mpr h.atEnd
  have hr := clean_receiving z fun op (h : Receiving z op) => not_not.mpr h.atEnd
  have hclose : Clean (¬ AtEnd z ·) (session z).close := .await (not_not.mpr rfl)
  have hsocket : Clean (¬ AtEnd z ·) (socket z).close := .await (not_not.mpr rfl)
  cases z with
  | client => exact clean_bidiCopy_of hs hr hsocket hclose
  | server => exact clean_bidiCopy_of hr hs hclose hsocket

theorem stable_true (R : Tunnel → Tunnel → Prop) : Stable R fun _ => True :=
  fun _ _ _ _ => trivial

/-- A call about which nothing is asserted. -/
theorem secures_any {R : Tunnel → Tunnel → Prop} {op : TunnelOp} (hop : ∀ w, Proper sid w op)
    (w : Tunnel) :
    Secures (exec want sid) (Proper sid) R (Co.await op) (fun _ _ => True) w :=
  .await (fun _ => True) trivial (stable_true R) (fun w _ => hop w) (fun _ _ _ _ _ => trivial)
    fun _ => stable_true R

/-- The relay at one end, next to the other. -/
theorem secures_relay (hs : Sent sid z w) (hr : Received sid z w) :
    Secures (exec want sid) (Proper sid)
      (Next (exec want sid) (Proper sid) (Besides want sid) (AtEnd z.other)) (relay z)
      (fun _ _ => True) w := by
  have hbeside (N : TunnelOp → Prop) (hN : ∀ op, AtEnd z.other op → ¬ N op) : ∀ w w',
      Next (exec want sid) (Proper sid) (Besides want sid) (AtEnd z.other) w w' →
        Around want sid N w w' := next_around (fun _ _ h => .inl h) hN
  have hsend := secures_sending
    (next_around (hbeside _ fun _ => AtEnd.not_sending) fun _ => Receiving.not_sending) hs
  have hrecv := secures_receiving (next_around (hbeside _ fun _ => AtEnd.not_receiving)
    fun _ h h' => Receiving.not_sending h' h) hr
  have hcs := clean_sending z fun op (h : Sending z op) => not_not.mpr h
  have hcr := clean_receiving z fun op (h : Receiving z op) => not_not.mpr h
  have hstable (R : Tunnel → Tunnel → Prop) : Stable R fun _ => True ∧ True :=
    (stable_true R).and (stable_true R)
  have hclose (R : Tunnel → Tunnel → Prop) : ∀ w, Secures (exec want sid) (Proper sid) R
      (session z).close (fun _ _ => True) w := secures_any fun _ => trivial
  have hsocket (R : Tunnel → Tunnel → Prop) : ∀ w, Secures (exec want sid) (Proper sid) R
      (socket z).close (fun _ _ => True) w := secures_any fun _ => trivial
  cases z with
  | client =>
    exact secures_bidiCopy _ _ hcs hcr hsend hrecv (hstable _) (fun w _ _ => hsocket _ w)
      fun w _ => hclose _ w
  | server =>
    exact secures_bidiCopy _ _ hcr hcs hrecv hsend (hstable _) (fun w _ _ => hclose _ w)
      fun w _ => hsocket _ w

/-- The pair of links is `b`, and the relays begin. -/
def begin (b : ByteNet) : Tunnel := ⟨b, fun _ => ⟨[], []⟩, fun _ => 0, fun _ => []⟩

theorem secures_relays {b : ByteNet} (hb : ∀ z, (b.peer z).app sid = .init) :
    Secures (exec want sid) (Proper sid) (Besides want sid)
      (Co.par (relay .client) (relay .server)) (fun _ _ => True) (begin b) := by
  have hsent (z : Side) : Sent sid z (begin b) := by
    rw [Sent, app, begin, hb]
    rfl
  have hreceived (z : Side) : Received sid z (begin b) := by
    rw [Received, app, begin, hb]
    exact ⟨rfl, rfl⟩
  exact .par (AtEnd .client) (AtEnd .server) (clean_relay .client) (clean_relay .server)
    (secures_relay (hsent .client) (hreceived .client))
    (secures_relay (hsent .server) (hreceived .server)) (fun _ _ _ => trivial) (stable_true _)

/-- The links are in a state that they can reach, what was passed to the session at each end was
read from the socket there, and what was written to the socket was got from the session. -/
structure Inv (want : Nat) (sid : UInt64) (b₀ : ByteNet) (w : Tunnel) : Prop where
  reach : (byteSystem want).Reach ByteNet.FreshSids b₀ w.net
  passed_le : ∀ z, (w.app sid z).passed <+: (w.sock z).taken
  given_le : ∀ z, (w.sock z).given <+: (w.app sid z).got

variable {b₀ : ByteNet}

theorem Inv.besides (h : Inv want sid b₀ w) (hstep : Besides want sid w w') :
    Inv want sid b₀ w' := by
  have hmoved := hstep.moved
  obtain ⟨ev, b, hfresh, -, hnet, rfl⟩ := hstep
  refine ⟨h.reach.tail hfresh hnet, fun z => ?_, fun z => (h.given_le z).trans (hmoved z).got_le⟩
  rw [(hmoved z).passed_eq, List.append_nil]
  exact h.passed_le z

theorem exec_taken_le {op : TunnelOp} {r : op.Ans} (hexec : exec want sid w op r w') (z : Side) :
    (w.sock z).taken <+: (w'.sock z).taken := by
  by_cases hop : Sending z op
  · obtain ⟨x, op⟩ := op
    cases op with
    | socketRead n =>
      obtain rfl : x = z := hop
      cases r with
      | ok data =>
        obtain ⟨-, rfl⟩ := hexec
        rw [setSock_self]
        exact List.prefix_append ..
      | error e =>
        obtain rfl := hexec
        exact List.prefix_rfl
    | write data | shutdownWrite =>
      obtain ⟨b, -, rfl⟩ := hexec
      exact List.prefix_rfl
    | writeDone =>
      obtain ⟨-, -, rfl⟩ := hexec
      exact List.prefix_rfl
    | _ => exact hop.elim
  · rw [(exec_sock hexec z).1 hop]

/-- What was passed to the session stays within what was read from the socket. -/
theorem Inv.exec_passed (h : Inv want sid b₀ w) {op : TunnelOp} {r : op.Ans}
    (hop : Proper sid w op) (hexec : exec want sid w op r w') (z : Side) :
    (w'.app sid z).passed <+: (w'.sock z).taken := by
  have hpassed := (exec_moved hexec z).passed_eq
  by_cases hw : passes z op = []
  · rw [hpassed, hw, List.append_nil]
    exact (h.passed_le z).trans (exec_taken_le hexec z)
  · obtain ⟨x, op⟩ := op
    cases op with
    | write data =>
      obtain rfl : x = z := by_contra fun hx => hw (if_neg hx)
      have htaken : (w.sock x).taken = (w.app sid x).passed ++ data := hop
      have hsame : (w'.sock x).taken = (w.sock x).taken := by
        obtain ⟨b, -, rfl⟩ := hexec
        rfl
      rw [hpassed, hsame, htaken, passes, if_pos rfl]
    | _ => exact absurd rfl hw

/-- What was written to the socket stays within what was got from the session. -/
theorem Inv.exec_given (h : Inv want sid b₀ w) {op : TunnelOp} {r : op.Ans}
    (hop : Proper sid w op) (hexec : exec want sid w op r w') (z : Side) :
    (w'.sock z).given <+: (w'.app sid z).got := by
  have hgot := (h.given_le z).trans (exec_moved hexec z).got_le
  by_cases hw : Receiving z op
  · obtain ⟨x, op⟩ := op
    cases op with
    | socketWrite data =>
      obtain rfl : x = z := hw
      have hdata : (w.app sid x).got = (w.sock x).given ++ data := hop.1
      cases r with
      | ok u =>
        obtain rfl := hexec
        rw [setSock_self]
        exact hdata ▸ List.prefix_rfl
      | error e =>
        obtain ⟨k, rfl⟩ := hexec
        show _ <+: (w.app sid x).got
        rw [setSock_self, hdata]
        exact (List.prefix_append_right_inj _).mpr (List.take_prefix k data)
    | read n =>
      obtain ⟨b, -, rfl⟩ := hexec
      exact hgot
    | readDone =>
      obtain ⟨-, -, rfl⟩ := hexec
      exact hgot
    | socketShutdown =>
      obtain rfl := hexec
      exact hgot
    | _ => exact hw.elim
  · rw [((exec_sock hexec z).2 hw).1]
    exact hgot

theorem Calls.reach {x : Side} {act : Nat → LocalAct} {b : ByteNet}
    (h : Calls want sid w x act b) (hact : ∀ p, w.net.FreshSids (.act x (act p)))
    (hreach : (byteSystem want).Reach ByteNet.FreshSids b₀ w.net) :
    (byteSystem want).Reach ByteNet.FreshSids b₀ b := by
  obtain ⟨p, -, hstep⟩ := h
  exact hreach.tail (hact p) hstep

/-- The calls of the relays are steps of the pair. -/
theorem exec_reach {op : TunnelOp} {r : op.Ans} (hexec : exec want sid w op r w')
    (h : (byteSystem want).Reach ByteNet.FreshSids b₀ w.net) :
    (byteSystem want).Reach ByteNet.FreshSids b₀ w'.net := by
  obtain ⟨x, op⟩ := op
  cases op with
  | socketRead n =>
    cases r with
    | ok data =>
      obtain ⟨-, rfl⟩ := hexec
      exact h
    | error e =>
      obtain rfl := hexec
      exact h
  | socketWrite data =>
    cases r with
    | ok u =>
      obtain rfl := hexec
      exact h
    | error e =>
      obtain ⟨k, rfl⟩ := hexec
      exact h
  | socketShutdown | socketClose =>
    obtain rfl := hexec
    exact h
  | readDone | writeDone =>
    obtain ⟨-, -, rfl⟩ := hexec
    exact h
  | read n | write data | shutdownWrite | close =>
    obtain ⟨b, hcalls, rfl⟩ := hexec
    exact hcalls.reach (fun _ => trivial) h

theorem Inv.exec (h : Inv want sid b₀ w) {op : TunnelOp} {r : op.Ans} (hop : Proper sid w op)
    (hexec : exec want sid w op r w') : Inv want sid b₀ w' where
  reach := exec_reach hexec h.reach
  passed_le := h.exec_passed hop hexec
  given_le := h.exec_given hop hexec

/-- **Tunnels are faithful end to end.** Two links joined by an ordered byte stream are in any
state that they can reach in which nothing has been done with the session `sid` yet. From then on,
whatever the two relays, the links and the users of any other sessions do, in any order, however
the connection cuts the bytes, and also when a link fails or the connection is cut: the bytes
written to the socket at one end are, from the start and in order, bytes read from the socket at
the other. The write side of the session is shut down only when everything that was read from the
socket has been passed to it. -/
theorem tunnel_integrity (client srv : LinkOptions) (now : UInt64) (capacity : Nat)
    {b : ByteNet} (hb : (byteSystem want).Reach ByteNet.FreshSids (.start client srv now capacity) b)
    (hfresh : ∀ z, (b.peer z).app sid = .init) {c : Co TunnelOp TunnelOp.Ans Unit} {w : Tunnel}
    (hrun : Run (exec want sid) (Besides want sid) (Co.par (relay .client) (relay .server))
      (begin b) c w) (z : Side) :
    (w.sock z.other).given <+: (w.sock z).taken ∧
      (Awaits c (z, .shutdownWrite) → (w.app sid z).passed = (w.sock z).taken) := by
  have hsec : Secures (exec want sid) (Proper sid) (Besides want sid) _ _ (begin b) :=
    secures_relays hfresh
  have hinv : Inv want sid b w := hsec.invariant hrun (fun _ _ h => h.besides)
    (fun _ _ _ _ h => h.exec) ⟨.refl, fun _ => by rw [app, begin, hfresh]; exact List.nil_prefix,
      fun _ => List.nil_prefix⟩
  obtain ⟨n, hn, href⟩ := (hb.trans hinv.reach).simulate (refines_start client srv now capacity)
    fun b ev b' n h hfresh hstep => h.step hfresh hstep
  have hgot : (w.app sid z.other).got <+: (w.app sid z).passed := by
    have hlinks : n.Inv client.initWindow srv.initWindow fun _ _ => False := Net.inv_of_fresh hn
    rw [app, app, ← href.peer]
    exact hlinks.got_le z sid
  refine ⟨(hinv.given_le z.other).trans (hgot.trans (hinv.passed_le z)), fun hop => ?_⟩
  exact hsec.awaits_run hrun hop

/-- The client has opened session 7, and the server has accepted it. -/
def sampleLinks : Option ByteNet :=
  (byteSystem 64).exec ByteNet.FreshSids (.start Link.sampleOpts Link.sampleOpts 0 0)
    [.act .client (.openSession 7 (.domain [97] 80)), .flush .client, .recv .server 100,
      .turn .server 0]

/-- Two bytes from the client's socket have come through to the server's. -/
theorem tunnel_integrity_two_bytes : ∃ c w,
    Run (exec 64 7) (Besides 64 7) (Co.par (relay .client) (relay .server))
        (begin (sampleLinks.get rfl)) c w ∧
      (w.sock .server).given = [1, 2] ∧ (w.sock .server).given <+: (w.sock .client).taken := by
  have hb : (byteSystem 64).Reach ByteNet.FreshSids
      (.start Link.sampleOpts Link.sampleOpts 0 0) (sampleLinks.get rfl) :=
    Lts.reach_of_exec _ (Option.some_get _).symm
  have hread (w : Tunnel) : exec 64 7 w (.client, .socketRead (32 * 1024)) (.ok [1, 2]) _ :=
    ⟨by decide, rfl⟩
  have hwrite {w : Tunnel} {b : ByteNet} (h : Calls 64 7 w .client (.write · [1, 2]) b) :
    exec 64 7 w (.client, .write [1, 2]) () _ := ⟨b, h, rfl⟩
  have hcall {w : Tunnel} {b : ByteNet} (h : Calls 64 7 w .server (.read · (32 * 1024)) b) :
    exec 64 7 w (.server, .read (32 * 1024)) () _ := ⟨b, h, rfl⟩
  have hgot {w : Tunnel} (hidle : (w.app 7 .server).reader = .idle)
      (hdata : (w.app 7 .server).got.drop (w.seen .server) = [1, 2]) :
    exec 64 7 w (.server, .readDone) (.ok [1, 2]) w := ⟨hidle, by rw [hdata], rfl⟩
  have hgive (w : Tunnel) : exec 64 7 w (.server, .socketWrite [1, 2]) (.ok ()) _ := rfl
  have hstart : Run (exec 64 7) (Besides 64 7) (Co.par (relay .client) (relay .server))
      (begin (sampleLinks.get rfl)) _ _ := Run.refl
  have hturn := hstart.own (.left (.left .iter))
  have htaken := hturn.own (.left (.left (.call (hread _))))
  have hpassed := htaken.own (.left (.left (.call (hwrite ⟨0, rfl, rfl⟩))))
  have hcarried := ((((hpassed.env ⟨.act .client (.takeChunk 0), _, trivial, trivial, rfl, rfl⟩).env
    ⟨.act .client (.sendChunk 0), _, trivial, trivial, rfl, rfl⟩).env
    ⟨.flush .client, _, trivial, trivial, rfl, rfl⟩).env
    ⟨.recv .server 100, _, trivial, trivial, rfl, rfl⟩).env
    ⟨.turn .server 0, _, trivial, trivial, rfl, rfl⟩
  have hturn' := hcarried.own (.right (.left .iter))
  have hcalled := hturn'.own (.right (.left (.call (hcall ⟨0, rfl, rfl⟩))))
  have hreceived := ((hcalled.env ⟨.act .server (.receive 0), _, trivial, trivial, rfl, rfl⟩).env
    ⟨.act .server (.checkWindow 0), _, trivial, trivial, rfl, rfl⟩).env
    ⟨.act .server (.sendWindow 0), _, trivial, trivial, rfl, rfl⟩
  have hdone := hreceived.own (.right (.left (.call (hgot rfl rfl))))
  have hrun := hdone.own (.right (.left (.call (hgive _))))
  exact ⟨_, _, hrun, rfl,
    (tunnel_integrity _ _ 0 0 hb (fun z => by cases z <;> rfl) hrun .client).1⟩

end Tunnel

end Shine
