import Shine.Inbound.Association
import Shine.Lib.Ends

/-!
# The life of a SOCKS5 UDP association (`Socks5Inbound::handleClient`)

After the reply to UDP ASSOCIATE the handler waits for a first datagram, spawns a coroutine that
watches the control connection, and passes the request on with an `InjectedStream` in front of
the `Socks5UdpStream`. The outbound relays with two loops, of which the one that reads from the
client closes the remote end when it has ended, and the other the client's stream. The handler
then closes the control connection. Each of these coroutines goes on in pieces, in any order.

The relay is that of `DirectOutbound::handleUdp` and of `ShineOutbound::handle`. They differ in
two points. The direct outbound goes on when it could not send a datagram. The shine outbound
calls functions of a link that need not return: `waitHandshake`, and `enqueueFrame` in
`openSession` and in `Session::sendTo`, which is suspended as long as `write_chan_` is full.

- `association_released_iff`: when the control connection has ended and no call to a link is
  suspended, every run of the association's coroutines ends. It gives back both of its sockets, in
  whatever order they go on, exactly if its first datagram has arrived; else the handler waits for
  one with both open. The handler looks at the control connection only after that.
- `association_in_order`: what the relay has received is, from the start and in order, what the
  stream accepts of all that has arrived, with the first datagram and nothing twice.
-/

namespace Shine

/-- Where the handler stands. -/
inductive AssociatePc where
  /-- It waits for the first datagram. -/
  | first
  /-- It is about to call `on_req_`. -/
  | dispatch
  /-- The outbound relays. -/
  | serving
  /-- `on_req_` has returned. -/
  | closing
  | returned
  deriving DecidableEq

/-- Where the coroutine that watches the control connection stands. -/
inductive MonitorPc where
  | none
  | reading
  /-- The read has completed. -/
  | closing
  | done
  deriving DecidableEq

/-- Where a loop of the relay stands. -/
inductive LoopPc where
  | idle
  | receiving
  | holding (d : Datagram)
  | ended

/-- The outbounds that relay datagrams. -/
inductive UdpOutbound where
  | direct
  | shine
  deriving DecidableEq

/-- An association and the coroutines that use it. -/
structure UdpAssociation where
  stream : Socks5UdpStream
  /-- The control connection has not been closed here. -/
  tsOpen : Bool
  /-- The client has closed the control connection, or sent something on it. -/
  controlEnded : Bool
  handler : AssociatePc
  monitor : MonitorPc
  /-- The datagram in the `InjectedStream`. -/
  injected : Option Datagram
  /-- `read_client`. -/
  client : LoopPc
  /-- `read_remote`. -/
  remote : LoopPc
  remoteOpen : Bool
  outbound : UdpOutbound
  /-- Calls of the shine outbound to its link do not return. -/
  suspended : Bool
  /-- All that has arrived on the UDP socket. -/
  arrived : List (Endpoint × Bytes)
  /-- The datagrams that `read_client` has received. -/
  passed : List Datagram

/-! ## One call of `receiveFrom` -/

namespace Socks5UdpStream

variable {w w' : Socks5UdpStream} {d : Datagram}

/-- The client after the datagrams `xs`. -/
def latchAll (clientEp : Endpoint) (xs : List (Endpoint × Bytes)) : Endpoint :=
  xs.foldl (fun ep x => latch ep x.1) clientEp

theorem accepted_append (clientEp : Endpoint) (xs ys : List (Endpoint × Bytes)) :
    accepted clientEp (xs ++ ys) =
      accepted clientEp xs ++ accepted (latchAll clientEp xs) ys := by
  induction xs generalizing clientEp with
  | nil => rfl
  | cons x xs ih =>
    obtain ⟨sender, packet⟩ := x
    rw [List.cons_append, accepted, accepted, ih]
    change (if _ then _ ++ accepted (latchAll (latch clientEp sender) xs) ys else _) =
      _ ++ accepted (latchAll (latch clientEp sender) xs) ys
    split_ifs
    · rfl
    · cases parseDatagram (packet.take 65536) <;> rfl

/-- A call that returns has used up a part of what has arrived: some datagrams that are not
accepted, and one that is. -/
theorem go_eq_ok {clientEp : Endpoint} {xs : List (Endpoint × Bytes)}
    (h : receiveFrom.go w clientEp xs = some (.ok d, w')) :
    ∃ used, used ≠ [] ∧ xs = used ++ w'.arriving ∧ w'.clientEp = latchAll clientEp used ∧
      accepted clientEp used = [(w'.clientEp, d)] ∧ w'.isOpen = w.isOpen := by
  induction xs generalizing clientEp with
  | nil => cases h
  | cons x rest ih =>
    obtain ⟨sender, packet⟩ := x
    rw [go_cons] at h
    by_cases hsender : sender = latch clientEp sender
    · rw [if_neg (not_not.mpr hsender)] at h
      cases hparse : parseDatagram (packet.take 65536) with
      | none =>
        rw [hparse] at h
        obtain ⟨used, -, rfl, hep, hacc, hopen⟩ := ih h
        refine ⟨(sender, packet) :: used, List.cons_ne_nil _ _, rfl, hep, ?_, hopen⟩
        rw [accepted, if_neg (not_not.mpr hsender), hparse]
        exact hacc
      | some d' =>
        rw [hparse] at h
        cases h
        refine ⟨[(sender, packet)], List.cons_ne_nil _ _, rfl, rfl, ?_, rfl⟩
        rw [accepted, if_neg (not_not.mpr hsender), hparse]
        simp only [accepted, ← hsender]
    · rw [if_pos hsender] at h
      obtain ⟨used, -, rfl, hep, hacc, hopen⟩ := ih h
      refine ⟨(sender, packet) :: used, List.cons_ne_nil _ _, rfl, hep, ?_, hopen⟩
      rw [accepted, if_pos hsender]
      exact hacc

theorem receiveFrom_eq_ok (h : w.receiveFrom = some (.ok d, w')) :
    ∃ used, used ≠ [] ∧ w.arriving = used ++ w'.arriving ∧
      w'.clientEp = latchAll w.clientEp used ∧ accepted w.clientEp used = [(w'.clientEp, d)] ∧
      w'.isOpen = w.isOpen := by
  unfold receiveFrom at h
  split_ifs at h
  · cases h
  · exact go_eq_ok h

theorem receiveFrom_isOpen (h : w.receiveFrom = some (.ok d, w')) : w'.isOpen = w.isOpen := by
  obtain ⟨_, -, -, -, -, hopen⟩ := receiveFrom_eq_ok h
  exact hopen

theorem length_receiveFrom (h : w.receiveFrom = some (.ok d, w')) :
    w'.arriving.length < w.arriving.length := by
  obtain ⟨used, hne, harr, -⟩ := receiveFrom_eq_ok h
  have hpos := List.length_pos_iff.mpr hne
  rw [harr, List.length_append]
  omega

/-- A call on an open stream returns as soon as there is something to accept. -/
theorem exists_receiveFrom (hopen : w.isOpen = true) (h : accepted w.clientEp w.arriving ≠ []) :
    ∃ d w', w.receiveFrom = some (.ok d, w') := by
  have hcall : w.receiveFrom = receiveFrom.go w w.clientEp w.arriving := by
    simp [receiveFrom, hopen]
  obtain ⟨-, hnil⟩ | ⟨d, w', hsome, -⟩ := go_accepted w w.clientEp w.arriving
  · exact absurd hnil h
  · exact ⟨d, w', hcall.trans hsome⟩

theorem sendTo_eq_ok {data : Bytes} {target : Address} (h : w.sendTo data target = .ok w') :
    w'.isOpen = w.isOpen ∧ w'.arriving = w.arriving ∧ w'.clientEp = w.clientEp := by
  unfold sendTo at h
  split_ifs at h
  cases h
  exact ⟨rfl, rfl, rfl⟩

end Socks5UdpStream

namespace UdpAssociation

open Socks5UdpStream

/-- After the reply to UDP ASSOCIATE. -/
def start (outbound : UdpOutbound) : UdpAssociation where
  stream := fresh []
  tsOpen := true
  controlEnded := false
  handler := .first
  monitor := .none
  injected := none
  client := .idle
  remote := .idle
  remoteOpen := true
  outbound := outbound
  suspended := false
  arrived := []
  passed := []

/-- What can happen. -/
inductive Event where
  | arrive (sender : Endpoint) (packet : Bytes)
  | controlEnds
  /-- A receive on the UDP socket fails. -/
  | socketError
  /-- The remote end has a datagram. -/
  | remoteArrives (d : Datagram)
  /-- A receive on the remote end fails. -/
  | remoteFails
  /-- Calls to the link are suspended from now on. -/
  | suspend
  /-- They return again. -/
  | resume
  /-- The first datagram is received, and the monitor spawned. -/
  | first
  /-- `on_req_` returns without relaying: there is no route, or the outbound fails or blocks. -/
  | decline
  | relay
  /-- `read_client` receives a datagram. -/
  | take
  /-- `read_client` passes its datagram on. -/
  | forward (ok : Bool)
  /-- `read_client` finds the stream closed. -/
  | clientOver
  /-- `read_remote` passes its datagram on. -/
  | reply (ok : Bool)
  /-- `read_remote` finds the remote end closed. -/
  | remoteOver
  /-- The two loops have ended. -/
  | join
  | closeControl
  | monitorRead
  | monitorClose

/-- The events that are steps of the coroutines here. -/
def Event.own : Event → Bool
  | .arrive .. | .controlEnds | .socketError | .remoteArrives _ | .remoteFails | .suspend
  | .resume => false
  | _ => true

/-- `Socks5UdpStream::close`. -/
def closeStream (s : UdpAssociation) : UdpAssociation :=
  { s with stream := { s.stream with isOpen := false }, tsOpen := false }

/-- `read_client` ends. -/
def endClient (s : UdpAssociation) : UdpAssociation :=
  { s with client := .ended, remoteOpen := false }

/-- `read_remote` ends. -/
def endRemote (s : UdpAssociation) : UdpAssociation := { s.closeStream with remote := .ended }

/-- One step. -/
def step (s : UdpAssociation) : Event → Option UdpAssociation
  | .arrive sender packet =>
    if s.stream.isOpen then some
      { s with
        stream := { s.stream with arriving := s.stream.arriving ++ [(sender, packet)] }
        arrived := s.arrived ++ [(sender, packet)] }
    else none
  | .controlEnds => some { s with controlEnded := true }
  | .socketError =>
    if !s.stream.isOpen then none
    else match s.handler, s.client, s.injected with
      -- the handler returns, and with it go the sockets
      | .first, _, _ => some { s.closeStream with handler := .returned }
      | _, .receiving, none => some s.endClient
      | _, _, _ => none
  | .remoteArrives d =>
    match s.remote with
    | .receiving => if s.remoteOpen then some { s with remote := .holding d } else none
    | _ => none
  | .remoteFails =>
    match s.remote with
    | .receiving => some s.endRemote
    | _ => none
  | .suspend => if s.outbound = .shine then some { s with suspended := true } else none
  | .resume => some { s with suspended := false }
  | .first =>
    match s.handler, s.stream.receiveFrom with
    | .first, some (.ok d, stream) => some
      { s with stream := stream, injected := some d, monitor := .reading, handler := .dispatch }
    | _, _ => none
  | .decline =>
    if s.handler = .dispatch ∧ s.suspended = false then some { s with handler := .closing }
    else none
  | .relay =>
    if s.handler = .dispatch ∧ s.suspended = false then some
      { s with handler := .serving, client := .receiving, remote := .receiving }
    else none
  | .take =>
    match s.client, s.injected, s.stream.receiveFrom with
    | .receiving, some d, _ => some
      { s with injected := none, client := .holding d, passed := s.passed ++ [d] }
    | .receiving, none, some (.ok d, stream) => some
      { s with stream := stream, client := .holding d, passed := s.passed ++ [d] }
    | _, _, _ => none
  | .forward ok =>
    match s.client with
    | .holding _ =>
      if s.suspended then none
      else if !ok && s.outbound = .shine then some s.endClient
      else some { s with client := .receiving }
    | _ => none
  | .clientOver =>
    match s.client, s.injected with
    | .receiving, none => if s.stream.isOpen then none else some s.endClient
    | _, _ => none
  | .reply ok =>
    match s.remote with
    | .holding (data, target) =>
      match s.stream.sendTo data target with
      | .ok stream => if ok then some { s with stream := stream, remote := .receiving }
        else some s.endRemote
      | .error _ => some s.endRemote
    | _ => none
  | .remoteOver =>
    match s.remote with
    | .receiving => if s.remoteOpen then none else some s.endRemote
    | _ => none
  | .join =>
    match s.handler, s.client, s.remote with
    | .serving, .ended, .ended => some { s with handler := .closing }
    | _, _, _ => none
  | .closeControl =>
    if s.handler = .closing then some { s with tsOpen := false, handler := .returned } else none
  | .monitorRead =>
    if s.monitor = .reading ∧ (s.controlEnded = true ∨ s.tsOpen = false) then some
      { s with monitor := .closing }
    else none
  | .monitorClose =>
    if s.monitor = .closing then some { s.closeStream with monitor := .done } else none

/-- All runs. -/
def system : Lts UdpAssociation Event := ⟨step⟩

/-- The steps of the coroutines alone. -/
def ownSteps : Lts UdpAssociation Event := ⟨fun s e => if e.own then s.step e else none⟩

/-- Both sockets have been closed, and the handler has returned. -/
structure Released (s : UdpAssociation) : Prop where
  stream : s.stream.isOpen = false
  control : s.tsOpen = false
  handler : s.handler = .returned

/-- The handler waits for the first datagram, with both sockets open. -/
structure Waiting (s : UdpAssociation) : Prop where
  handler : s.handler = .first
  stream : s.stream.isOpen = true
  control : s.tsOpen = true

/-- The first datagram has been received, or has arrived. -/
def Begun (s : UdpAssociation) : Prop :=
  s.handler ≠ .first ∨ accepted s.stream.clientEp s.stream.arriving ≠ []

/-! ## What a step does -/

/-- The ways to go on, with what each needs. -/
inductive Moves (s : UdpAssociation) : Event → UdpAssociation → Prop where
  | arrive {sender : Endpoint} {packet : Bytes} (hopen : s.stream.isOpen = true) :
    Moves s (.arrive sender packet)
      { s with
        stream := { s.stream with arriving := s.stream.arriving ++ [(sender, packet)] }
        arrived := s.arrived ++ [(sender, packet)] }
  | controlEnds : Moves s .controlEnds { s with controlEnded := true }
  | firstError (hh : s.handler = .first) :
    Moves s .socketError { s.closeStream with handler := .returned }
  | clientError (hh : s.handler ≠ .first) (hc : s.client = .receiving) :
    Moves s .socketError s.endClient
  | remoteArrives {d : Datagram} (hr : s.remote = .receiving) :
    Moves s (.remoteArrives d) { s with remote := .holding d }
  | remoteFails (hr : s.remote = .receiving) : Moves s .remoteFails s.endRemote
  | suspend (ho : s.outbound = .shine) : Moves s .suspend { s with suspended := true }
  | resume : Moves s .resume { s with suspended := false }
  | first {d : Datagram} {stream : Socks5UdpStream} (hh : s.handler = .first)
    (hd : s.stream.receiveFrom = some (.ok d, stream)) :
    Moves s .first
      { s with stream := stream, injected := some d, monitor := .reading, handler := .dispatch }
  | decline (hh : s.handler = .dispatch) : Moves s .decline { s with handler := .closing }
  | relay (hh : s.handler = .dispatch) :
    Moves s .relay { s with handler := .serving, client := .receiving, remote := .receiving }
  | takeInjected {d : Datagram} (hc : s.client = .receiving) (hi : s.injected = some d) :
    Moves s .take { s with injected := none, client := .holding d, passed := s.passed ++ [d] }
  | take {d : Datagram} {stream : Socks5UdpStream} (hc : s.client = .receiving)
    (hi : s.injected = none) (hd : s.stream.receiveFrom = some (.ok d, stream)) :
    Moves s .take { s with stream := stream, client := .holding d, passed := s.passed ++ [d] }
  | forwardFails {ok : Bool} {d : Datagram} (hc : s.client = .holding d) :
    Moves s (.forward ok) s.endClient
  | forward {ok : Bool} {d : Datagram} (hc : s.client = .holding d) :
    Moves s (.forward ok) { s with client := .receiving }
  | clientOver (hc : s.client = .receiving) : Moves s .clientOver s.endClient
  | replyFails {ok : Bool} {d : Datagram} (hr : s.remote = .holding d) :
    Moves s (.reply ok) s.endRemote
  | reply {ok : Bool} {d : Datagram} {stream : Socks5UdpStream} (hr : s.remote = .holding d)
    (hs : s.stream.sendTo d.1 d.2 = .ok stream) :
    Moves s (.reply ok) { s with stream := stream, remote := .receiving }
  | remoteOver (hr : s.remote = .receiving) : Moves s .remoteOver s.endRemote
  | join (hh : s.handler = .serving) (hc : s.client = .ended) (hr : s.remote = .ended) :
    Moves s .join { s with handler := .closing }
  | closeControl (hh : s.handler = .closing) :
    Moves s .closeControl { s with tsOpen := false, handler := .returned }
  | monitorRead (hm : s.monitor = .reading) : Moves s .monitorRead { s with monitor := .closing }
  | monitorClose (hm : s.monitor = .closing) :
    Moves s .monitorClose { s.closeStream with monitor := .done }

theorem moves_of_step {s t : UdpAssociation} {e : Event} (h : s.step e = some t) :
    Moves s e t := by
  cases e <;> simp only [step] at h
  case arrive =>
    split_ifs at h with hopen
    cases h
    exact .arrive hopen
  case controlEnds =>
    cases h
    exact .controlEnds
  case socketError =>
    split_ifs at h
    split at h <;> cases h
    · exact .firstError ‹_›
    · exact .clientError ‹_› ‹_›
  case remoteArrives =>
    split at h
    · split_ifs at h
      cases h
      exact .remoteArrives ‹_›
    · cases h
  case remoteFails =>
    split at h <;> cases h
    exact .remoteFails ‹_›
  case suspend =>
    split_ifs at h with ho
    cases h
    exact .suspend ho
  case resume =>
    cases h
    exact .resume
  case first =>
    split at h <;> cases h
    exact .first ‹_› ‹_›
  case decline =>
    split_ifs at h with hh
    cases h
    exact .decline hh.1
  case relay =>
    split_ifs at h with hh
    cases h
    exact .relay hh.1
  case take =>
    split at h <;> cases h
    · exact .takeInjected ‹_› ‹_›
    · exact .take ‹_› ‹_› ‹_›
  case forward =>
    split at h
    · split_ifs at h <;> cases h
      · exact .forwardFails ‹_›
      · exact .forward ‹_›
    · cases h
  case clientOver =>
    split at h
    · split_ifs at h
      cases h
      exact .clientOver ‹_›
    · cases h
  case reply =>
    split at h
    · split at h
      · split_ifs at h <;> cases h
        · exact .reply ‹_› ‹_›
        · exact .replyFails ‹_›
      · cases h
        exact .replyFails ‹_›
    · cases h
  case remoteOver =>
    split at h
    · split_ifs at h
      cases h
      exact .remoteOver ‹_›
    · cases h
  case join =>
    split at h <;> cases h
    exact .join ‹_› ‹_› ‹_›
  case closeControl =>
    split_ifs at h with hh
    cases h
    exact .closeControl hh
  case monitorRead =>
    split_ifs at h with hm
    cases h
    exact .monitorRead hm.1
  case monitorClose =>
    split_ifs at h with hm
    cases h
    exact .monitorClose hm

/-! ## Who is where -/

/-- A loop is not running. -/
def LoopPc.Off (pc : LoopPc) : Prop := pc = .idle ∨ pc = .ended

/-- What holds in every state. -/
structure Inv (s : UdpAssociation) : Prop where
  first : s.handler = .first →
    s.monitor = .none ∧ s.stream.isOpen = true ∧ s.tsOpen = true
  unmonitored : s.monitor = .none → s.handler = .first ∨ s.Released
  off : s.handler ≠ .serving → LoopPc.Off s.client ∧ LoopPc.Off s.remote
  on : s.handler = .serving → s.client ≠ .idle ∧ s.remote ≠ .idle
  ended : s.client = .ended → s.remoteOpen = false
  returned : s.handler = .returned → s.tsOpen = false
  done : s.monitor = .done → s.stream.isOpen = false

theorem Inv.start (outbound : UdpOutbound) : Inv (start outbound) where
  first _ := ⟨rfl, rfl, rfl⟩
  unmonitored _ := .inl rfl
  off _ := ⟨.inl rfl, .inl rfl⟩
  on := nofun
  ended := nofun
  returned := nofun
  done := nofun

section Inv

variable {s t : UdpAssociation} {e : Event}

theorem Inv.serving (h : Inv s) (hon : ¬ LoopPc.Off s.client ∨ ¬ LoopPc.Off s.remote) :
    s.handler = .serving := by
  by_contra hh
  obtain ⟨hc, hr⟩ := h.off hh
  exact hon.elim (fun hn => hn hc) fun hn => hn hr

/-- While the handler is past the first datagram and has not returned, there is a monitor. -/
theorem Inv.monitored (h : Inv s) (hfirst : s.handler ≠ .first) (hret : s.handler ≠ .returned) :
    s.monitor ≠ .none := by
  intro hn
  obtain hf | hrel := h.unmonitored hn
  · exact hfirst hf
  · exact hret hrel.handler

theorem LoopPc.not_off_receiving {pc : LoopPc} (h : pc = .receiving) : ¬ LoopPc.Off pc := by
  simp [LoopPc.Off, h]

theorem LoopPc.not_off_holding {pc : LoopPc} {d : Datagram} (h : pc = .holding d) :
    ¬ LoopPc.Off pc := by
  simp [LoopPc.Off, h]

/-- The relay goes on. -/
theorem Inv.relay (h : Inv s) (hh : s.handler = .serving) (hh' : t.handler = .serving)
    (hmon : t.monitor = s.monitor) (hopen : t.stream.isOpen = true → s.stream.isOpen = true)
    (hc : t.client ≠ .idle) (hr : t.remote ≠ .idle)
    (hended : t.client = .ended → t.remoteOpen = false) : Inv t where
  first hf := by
    rw [hh'] at hf
    cases hf
  unmonitored hn := (h.monitored (by simp [hh]) (by simp [hh]) (hmon ▸ hn)).elim
  off hoff := absurd hh' hoff
  on _ := ⟨hc, hr⟩
  ended := hended
  returned hf := by
    rw [hh'] at hf
    cases hf
  done hd := by
    have hclosed := h.done (hmon ▸ hd)
    by_contra ho
    rw [hopen (Bool.not_eq_false _ ▸ ho)] at hclosed
    cases hclosed

/-- `read_client` moves, or ends. -/
theorem Inv.client (h : Inv s) (hon : ¬ LoopPc.Off s.client) {stream : Socks5UdpStream}
    {injected : Option Datagram} {pc : LoopPc} {remoteOpen : Bool} {passed : List Datagram}
    (hopen : stream.isOpen = s.stream.isOpen) (hpc : pc ≠ .idle)
    (hended : pc = .ended → remoteOpen = false) : Inv
    { s with
      stream := stream, injected := injected, client := pc, remoteOpen := remoteOpen
      passed := passed } := by
  have hh := h.serving (.inl hon)
  exact h.relay hh hh rfl (fun ho => hopen ▸ ho) hpc (h.on hh).2 hended

/-- `read_remote` moves. -/
theorem Inv.remote (h : Inv s) (hon : ¬ LoopPc.Off s.remote) {stream : Socks5UdpStream}
    {pc : LoopPc} (hopen : stream.isOpen = s.stream.isOpen) (hpc : pc ≠ .idle) :
    Inv { s with stream := stream, remote := pc } := by
  have hh := h.serving (.inr hon)
  exact h.relay hh hh rfl (fun ho => hopen ▸ ho) (h.on hh).1 hpc h.ended

/-- `read_remote` ends. -/
theorem Inv.endRemote (h : Inv s) (hon : ¬ LoopPc.Off s.remote) : Inv s.endRemote := by
  have hh := h.serving (.inr hon)
  exact h.relay hh hh rfl nofun (h.on hh).1 nofun h.ended

/-- **Every step keeps the invariant.** -/
theorem Inv.step (h : Inv s) (hm : Moves s e t) : Inv t := by
  cases hm with
  | arrive | controlEnds | suspend | resume =>
    refine ⟨h.first, fun hn => ?_, h.off, h.on, h.ended, h.returned, h.done⟩
    exact (h.unmonitored hn).imp id fun hr => ⟨hr.stream, hr.control, hr.handler⟩
  | firstError hh =>
    have hoff := h.off (by simp [hh])
    exact ⟨nofun, fun _ => .inr ⟨rfl, rfl, rfl⟩, fun _ => hoff, nofun, h.ended, fun _ => rfl,
      fun _ => rfl⟩
  | remoteArrives hr => exact h.remote (LoopPc.not_off_receiving hr) rfl nofun
  | first hh hd =>
    have hoff := h.off (by simp [hh])
    exact ⟨nofun, nofun, fun _ => hoff, nofun, h.ended, nofun, nofun⟩
  | decline hh =>
    have hoff := h.off (by simp [hh])
    have hmon := h.monitored (by simp [hh]) (by simp [hh])
    exact ⟨nofun, fun hn => absurd hn hmon, fun _ => hoff, nofun, h.ended, nofun, h.done⟩
  | relay hh =>
    have hmon := h.monitored (by simp [hh]) (by simp [hh])
    exact ⟨nofun, fun hn => absurd hn hmon, fun hoff => absurd rfl hoff,
      fun _ => ⟨nofun, nofun⟩, nofun, nofun, h.done⟩
  | takeInjected hc _ => exact h.client (LoopPc.not_off_receiving hc) rfl nofun nofun
  | take hc _ hd =>
    exact h.client (LoopPc.not_off_receiving hc) (receiveFrom_isOpen hd) nofun nofun
  | forwardFails hc => exact h.client (LoopPc.not_off_holding hc) rfl nofun fun _ => rfl
  | forward hc => exact h.client (LoopPc.not_off_holding hc) rfl nofun nofun
  | clientError _ hc | clientOver hc =>
    exact h.client (LoopPc.not_off_receiving hc) rfl nofun fun _ => rfl
  | replyFails hr => exact h.endRemote (LoopPc.not_off_holding hr)
  | reply hr hs => exact h.remote (LoopPc.not_off_holding hr) (sendTo_eq_ok hs).1 nofun
  | remoteFails hr | remoteOver hr => exact h.endRemote (LoopPc.not_off_receiving hr)
  | join hh hc hr =>
    have hmon := h.monitored (by simp [hh]) (by simp [hh])
    exact ⟨nofun, fun hn => absurd hn hmon, fun _ => ⟨.inr hc, .inr hr⟩, nofun, h.ended, nofun,
      h.done⟩
  | closeControl hh =>
    have hoff := h.off (by simp [hh])
    have hmon := h.monitored (by simp [hh]) (by simp [hh])
    exact ⟨nofun, fun hn => absurd hn hmon, fun _ => hoff, nofun, h.ended, fun _ => rfl, h.done⟩
  | monitorRead hm =>
    refine ⟨fun hf => ?_, nofun, h.off, h.on, h.ended, h.returned, nofun⟩
    cases hm.symm.trans (h.first hf).1
  | monitorClose hm =>
    refine ⟨fun hf => ?_, nofun, h.off, h.on, h.ended, fun _ => rfl, fun _ => rfl⟩
    cases hm.symm.trans (h.first hf).1

end Inv

theorem inv_reach {outbound : UdpOutbound} {s : UdpAssociation}
    (h : system.Reach Lts.Free (start outbound) s) : Inv s :=
  h.invariant (.start outbound) fun _ _ _ hi _ hstep => hi.step (moves_of_step hstep)

/-! ## The end -/

/-- What is left to do for the coroutines. -/
def rank (s : UdpAssociation) : Nat :=
  (match s.handler with
    | .first => 16
    | .dispatch => 8
    | .serving => 4
    | .closing => 1
    | .returned => 0) +
  (match s.monitor with
    | .none | .done => 0
    | .reading => 2
    | .closing => 1) +
  loop s.client + loop s.remote + 2 * s.stream.arriving.length + 2 * s.injected.toList.length
where
  loop : LoopPc → Nat
    | .idle | .ended => 0
    | .receiving => 1
    | .holding _ => 2

section End

variable {s t : UdpAssociation} {e : Event}

/-- **The coroutines come to an end**, unless something else happens. -/
theorem rank_lt (hm : Moves s e t) (hown : e.own = true) : t.rank < s.rank := by
  cases hm with
  | arrive | controlEnds | firstError | clientError | remoteArrives | remoteFails | suspend
  | resume => cases hown
  | first hh hd =>
    have hlen := length_receiveFrom hd
    simp only [rank, hh, Option.toList_some, List.length_singleton]
    omega
  | decline hh => simp [rank, hh]
  | relay hh => simp [rank, rank.loop, hh]; omega
  | takeInjected hc hi =>
    simp only [rank, rank.loop, hc, hi, Option.toList_some, Option.toList_none, List.length_singleton,
      List.length_nil]
    omega
  | take hc hi hd =>
    have hlen := length_receiveFrom hd
    simp only [rank, rank.loop, hc, hi]
    omega
  | forwardFails hc | clientOver hc => simp [rank, rank.loop, endClient, hc]
  | forward hc => simp [rank, rank.loop, hc]
  | replyFails hr | remoteOver hr => simp [rank, rank.loop, endRemote, closeStream, hr]
  | reply hr hs => simp [rank, rank.loop, hr, (sendTo_eq_ok hs).2.1]
  | join hh | closeControl hh => simp [rank, hh]
  | monitorRead hm => simp [rank, hm]
  | monitorClose hm => simp [rank, closeStream, hm]

theorem ownSteps_eq_some (h : ownSteps.step s e = some t) : e.own = true ∧ s.step e = some t := by
  simp only [ownSteps] at h
  split_ifs at h with hown
  exact ⟨hown, h⟩

theorem reach_of_ownSteps (h : ownSteps.Reach Lts.Free s t) : system.Reach Lts.Free s t := by
  induction h with
  | refl => exact .refl
  | tail _ _ hstep ih => exact ih.tail trivial (ownSteps_eq_some hstep).2

/-- The coroutines do not make the client come back, and do not suspend the calls to the link. -/
theorem outside_of_ownSteps (h : ownSteps.Reach Lts.Free s t) :
    t.controlEnded = s.controlEnded ∧ t.suspended = s.suspended := by
  refine h.invariant
    (P := fun t => t.controlEnded = s.controlEnded ∧ t.suspended = s.suspended) ⟨rfl, rfl⟩
    fun u e v hu _ hstep => ?_
  obtain ⟨hown, hstep⟩ := ownSteps_eq_some hstep
  cases moves_of_step hstep with
  | controlEnds | suspend | resume => cases hown
  | _ => exact hu

/-- The direct outbound makes no calls to a link. -/
theorem direct_not_suspended (h : system.Reach Lts.Free (start .direct) s) :
    s.suspended = false := by
  have hboth : s.outbound = .direct ∧ s.suspended = false := by
    refine h.invariant (P := fun s => s.outbound = .direct ∧ s.suspended = false) ⟨rfl, rfl⟩
      fun u e v hu _ hstep => ?_
    cases moves_of_step hstep with
    | suspend ho => cases hu.1.symm.trans ho
    | resume => exact ⟨hu.1, rfl⟩
    | _ => exact hu
  exact hboth.2

/-- Where the handler waits for the first datagram, the coroutines have nothing else to do. -/
theorem Inv.moves_of_first (h : Inv s) (hm : Moves s e t) (hown : e.own = true)
    (hh : s.handler = .first) : e = .first := by
  obtain ⟨hc, hr⟩ := h.off (by simp [hh])
  have hmon := (h.first hh).1
  cases hm with
  | arrive | controlEnds | firstError | clientError | remoteArrives | remoteFails | suspend
  | resume => cases hown
  | first => rfl
  | decline hh' | relay hh' | closeControl hh' | join hh' => cases hh.symm.trans hh'
  | takeInjected hc' | take hc' | clientOver hc' => exact absurd hc (LoopPc.not_off_receiving hc')
  | forwardFails hc' | forward hc' => exact absurd hc (LoopPc.not_off_holding hc')
  | replyFails hr' | reply hr' => exact absurd hr (LoopPc.not_off_holding hr')
  | remoteOver hr' => exact absurd hr (LoopPc.not_off_receiving hr')
  | monitorRead hm' | monitorClose hm' => cases hmon.symm.trans hm'

theorem Moves.handler_ne_first (hm : Moves s e t) (hh : s.handler ≠ .first) :
    t.handler ≠ .first := by
  cases hm <;> first | exact hh | exact nofun

theorem Inv.past_first (h : Inv s) (hm : Moves s e t) (hown : e.own = true) :
    t.handler ≠ .first := by
  by_cases hh : s.handler = .first
  · obtain rfl := h.moves_of_first hm hown hh
    cases hm
    exact nofun
  · exact hm.handler_ne_first hh

theorem Inv.waiting (h : Inv s) (hb : ¬ Begun s) : s.Waiting := by
  have hh : s.handler = .first := by
    by_contra hh
    exact hb (.inl hh)
  obtain ⟨-, hopen, hts⟩ := h.first hh
  exact ⟨hh, hopen, hts⟩

/-- While the handler waits for a datagram that has not arrived, nothing happens. -/
theorem Inv.stuck (h : Inv s) (hb : ¬ Begun s) : ownSteps.Stuck s := by
  intro e
  by_contra hstep
  obtain ⟨t, ht⟩ := Option.ne_none_iff_exists'.mp hstep
  obtain ⟨hown, hstep⟩ := ownSteps_eq_some ht
  have hm := moves_of_step hstep
  obtain rfl := h.moves_of_first hm hown (h.waiting hb).handler
  cases hm with
  | first _ hd =>
    obtain ⟨used, -, harr, -, hacc, -⟩ := receiveFrom_eq_ok hd
    refine hb (.inr ?_)
    rw [harr, accepted_append, hacc]
    exact List.cons_ne_nil _ _

/-- When the coroutines have come to an end after that, the relay has ended too. -/
theorem Inv.not_serving (h : Inv s) (hstuck : ∀ e, e.own = true → s.step e = none)
    (hcalls : s.suspended = false) (hclosed : s.stream.isOpen = false) :
    s.handler ≠ .serving := by
  intro hh
  obtain ⟨hc, hr⟩ := h.on hh
  have hclient : s.client = .ended := by
    cases hpc : s.client with
    | idle => exact absurd hpc hc
    | ended => rfl
    | holding d =>
      have hno := hstuck (.forward true) rfl
      simp [UdpAssociation.step, hpc, hcalls] at hno
    | receiving =>
      cases hi : s.injected with
      | none =>
        have hno := hstuck .clientOver rfl
        simp [UdpAssociation.step, hpc, hi, hclosed] at hno
      | some d =>
        have hno := hstuck .take rfl
        simp [UdpAssociation.step, hpc, hi] at hno
  have hremote : s.remote = .ended := by
    cases hpc : s.remote with
    | idle => exact absurd hpc hr
    | ended => rfl
    | holding d =>
      have hno := hstuck (.reply true) rfl
      simp [UdpAssociation.step, hpc, sendTo, hclosed] at hno
    | receiving =>
      have hno := hstuck .remoteOver rfl
      simp [UdpAssociation.step, hpc, h.ended hclient] at hno
  have hno := hstuck .join rfl
  simp [UdpAssociation.step, hh, hclient, hremote] at hno

/-- **Where the coroutines have come to an end**, the control connection has ended, no call to a
link is suspended and the handler does not wait for the first datagram, both sockets are
closed. -/
theorem Inv.released (h : Inv s) (hstuck : ∀ e, e.own = true → s.step e = none)
    (hcontrol : s.controlEnded = true) (hcalls : s.suspended = false)
    (hfirst : s.handler ≠ .first) : s.Released := by
  cases hmon : s.monitor with
  | none => exact (h.unmonitored hmon).resolve_left hfirst
  | reading =>
    have hno := hstuck .monitorRead rfl
    simp [UdpAssociation.step, hmon, hcontrol] at hno
  | closing =>
    have hno := hstuck .monitorClose rfl
    simp [UdpAssociation.step, hmon] at hno
  | done =>
    have hclosed := h.done hmon
    have hserving := h.not_serving hstuck hcalls hclosed
    have hret : s.handler = .returned := by
      cases hh : s.handler with
      | first => exact absurd hh hfirst
      | serving => exact absurd hh hserving
      | returned => rfl
      | dispatch =>
        have hno := hstuck .relay rfl
        simp [UdpAssociation.step, hh, hcalls] at hno
      | closing =>
        have hno := hstuck .closeControl rfl
        simp [UdpAssociation.step, hh] at hno
    exact ⟨hclosed, h.returned hret, hret⟩

/-- **The coroutines come to an end**: every run of them is finite, and `P` holds where it ends. -/
theorem ends_own {P : UdpAssociation → Prop}
    (hP : ∀ t, ownSteps.Reach Lts.Free s t → (∀ e, e.own = true → t.step e = none) → P t) :
    ownSteps.Ends Lts.Free P s := by
  refine Lts.ends_of_rank (J := fun t n => ownSteps.Reach Lts.Free s t ∧ t.rank = n)
    (fun t n e u ht _ hstep => ?_) (fun t n ht hrest => ?_) ⟨.refl, rfl⟩
  · obtain ⟨hown, hmove⟩ := ownSteps_eq_some hstep
    exact ⟨u.rank, ht.2 ▸ rank_lt (moves_of_step hmove) hown, ht.1.tail trivial hstep, rfl⟩
  · refine hP t ht.1 fun e hown => ?_
    have hno := hrest e trivial
    simpa [ownSteps, hown] using hno

/-- After an own step the handler does not wait for the first datagram; before one it does so
only where nothing has arrived. -/
theorem past_first_of_stuck (hinv : Inv s) (hb : Begun s) (hreach : ownSteps.Reach Lts.Free s t)
    (hstuck : ∀ e, e.own = true → t.step e = none) : t.handler ≠ .first := by
  have hpast : t = s ∨ t.handler ≠ .first := by
    have hkeep : Inv t ∧ (t = s ∨ t.handler ≠ .first) := by
      refine hreach.invariant (P := fun t => Inv t ∧ (t = s ∨ t.handler ≠ .first))
        ⟨hinv, .inl rfl⟩ fun u e v hu _ hstep => ?_
      obtain ⟨hown, hstep⟩ := ownSteps_eq_some hstep
      have hm := moves_of_step hstep
      exact ⟨hu.1.step hm, .inr (hu.1.past_first hm hown)⟩
    exact hkeep.2
  obtain rfl | hne := hpast
  · intro hh
    obtain ⟨d, w, hd⟩ := exists_receiveFrom (hinv.first hh).2.1 (hb.resolve_left (not_not.mpr hh))
    have hno := hstuck .first rfl
    simp [UdpAssociation.step, hh, hd] at hno
  · exact hne

end End

/-- **An association is released exactly if its first datagram has arrived.** When the client has
closed the control connection, or sent something on it, and nothing else happens, every run of the
coroutines is finite, provided that the calls of a shine outbound to its link return. All ends
have both sockets closed and the handler returned, exactly if the first datagram has been received
or has arrived. All have the handler waiting for it with both sockets open, exactly if not: it
watches the control connection only after that. -/
theorem association_released_iff {outbound : UdpOutbound} {s : UdpAssociation}
    (h : system.Reach Lts.Free (start outbound) s) (hcontrol : s.controlEnded = true)
    (hcalls : outbound = .shine → s.suspended = false) :
    (ownSteps.Ends Lts.Free Released s ↔ s.Begun) ∧
      (ownSteps.Ends Lts.Free Waiting s ↔ ¬ s.Begun) := by
  have hinv := inv_reach h
  have hfree : s.suspended = false := by
    cases outbound with
    | direct => exact direct_not_suspended h
    | shine => exact hcalls rfl
  have hreleased (hb : s.Begun) : ownSteps.Ends Lts.Free Released s := by
    refine ends_own fun t ht hstuck => ?_
    obtain ⟨hcontrol', hfree'⟩ := outside_of_ownSteps ht
    exact (inv_reach (h.trans (reach_of_ownSteps ht))).released hstuck (hcontrol'.trans hcontrol)
      (hfree'.trans hfree) (past_first_of_stuck hinv hb ht hstuck)
  have hwaiting (hb : ¬ s.Begun) : ownSteps.Ends Lts.Free Waiting s := by
    refine .intro (fun e t _ hstep => ?_) fun _ => hinv.waiting hb
    rw [hinv.stuck hb e] at hstep
    cases hstep
  refine ⟨⟨fun hends => ?_, hreleased⟩, fun hends hb => ?_, hwaiting⟩
  · by_contra hb
    obtain ⟨t, -, -, ht, hwait⟩ := (hends.and (hwaiting hb)).exists_rest
    cases ht.handler.symm.trans hwait.handler
  · obtain ⟨t, -, -, hwait, ht⟩ := (hends.and (hreleased hb)).exists_rest
    cases ht.handler.symm.trans hwait.handler

/-- A client that closes its control connection before it has sent a datagram. -/
theorem association_released_iff_unused : ∃ s : UdpAssociation,
    system.Reach Lts.Free (start .direct) s ∧ s.controlEnded = true ∧
      ownSteps.Ends Lts.Free Waiting s := by
  have hs : system.Reach Lts.Free (start .direct) _ := Lts.reach_of_exec [.controlEnds] rfl
  refine ⟨_, hs, rfl, (association_released_iff hs rfl nofun).2.mpr fun hbegun => ?_⟩
  exact hbegun.elim (fun hh => hh rfl) fun hacc => hacc rfl

/-! ## The datagrams -/

/-- What the relay has received, what it will receive first and what is there to accept make up
all that is accepted. -/
structure InOrder (s : UdpAssociation) : Prop where
  latch : latchAll s.stream.clientEp s.stream.arriving
    = latchAll (fresh []).clientEp s.arrived
  accepted : s.passed ++ s.injected.toList ++
      (accepted s.stream.clientEp s.stream.arriving).map (·.2)
    = (accepted (fresh []).clientEp s.arrived).map (·.2)
  first : s.handler = .first → s.injected = none

section InOrder

variable {s t : UdpAssociation} {e : Event}

theorem InOrder.start (outbound : UdpOutbound) : InOrder (start outbound) :=
  ⟨rfl, rfl, fun _ => rfl⟩

/-- Nothing happens to the datagrams. -/
theorem InOrder.keep (h : InOrder s) (hep : t.stream.clientEp = s.stream.clientEp)
    (harr : t.stream.arriving = s.stream.arriving) (harrived : t.arrived = s.arrived)
    (hpassed : t.passed = s.passed) (hinj : t.injected = s.injected)
    (hfirst : t.handler = .first → s.handler = .first) : InOrder t where
  latch := by rw [hep, harr, harrived, h.latch]
  accepted := by rw [hep, harr, harrived, hpassed, hinj, h.accepted]
  first hh := hinj.trans (h.first (hfirst hh))

theorem latchAll_append (clientEp : Endpoint) (xs ys : List (Endpoint × Bytes)) :
    latchAll clientEp (xs ++ ys) = latchAll (latchAll clientEp xs) ys :=
  List.foldl_append ..

theorem InOrder.arrive (h : InOrder s) (x : Endpoint × Bytes) : InOrder
    { s with
      stream := { s.stream with arriving := s.stream.arriving ++ [x] }
      arrived := s.arrived ++ [x] } where
  latch := by
    simp only [latchAll_append, h.latch]
  accepted := by
    simp only [accepted_append, List.map_append, h.latch, ← h.accepted, List.append_assoc]
  first := h.first

/-- A call of `receiveFrom` returns the next that is accepted. -/
theorem InOrder.receive (h : InOrder s) {d : Datagram} {w : Socks5UdpStream}
    (hd : s.stream.receiveFrom = some (.ok d, w)) :
    latchAll w.clientEp w.arriving = latchAll (fresh []).clientEp s.arrived ∧
    s.passed ++ s.injected.toList ++ d :: (Socks5UdpStream.accepted w.clientEp w.arriving).map (·.2)
      = (Socks5UdpStream.accepted (fresh []).clientEp s.arrived).map (·.2) := by
  obtain ⟨used, -, harr, hep, hacc, -⟩ := receiveFrom_eq_ok hd
  constructor
  · rw [hep, ← latchAll_append, ← harr, h.latch]
  · rw [← h.accepted, harr, accepted_append, hacc, ← hep]
    rfl

theorem InOrder.step (h : InOrder s) (hm : Moves s e t) : InOrder t := by
  cases hm with
  | arrive => exact h.arrive _
  | first hh hd =>
    obtain ⟨hlatch, hacc⟩ := h.receive hd
    refine ⟨hlatch, ?_, nofun⟩
    simpa [h.first hh] using hacc
  | takeInjected hc hi =>
    refine ⟨h.latch, ?_, fun _ => rfl⟩
    simpa [hi] using h.accepted
  | take hc hi hd =>
    obtain ⟨hlatch, hacc⟩ := h.receive hd
    refine ⟨hlatch, ?_, fun _ => hi⟩
    simpa [hi] using hacc
  | reply hr hs =>
    obtain ⟨-, harr, hep⟩ := sendTo_eq_ok hs
    exact h.keep hep harr rfl rfl rfl id
  | firstError | decline | relay | join | closeControl => exact h.keep rfl rfl rfl rfl rfl nofun
  | controlEnds | suspend | resume | clientError | remoteArrives | remoteFails | forwardFails
  | forward | clientOver | replyFails | remoteOver | monitorRead | monitorClose => exact h.keep rfl rfl rfl rfl rfl id

end InOrder

/-- **The relay gets what the association accepts**: at every time what `read_client` has received
is, from the start and in order, what the stream accepts of all that has arrived on its socket,
the datagram of the `InjectedStream` first; and where it waits on an open stream it has received
all of that. -/
theorem association_in_order {outbound : UdpOutbound} {s : UdpAssociation}
    (h : system.Reach Lts.Free (start outbound) s) :
    s.passed <+: (accepted (fresh []).clientEp s.arrived).map (·.2) ∧
    (s.client = .receiving → s.stream.isOpen = true → s.step .take = none →
      s.passed = (accepted (fresh []).clientEp s.arrived).map (·.2)) := by
  have horder : InOrder s := h.invariant (.start outbound) fun _ _ _ hi _ hstep =>
    hi.step (moves_of_step hstep)
  refine ⟨⟨_, by rw [← horder.accepted, List.append_assoc]⟩, fun hc hopen htake => ?_⟩
  have hinj : s.injected = none := by
    by_contra hi
    obtain ⟨d, hd⟩ := Option.ne_none_iff_exists'.mp hi
    simp [step, hc, hd] at htake
  have hacc : accepted s.stream.clientEp s.stream.arriving = [] := by
    by_contra hne
    obtain ⟨d, w, hd⟩ := exists_receiveFrom hopen hne
    simp [step, hc, hinj, hd] at htake
  have hall := horder.accepted
  rw [hinj, hacc] at hall
  simpa using hall

/-- A client's query, received first by the handler and then by the relay. -/
theorem association_in_order_query : ∃ s : UdpAssociation,
    system.Reach Lts.Free (start .direct) s ∧ s.passed = [([9], .ipv4 ⟨[1, 2, 3, 4], rfl⟩ 53)] ∧
      s.passed <+: (accepted (fresh []).clientEp s.arrived).map (·.2) := by
  have hs : system.Reach Lts.Free (start .direct) _ := Lts.reach_of_exec
    [.arrive (.v4 ⟨[7, 7, 7, 7], rfl⟩ 9000) query, .first, .relay, .take] rfl
  exact ⟨_, hs, rfl, (association_in_order hs).1⟩

end UdpAssociation

end Shine
