import Shine.Inbound.Undisturbed
import Shine.Outbound.Handle

/-!
# Relaying datagrams over a link

A client sends datagrams on a UDP session; the handler of the shine inbound takes the first
one out of the session to learn the target of the request, puts it into an
`InjectedStream`, and the outbound receives from that stream. On the way a datagram can be
lost: a link fails or is closed, a frame is beyond the limit of the reader, `udp_inbox_`
is full or closed, the session has ended.

`udp_relay`: in every run, with anything else going on on both links, what the outbound has
received is an in-order subsequence of what was sent, with payload and address unchanged,
and the target of the request is the address of the first of them.
-/

namespace Shine

/-- The session that a datagram is for. -/
def ShineFrame.udpSid : ShineFrame → Option UInt64
  | .udpData sid _ _ => some sid
  | _ => none

/-- Where the handler of the session, or the outbound that it has called, stands. -/
inductive RelayPc where
  /-- The session has not been accepted yet. -/
  | unborn
  /-- The handler calls `receiveFrom` for the first datagram. -/
  | first
  /-- The handler waits in `async_receive`. -/
  | firstWaits
  /-- The request has been passed on; the outbound may call `receiveFrom`. -/
  | serving
  /-- The outbound waits in `async_receive`. -/
  | servingWaits
  /-- The handler has returned without a request. -/
  | ended
  deriving DecidableEq

/-- The links of both ends, how many frames of the client's the server has read, the
session object that the server has accepted and its handler, and what has been sent and
received so far. The datagram in the `InjectedStream` is in `server`. -/
structure Relay where
  client : Served
  server : Served
  taken : Nat
  session : Option Nat
  pc : RelayPc
  /-- The datagrams passed to `sendTo`, in the order in which they were enqueued. -/
  sent : List Datagram
  /-- `req.target`. -/
  target : Option Address
  /-- What `receiveFrom` has returned to the outbound. -/
  returned : List Datagram

namespace Relay

/-- What can happen. -/
inductive Event where
  /-- Anything on the client's link, except for datagrams of the session. -/
  | client (e : Served.Event)
  /-- `Session::sendTo` on the client's session object `q`, past its check: the check has no
  effect, and so much the more runs are covered. -/
  | sendTo (q : Nat) (data : Bytes) (target : Address)
  /-- The server's reader takes the next frame. -/
  | deliver (now : UInt64)
  /-- Anything else on the server's link. -/
  | server (e : Served.Event)
  /-- The next piece of the handler or of the outbound's `receiveFrom`. -/
  | receive

/-- The handler is spawned when the session is accepted. -/
def spawned (r : Relay) (sid : UInt64) (f : ShineFrame) : Bool :=
  r.session.isNone && r.server.link.onNewSession && f = .newUdp sid

/-- The server's reader has decoded a frame. -/
def dispatch (r : Relay) (sid : UInt64) (now : UInt64) (f : ShineFrame) : Relay :=
  { r with
    server := r.server.setLink (r.server.link.dispatchFrame now f)
    taken := r.taken + 1
    session := if r.spawned sid f then some r.server.link.next else r.session
    pc := if r.spawned sid f then .first else r.pc }

/-- The next piece of a `receiveFrom` on the session object `p`. -/
def receiveStep (r : Relay) (p : Nat) : Option Relay :=
  match r.pc with
  | .unborn | .ended => none
  | .first => (SessionOp.checkReceive.run r.server.link p).map fun a =>
    { r with pc := if a.1 then .firstWaits else .ended }
  | .firstWaits => (SessionOp.receiveDatagram.run r.server.link p).map fun a =>
    match a.1 with
    | some d =>
      { r with
        server := { r.server with link := a.2, injected := some d }
        target := some d.2
        pc := .serving }
    | none => { r with pc := .ended }
  | .serving =>
    match r.server.injected with
    | some d => some
      { r with
        server := { r.server with injected := none }
        returned := r.returned ++ [d] }
    | none => (SessionOp.checkReceive.run r.server.link p).map fun a =>
      { r with pc := if a.1 then .servingWaits else .serving }
  | .servingWaits => (SessionOp.receiveDatagram.run r.server.link p).map fun a =>
    match a.1 with
    | some d =>
      { r with
        server := r.server.setLink a.2
        returned := r.returned ++ [d]
        pc := .serving }
    | none => { r with pc := .serving }

/-- One step of the relay of the session `sid`. -/
def step (sid : UInt64) (r : Relay) : Event → Option Relay
  | .client e =>
    if e.enqueues.bind ShineFrame.udpSid = some sid then none
    else (r.client.step e).map fun w => { r with client := w }
  | .sendTo q data target =>
    if target.Named ∧ (r.client.link.heap q).map (·.sid) = some sid then
      (r.client.step (.call q (.enqueueFrame (.udpData sid target.toBinary data)))).map fun w =>
        { r with client := w, sent := r.sent ++ [(data, target)] }
    else none
  | .deliver now =>
    if r.server.link.closed then none
    else (r.client.sent[r.taken]?).map fun f =>
      match attempt r.server.link.opts.maxPayload (encode f) with
      | .frame _ g => r.dispatch sid now g
      | _ => { r with server := r.server.setLink r.server.link.failLink, taken := r.taken + 1 }
  | .server e =>
    if e.dispatches.isSome then none
    else (r.server.step e).map fun w => { r with server := w }
  | .receive => r.session.bind r.receiveStep

/-- All runs of the relay of the session `sid`. -/
def system (sid : UInt64) : Lts Relay Event := ⟨step sid⟩

/-- Two links that have just been constructed. -/
def start (co so : LinkOptions) : Relay where
  client := ⟨.new co false 0, [], none⟩
  server := .start so 0
  taken := 0
  session := none
  pc := .unborn
  sent := []
  target := none
  returned := []

/-! ## Where a datagram can be -/

/-- The datagram that a frame carries to the session, if it can be decoded. -/
def datagramOf (sid : UInt64) : ShineFrame → Option Datagram
  | .udpData sid' blob payload =>
    if sid' = sid then (Address.parseBinary blob).toOption.map fun addr => (payload, addr)
    else none
  | _ => none

/-- The datagrams for the session among some frames. -/
def datagramsOf (sid : UInt64) (fs : List ShineFrame) : List Datagram :=
  fs.filterMap (datagramOf sid)

theorem datagramOf_of_udpSid {sid : UInt64} {f : ShineFrame} (h : f.udpSid ≠ some sid) :
    datagramOf sid f = none := by
  cases f with
  | udpData sid' blob payload =>
    have hne : sid' ≠ sid := fun heq => h (congrArg some heq)
    simp [datagramOf, hne]
  | _ => rfl

theorem datagramsOf_eq_nil {sid : UInt64} {fs : List ShineFrame}
    (h : ∀ f ∈ fs, f.udpSid ≠ some sid) : datagramsOf sid fs = [] :=
  List.filterMap_eq_nil_iff.mpr fun f hf => datagramOf_of_udpSid (h f hf)

/-- The frame of a `sendTo` carries just what was passed to it. -/
theorem datagramOf_sendTo (sid : UInt64) (data : Bytes) {target : Address} (h : target.Named) :
    datagramOf sid (.udpData sid target.toBinary data) = some (data, target) := by
  simp [datagramOf, Address.parseBinary_toBinary h, Except.toOption]

/-- The datagrams waiting at the session object that the server has accepted. -/
def waiting (r : Relay) : List Datagram := (r.session.map r.server.link.inboxOf).getD []

/-- The frames that the server has still to read. -/
def ahead (r : Relay) : List ShineFrame := r.client.out.drop r.taken

/-- Every datagram that has been returned or can still be, in order. -/
def alive (sid : UInt64) (r : Relay) : List Datagram :=
  r.returned ++ (r.server.injected.toList ++ (r.waiting ++ datagramsOf sid r.ahead))

/-- What the handler's place says about the first datagram. -/
def Placed (r : Relay) : Prop :=
  match r.pc with
  | .unborn | .first | .firstWaits | .ended => r.returned = [] ∧ r.server.injected = none
  | .serving => r.returned ++ r.server.injected.toList ≠ []
  | .servingWaits => r.returned ≠ [] ∧ r.server.injected = none

/-- What holds in every state. -/
structure Inv (sid : UInt64) (r : Relay) : Prop where
  flow : (r.alive sid).Sublist r.sent
  target : r.target = ((r.returned ++ r.server.injected.toList).head?).map (·.2)
  placed : r.Placed
  posted : ∀ f ∈ r.client.link.posted, f.udpSid ≠ some sid
  taken : r.taken ≤ r.client.sent.length
  inUse : Served.InUse r.server.link
  used : ∀ p, r.session = some p → p < r.server.link.next
  own : ∀ p, r.session = some p → ∀ sid', r.server.link.sessions sid' = some p → sid' = sid
  unborn : r.session = none → r.pc = .unborn

namespace Inv

variable {sid : UInt64} {r r' : Relay}

theorem start (sid : UInt64) (co so : LinkOptions) : Inv sid (.start co so) where
  flow := by simp [alive, Relay.start, Served.start, waiting, ahead, Served.out, Link.new,
    datagramsOf]
  target := rfl
  placed := ⟨rfl, rfl⟩
  posted := by simp [Relay.start, Link.new]
  taken := Nat.le_refl _
  inUse := by
    intro sid' q hq
    simp [Relay.start, Served.start, Link.new] at hq
  used := by simp [Relay.start]
  own := by simp [Relay.start]
  unborn _ := rfl

/-- `sendTo` is the only call whose frames have the sid. -/
theorem not_udpSid {f : ShineFrame} (hf : ∀ sid' blob payload, f ≠ .udpData sid' blob payload) :
    f.udpSid ≠ some sid := by
  cases f with
  | udpData sid' blob payload => exact absurd rfl (hf sid' blob payload)
  | _ => simp [ShineFrame.udpSid]

theorem taken_le_out (h : Inv sid r) : r.taken ≤ r.client.out.length := by
  rw [Served.out, List.length_append]
  exact h.taken.trans (Nat.le_add_right ..)

/-- More frames behind those that are ahead. -/
theorem ahead_append (h : Inv sid r) {w : Served} {extra : List ShineFrame}
    (hout : w.out = r.client.out ++ extra) :
    datagramsOf sid (w.out.drop r.taken) = datagramsOf sid r.ahead ++ datagramsOf sid extra := by
  rw [hout, List.drop_append_of_le_length h.taken_le_out]
  exact List.filterMap_append

/-- A step of the client's link that sends no datagram of the session. -/
theorem client (h : Inv sid r) {e : Served.Event} {w : Served}
    (he : e.enqueues.bind ShineFrame.udpSid ≠ some sid) (hstep : r.client.step e = some w) :
    Inv sid { r with client := w } := by
  obtain ⟨hsent, ⟨extra, hout, hextra⟩, hposted⟩ :=
    Served.out_step (F := fun f => f.udpSid ≠ some sid) (fun f hf => not_udpSid hf) h.posted hstep
      (fun f hf => by rwa [hf] at he)
  refine { h with flow := ?_, posted := hposted, taken := h.taken.trans hsent.length_le }
  have hahead := h.ahead_append hout
  rw [datagramsOf_eq_nil hextra, List.append_nil] at hahead
  have hflow := h.flow
  simp only [alive, waiting, ahead] at hflow hahead ⊢
  rwa [hahead]

/-- `sendTo`: the datagram is the last of those sent and the last of those ahead, unless the
link is closed. -/
theorem sendTo (h : Inv sid r) {q : Nat} {data : Bytes} {target : Address} {w : Served}
    (hnamed : target.Named)
    (hstep : r.client.step (.call q (.enqueueFrame (.udpData sid target.toBinary data)))
      = some w) :
    Inv sid { r with client := w, sent := r.sent ++ [(data, target)] } := by
  obtain ⟨⟨a, l'⟩, hrun, rfl⟩ := Option.map_eq_some_iff.mp hstep
  obtain ⟨s, -, happly⟩ := Option.bind_eq_some_iff.mp hrun
  cases happly
  refine { h with flow := ?_, posted := ?_ }
  · by_cases hclosed : r.client.link.closed = true
    · have hsame : r.client.link.enqueueFrame (.udpData sid target.toBinary data)
          = r.client.link := by rw [Link.enqueueFrame, if_pos hclosed]
      simp only [hsame]
      exact h.flow.trans (List.sublist_append_left ..)
    · have hout : (r.client.setLink (r.client.link.enqueueFrame
          (.udpData sid target.toBinary data))).out
            = r.client.out ++ [.udpData sid target.toBinary data] := by
        simp [Served.out, Link.enqueueFrame_writeChan, hclosed]
      have hahead := h.ahead_append hout
      have hone : datagramsOf sid [.udpData sid target.toBinary data] = [(data, target)] := by
        simp [datagramsOf, datagramOf_sendTo sid data hnamed]
      rw [hone] at hahead
      have hflow := h.flow.append_right [(data, target)]
      simp only [alive, waiting, ahead, List.append_assoc] at hflow hahead ⊢
      rwa [hahead]
  · intro f hf
    exact h.posted f (by simpa using hf)

/-- A step of the server's link under which the datagrams of the session are at most
taken out of the inbox. -/
theorem of_quiet (h : Inv sid r) {w : Served} (hinUse : Served.InUse w.link)
    (hquiet : ∀ p, Served.Quiet (fun _ => True) p r.server w) :
    Inv sid { r with server := w } := by
  have hinjected : w.injected = r.server.injected := (hquiet 0).injected
  refine { h with flow := ?_, target := ?_, placed := ?_, inUse := hinUse, used := ?_, own := ?_ }
  · refine List.Sublist.trans ?_ h.flow
    simp only [alive, hinjected]
    refine (List.Sublist.refl _).append ((List.Sublist.refl _).append ?_)
    refine List.Sublist.append ?_ (List.Sublist.refl _)
    cases hp : r.session with
    | none => simp [waiting, hp]
    | some p => simpa [waiting, hp] using (hquiet p).inbox (h.used p hp)
  · simpa [hinjected] using h.target
  · simpa only [Placed, hinjected] using h.placed
  · intro p hp
    exact (h.used p hp).trans_le (hquiet p).next
  · intro p hp sid' hs
    exact h.own p hp sid' ((hquiet p).table (h.used p hp) sid' hs)

theorem server (h : Inv sid r) {e : Served.Event} {w : Served}
    (he : ¬ e.dispatches.isSome = true) (hstep : r.server.step e = some w) :
    Inv sid { r with server := w } := by
  refine h.of_quiet (h.inUse.step hstep) fun p => ?_
  refine Served.quiet_step (fun _ _ => trivial) (fun _ _ => trivial) hstep
    (fun _ _ => trivial) ?_
  intro sid' blob payload hin
  rw [hin] at he
  exact he rfl

/-- The reader moves on by one frame. -/
theorem ahead_cons {f : ShineFrame} (hf : r.client.sent[r.taken]? = some f) :
    r.ahead = f :: r.client.out.drop (r.taken + 1) ∧ r.taken + 1 ≤ r.client.sent.length := by
  obtain ⟨hlt, hget⟩ := List.getElem?_eq_some_iff.mp hf
  have hlt' : r.taken < r.client.out.length := by
    rw [Served.out, List.length_append]
    omega
  refine ⟨?_, hlt⟩
  rw [ahead, List.drop_eq_getElem_cons hlt']
  congr 1
  rw [← hget]
  exact List.getElem_append_left hlt

/-- A frame that the session does not get: it is lost. -/
theorem skip (h : Inv sid r) {f : ShineFrame} (hf : r.client.sent[r.taken]? = some f) :
    Inv sid { r with taken := r.taken + 1 } := by
  obtain ⟨hahead, htaken⟩ := ahead_cons hf
  refine { h with flow := ?_, taken := htaken }
  refine List.Sublist.trans ?_ h.flow
  simp only [alive, hahead, waiting]
  refine (List.Sublist.refl _).append ((List.Sublist.refl _).append
    ((List.Sublist.refl _).append ?_))
  exact (List.sublist_cons_self f _).filterMap _

/-- A datagram of the session that arrives: it goes to the end of the inbox, or is lost. -/
theorem inboxOf_dispatch_udpData (h : Inv sid r) {p : Nat} (hp : r.session = some p)
    (now sid' : UInt64) (blob payload : Bytes) :
    ((r.server.link.dispatchFrame now (.udpData sid' blob payload)).inboxOf p).Sublist
      (r.server.link.inboxOf p ++ (datagramOf sid (.udpData sid' blob payload)).toList) := by
  rcases Served.dispatch_udpData r.server.link now sid' blob payload with
    hsame | ⟨q, addr, hq, haddr, hsame⟩
  · rw [hsame]
    exact List.sublist_append_left ..
  · rw [hsame]
    by_cases hne : p = q
    · subst hne
      obtain rfl : sid' = sid := h.own p hp sid' hq
      have hd : datagramOf sid' (.udpData sid' blob payload) = some (payload, addr) := by
        simp [datagramOf, haddr, Except.toOption]
      rw [hd]
      cases hs : r.server.link.heap p with
      | none => simp [Link.inboxOf, hs]
      | some s => simpa [Link.inboxOf, hs] using s.datagrams_onUdpData payload addr
    · rw [Link.inboxOf, Link.modify_heap, if_neg hne, ← Link.inboxOf]
      exact List.sublist_append_left ..

/-- The dispatch of a datagram, of this session or of another. -/
theorem deliver_udpData (h : Inv sid r) {now sid' : UInt64} {blob payload : Bytes}
    (hf : r.client.sent[r.taken]? = some (.udpData sid' blob payload)) :
    Inv sid { r with
      server := r.server.setLink (r.server.link.dispatchFrame now (.udpData sid' blob payload))
      taken := r.taken + 1 } := by
  obtain ⟨hahead, htaken⟩ := ahead_cons hf
  have hlink : (r.server.link.dispatchFrame now (.udpData sid' blob payload)).next
        = r.server.link.next ∧
      (r.server.link.dispatchFrame now (.udpData sid' blob payload)).sessions
        = r.server.link.sessions := by
    rcases Served.dispatch_udpData r.server.link now sid' blob payload with
      hsame | ⟨q, addr, -, -, hsame⟩ <;>
    · rw [hsame]
      exact ⟨rfl, rfl⟩
  refine { h with
    flow := ?_, taken := htaken, inUse := h.inUse.dispatchFrame now _, used := ?_, own := ?_ }
  · refine List.Sublist.trans ?_ h.flow
    have hcons : datagramsOf sid r.ahead
        = (datagramOf sid (.udpData sid' blob payload)).toList
          ++ datagramsOf sid (r.client.out.drop (r.taken + 1)) := by
      rw [hahead, datagramsOf, List.filterMap_cons]
      cases datagramOf sid (.udpData sid' blob payload) <;> rfl
    simp only [alive, hcons]
    refine (List.Sublist.refl _).append ((List.Sublist.refl _).append ?_)
    rw [← List.append_assoc]
    refine List.Sublist.append ?_ (List.Sublist.refl _)
    cases hp : r.session with
    | none => simp [waiting, hp]
    | some p => simpa [waiting, hp] using h.inboxOf_dispatch_udpData hp now sid' blob payload
  · intro p hp
    simpa [hlink.1] using h.used p hp
  · intro p hp sid'' hs
    rw [Served.setLink_link, hlink.2] at hs
    exact h.own p hp sid'' hs

/-- The session is accepted: its inbox is empty, and it is stored under its own sid only. -/
theorem deliver_new (h : Inv sid r) (now : UInt64) (hnone : r.session = none)
    (hserver : r.server.link.onNewSession = true)
    (hf : r.client.sent[r.taken]? = some (.newUdp sid)) :
    Inv sid { r with
      server := r.server.setLink (r.server.link.dispatchFrame now (.newUdp sid))
      taken := r.taken + 1
      session := some r.server.link.next
      pc := .first } := by
  have hskip := h.skip hf
  have hunborn := h.unborn hnone
  have hplaced : r.returned = [] ∧ r.server.injected = none := by
    have := h.placed
    rwa [Placed, hunborn] at this
  have haccept : r.server.link.dispatchFrame now (.newUdp sid)
      = r.server.link.accept sid Address.default 0 .udp := by
    simp [Link.dispatchFrame, hserver]
  have hempty : (r.server.link.accept sid Address.default 0 .udp).inboxOf r.server.link.next
      = [] := by
    simp only [Link.inboxOf, Link.accept, Link.enqueueFrame_heap, Link.emplace_heap, if_pos]
    rfl
  have hwaiting : r.waiting = [] := by simp [waiting, hnone]
  refine
    { flow := ?_
      target := h.target
      placed := hplaced
      posted := h.posted
      taken := hskip.taken
      inUse := h.inUse.dispatchFrame now _
      used := ?_
      own := ?_
      unborn := by simp }
  · have hflow := hskip.flow
    simpa [alive, waiting, ahead, haccept, hempty, hnone, Served.setLink] using hflow
  · intro p hp
    cases hp
    simp [haccept, Link.accept]
  · intro p hp sid' hs
    cases hp
    rw [Served.setLink_link, haccept] at hs
    simp only [Link.accept, Link.enqueueFrame_sessions] at hs
    exact h.inUse.emplace_own hs

/-- The server's reader dispatches a frame. -/
theorem dispatch (h : Inv sid r) {now : UInt64} {f : ShineFrame}
    (hf : r.client.sent[r.taken]? = some f) : Inv sid (r.dispatch sid now f) := by
  by_cases hspawned : r.spawned sid f = true
  · have hcond : (r.session = none ∧ r.server.link.onNewSession = true) ∧ f = .newUdp sid := by
      simpa [spawned] using hspawned
    obtain ⟨⟨hnone, hserver⟩, rfl⟩ := hcond
    simpa [Relay.dispatch, hspawned] using h.deliver_new now hnone hserver hf
  · simp only [Relay.dispatch, hspawned, if_false, Bool.false_eq_true]
    by_cases hudp : ∃ sid' blob payload, f = .udpData sid' blob payload
    · obtain ⟨sid', blob, payload, rfl⟩ := hudp
      exact h.deliver_udpData hf
    · push Not at hudp
      refine (h.skip hf).of_quiet (h.inUse.dispatchFrame now f) fun p => ?_
      exact .of_spares (.dispatchFrame (fun _ _ => trivial) now hudp)

/-- Taking the first datagram out of the inbox leaves all that is alive as it is. -/
theorem receive (h : Inv sid r) {p : Nat} (hp : r.session = some p)
    (hstep : r.receiveStep p = some r') : Inv sid r' := by
  have hplaced := h.placed
  unfold receiveStep at hstep
  cases hpc : r.pc with
  | unborn | ended => simp [hpc] at hstep
  | first =>
    rw [Placed, hpc] at hplaced
    simp only [hpc] at hstep
    obtain ⟨⟨a, l'⟩, -, rfl⟩ := Option.map_eq_some_iff.mp hstep
    refine { h with placed := ?_, unborn := ?_ }
    · simp only [Placed]
      split_ifs <;> exact hplaced
    · intro hnone
      simp [hp] at hnone
  | firstWaits =>
    rw [Placed, hpc] at hplaced
    simp only [hpc] at hstep
    obtain ⟨⟨a, l'⟩, hrun, rfl⟩ := Option.map_eq_some_iff.mp hstep
    cases a with
    | none => exact { h with placed := hplaced, unborn := fun hnone => by simp [hp] at hnone }
    | some d =>
      have hquiet := fun q => Spares.call (F := fun _ => True) (p := q) (fun _ _ => trivial) hrun
        (fun _ _ => trivial)
      have hinbox := Spares.inboxOf_receive hrun
      refine
        { h with
          flow := ?_
          target := by simp [hplaced.1]
          placed := by simp [Placed]
          inUse := h.inUse.call hrun
          used := fun q hq => (h.used q hq).trans_le (hquiet q).next
          own := fun q hq sid' hs => h.own q hq sid' ((hquiet q).table (h.used q hq) sid' hs)
          unborn := fun hnone => by simp [hp] at hnone }
      have hflow := h.flow
      simpa [alive, waiting, ahead, hp, hinbox, hplaced.2] using hflow
  | serving =>
    rw [Placed, hpc] at hplaced
    simp only [hpc] at hstep
    cases hinjected : r.server.injected with
    | some d =>
      simp only [hinjected] at hstep
      cases hstep
      refine
        { h with
          flow := ?_
          target := ?_
          placed := by simp [Placed]
          unborn := fun hnone => by simp [hp] at hnone }
      · have hflow := h.flow
        simpa [alive, waiting, ahead, hinjected] using hflow
      · simpa [hinjected] using h.target
    | none =>
      simp only [hinjected] at hstep
      obtain ⟨⟨a, l'⟩, -, rfl⟩ := Option.map_eq_some_iff.mp hstep
      have hne : r.returned ≠ [] := by simpa [hinjected] using hplaced
      refine { h with placed := ?_, unborn := fun hnone => by simp [hp] at hnone }
      simp only [Placed]
      split_ifs
      · exact ⟨hne, hinjected⟩
      · exact hplaced
  | servingWaits =>
    rw [Placed, hpc] at hplaced
    obtain ⟨hne, hinjected⟩ := hplaced
    simp only [hpc] at hstep
    obtain ⟨⟨a, l'⟩, hrun, rfl⟩ := Option.map_eq_some_iff.mp hstep
    cases a with
    | none =>
      refine { h with placed := ?_, unborn := fun hnone => by simp [hp] at hnone }
      simpa [Placed] using fun hnil => absurd hnil hne
    | some d =>
      have hquiet := fun q => Spares.call (F := fun _ => True) (p := q) (fun _ _ => trivial) hrun
        (fun _ _ => trivial)
      have hinbox := Spares.inboxOf_receive hrun
      refine
        { h with
          flow := ?_
          target := ?_
          placed := by simp [Placed]
          inUse := h.inUse.call hrun
          used := fun q hq => (h.used q hq).trans_le (hquiet q).next
          own := fun q hq sid' hs => h.own q hq sid' ((hquiet q).table (h.used q hq) sid' hs)
          unborn := fun hnone => by simp [hp] at hnone }
      · have hflow := h.flow
        simpa [alive, waiting, ahead, hp, hinbox, hinjected, Served.setLink] using hflow
      · have htarget := h.target
        cases hreturned : r.returned with
        | nil => exact absurd hreturned hne
        | cons d' rest => simpa [hreturned, hinjected, Served.setLink] using htarget

/-- **One step** of the relay. -/
theorem step (h : Inv sid r) {e : Event} (hstep : r.step sid e = some r') : Inv sid r' := by
  cases e with
  | client e =>
    simp only [Relay.step] at hstep
    split_ifs at hstep with he
    obtain ⟨w, hw, rfl⟩ := Option.map_eq_some_iff.mp hstep
    exact h.client he hw
  | sendTo q data target =>
    simp only [Relay.step] at hstep
    split_ifs at hstep with hnamed
    obtain ⟨w, hw, rfl⟩ := Option.map_eq_some_iff.mp hstep
    exact h.sendTo hnamed.1 hw
  | deliver now =>
    simp only [Relay.step] at hstep
    split_ifs at hstep with hclosed
    obtain ⟨f, hf, rfl⟩ := Option.map_eq_some_iff.mp hstep
    rcases attempt_encode_cases r.server.link.opts.maxPayload f with ⟨-, hframe⟩ | ⟨-, e, herr⟩
    · rw [hframe]
      exact h.dispatch hf
    · -- a frame beyond the limit fails the link, and what is queued stays queued
      rw [herr]
      refine (h.skip hf).of_quiet ?_ fun p => .of_spares .failLink
      have hfail : r.server.step .failLink = some (r.server.setLink r.server.link.failLink) := rfl
      exact h.inUse.step hfail
  | server e =>
    simp only [Relay.step] at hstep
    split_ifs at hstep with he
    obtain ⟨w, hw, rfl⟩ := Option.map_eq_some_iff.mp hstep
    exact h.server he hw
  | receive =>
    obtain ⟨p, hp, hreceive⟩ := Option.bind_eq_some_iff.mp hstep
    exact h.receive hp hreceive

/-- Every run. -/
theorem reach {co so : LinkOptions} (hr : (system sid).Reach Lts.Free (.start co so) r) :
    Inv sid r :=
  hr.invariant (start sid co so) fun _ _ _ hi _ hs => hi.step hs

end Inv

/-- **Datagrams are relayed intact.** In every run, what the outbound has received through
the `InjectedStream` is an in-order subsequence of what was sent, payloads and addresses
unchanged, and the request's target is the address of the first datagram it received. -/
theorem udp_relay (sid : UInt64) (co so : LinkOptions) (r : Relay)
    (h : (system sid).Reach Lts.Free (.start co so) r) :
    r.returned.Sublist r.sent ∧
      ∀ first, r.returned.head? = some first → r.target = some first.2 := by
  have hi := Inv.reach h
  refine ⟨(List.sublist_append_left ..).trans hi.flow, fun first hfirst => ?_⟩
  rw [hi.target, List.head?_append, hfirst]
  rfl

/-- A session is opened, two datagrams are sent, the second before the first is read, and
the outbound receives both. -/
def sampleEvents : List Event :=
  [.client (.openSession 7 Address.default true), .client .flush, .deliver 0,
    .sendTo 0 [1, 2] Link.sampleTarget, .sendTo 0 [3] (.domain (ascii "a.b") 53),
    .client .flush, .deliver 0, .client .flush, .deliver 0,
    .receive, .receive, .receive, .receive, .receive]

theorem udp_relay_two_datagrams :
    ∃ r, (system 7).Reach Lts.Free (.start Link.sampleOpts Link.sampleOpts) r ∧
      r.returned = [([1, 2], Link.sampleTarget), ([3], .domain (ascii "a.b") 53)] ∧
      r.returned.Sublist r.sent ∧
      ∀ first, r.returned.head? = some first → r.target = some first.2 := by
  have hexec : ((system 7).exec Lts.Free (.start Link.sampleOpts Link.sampleOpts)
      sampleEvents).map (·.returned)
        = some [([1, 2], Link.sampleTarget), ([3], .domain (ascii "a.b") 53)] := by
    decide +kernel
  obtain ⟨r, hrun, hreturned⟩ := Option.map_eq_some_iff.mp hexec
  have hreach := Lts.reach_of_exec _ hrun
  exact ⟨r, hreach, hreturned, udp_relay 7 Link.sampleOpts Link.sampleOpts r hreach⟩

end Relay

end Shine
