import Shine.Inbound.Served
import Shine.Outbound.Handle

/-!
# Are accepted sessions released? (`inbound/shine_inbound.cpp`)

The session table keeps a `Session` alive, so whoever is handed an accepted session has
to close it. The handler of the shine inbound does not do so itself: it relies on the
outbound, and the outbounds close the session only where they get as far as relaying
(or where the session is blocked). On every early return — no route, an unknown
outbound, an outbound that cannot reach the remote end, a UDP session without a first
datagram, a blocked UDP session — it stays as it is.

- `accepted_released`: in every run in which the request is served and the peer does
  not reset the session first, the session is released once the handler has returned.
-/

namespace Shine

/-- Pass a request on, as the handler does at its end. -/
def ShineInbound.onReq (d : Dispatcher) (sid : UInt64) (req : SessionRequest) :
    Handler Unit := do
  Co.await (HandlerOp.onReq req)
  d.dispatch sid req

/-- The request for a TCP session. -/
def ShineInbound.tcpRequest (inboundTag inboundProtocol : Bytes) (t : Address) : SessionRequest :=
  ⟨inboundTag, inboundProtocol, .tcp, t, true, false⟩

/-- The request for a UDP session, whose target is that of the first datagram. -/
def ShineInbound.udpRequest (inboundTag inboundProtocol : Bytes) (t : Address) : SessionRequest :=
  ⟨inboundTag, inboundProtocol, .udp, t, false, true⟩

/-- The handler of `ShineInbound`: the coroutine that `Link` spawns for an accepted
session. -/
def ShineInbound.handler (d : Dispatcher) (inboundTag inboundProtocol : Bytes) (s : Session)
    (t : Address) : Handler Unit := do
  if s.protocol = .udp then
    match ← Session.receiveFrom (Handler.piece .inbound) with
    | .error _ => return ()
    | .ok first =>
      Co.await (HandlerOp.inject first)
      onReq d s.sid (udpRequest inboundTag inboundProtocol first.2)
  else onReq d s.sid (tcpRequest inboundTag inboundProtocol t)

/-- What the operations of the handler of the session object `p` do. A remote end does
what it likes but has no access to the link. -/
def HandlerOp.exec (p : Nat) (w : Served) : (op : HandlerOp) → op.Ans → Served → Prop
  | .session _ op, r, w' => ∃ l', op.run w.link p = some (r, l') ∧ w' = w.setLink l'
  | .inject first, _, w' => w' = { w with injected := some first }
  | .takeInjected, r, w' => r = w.injected ∧ w' = { w with injected := none }
  | .onReq _, _, w' => w' = w
  | .remote _, _, w' => w' = w
  | .null, _, _ => False

/-! ## Requests that are served -/

/-- The outbound relays for the request, or blocks it by closing the stream. -/
def Outbound.Serves (A : Asio) (req : SessionRequest) : Outbound → Prop
  | .direct =>
    if req.protocol = .udp then (DirectOutbound.dialUdp A req).isOk = true
    else (DirectOutbound.dial A req).isOk = true
  | .block => req.clientStream = true
  | .socks5 cfg => (Socks5Outbound.dial A cfg req).isOk = true
  | .httpConnect cfg => (HttpConnectOutbound.dial A cfg req).isOk = true
  | .shine o => (o.dial req).isOk = true

/-- There is a route for the request, to an outbound that serves it. -/
def Dispatcher.Serves (d : Dispatcher) (req : SessionRequest) : Prop :=
  ∃ ob, d.pick req ≠ [] ∧ d.outbounds (d.pick req) = some ob ∧ ob.Serves d.asio req

/-- The steps of a handler whose request is served: the inbound gets its first datagram,
and what it passes to `on_req` is a request that is served. -/
def Dispatcher.Admits (d : Dispatcher) : (op : HandlerOp) → op.Ans → Prop
  | .session .inbound .checkReceive, r => r = true
  | .session .inbound .receiveDatagram, r => r.isSome = true
  | .onReq req, _ => d.Serves req
  | _, _ => True

/-! ## Every path to the end -/

namespace Served

/-- The session is Closed, no longer in the table, and the peer has been told. -/
structure Released (p : Nat) (sid : UInt64) (w : Served) : Prop where
  closed : (w.link.heap p).map (·.state) = some .closed
  removed : ∀ sid', w.link.sessions sid' ≠ some p
  told : w.Told sid

/-- Steps of the handler of `p` under the condition. -/
def Serving (d : Dispatcher) (p : Nat) (w : Served) (op : HandlerOp) (r : op.Ans) (w' : Served) :
    Prop := op.exec p w r w' ∧ d.Admits op r

/-- Anything that happens on the link meanwhile, except for a RESET of the session that
comes before the peer has been told. -/
def Meanwhile (sid : UInt64) (w w' : Served) : Prop :=
  ∃ e, NotResetFirst sid w e ∧ w.step e = some w'

/-- What a closed session relies on. -/
structure Ended (p : Nat) (sid : UInt64) (w : Served) : Prop where
  held : Held p sid w
  shut : Shut p w

variable {d : Dispatcher} {p : Nat} {sid : UInt64} {w w' : Served}

theorem Ended.released (h : Ended p sid w) (hopen : w.link.closed = false) :
    Released p sid w where
  closed := by
    have hshut := h.shut
    rw [Shut, lookAt, Option.map_map] at hshut
    exact hshut
  removed := h.held.erased h.shut
  told := by
    obtain ⟨st, hst⟩ := h.held.object
    have hshut := h.shut
    rw [Shut, hst] at hshut
    cases hshut
    exact (h.held.told _ hst (.inl rfl)).resolve_left (by simp [hopen])

/-- Every operation of the handler keeps what the session relies on. -/
theorem Held.exec (h : Held p sid w) {op : HandlerOp} {r : op.Ans} (hexec : op.exec p w r w') :
    Follows p sid w w' := by
  cases op with
  | session caller op =>
    obtain ⟨l', hrun, rfl⟩ := hexec
    exact h.call hrun
  | inject first =>
    cases hexec
    exact h.follows rfl (Nat.le_refl _) (fun _ hs => hs) id fun _ hf => hf
  | takeInjected =>
    obtain ⟨-, rfl⟩ := hexec
    exact h.follows rfl (Nat.le_refl _) (fun _ hs => hs) id fun _ hf => hf
  | onReq req =>
    cases hexec
    exact h.refl
  | remote op =>
    cases hexec
    exact h.refl
  | null => cases hexec

/-- The relation keeps what the session relies on. -/
def Keeps (p : Nat) (sid : UInt64) (R : Served → Served → Prop) : Prop :=
  ∀ w w', Held p sid w → R w w' → Follows p sid w w'

theorem Keeps.held {R : Served → Served → Prop} (h : Keeps p sid R) : Co.Stable R (Held p sid) :=
  fun w w' hw hr => (h w w' hw hr).held

theorem Keeps.ended {R : Served → Served → Prop} (h : Keeps p sid R) :
    Co.Stable R (Ended p sid) :=
  fun w w' hw hr => ⟨(h w w' hw.held hr).held, (h w w' hw.held hr).shut hw.shut⟩

theorem keeps_meanwhile : Keeps p sid (Meanwhile sid) := by
  rintro w w' h ⟨e, hok, hstep⟩
  exact h.step hok hstep

theorem keeps_acts : Keeps p sid (Co.Acts (Serving d p)) := by
  rintro w w' h ⟨op, r, hexec, -⟩
  exact h.exec hexec

theorem Keeps.beside {env : Served → Served → Prop} (h : Keeps p sid env) :
    Keeps p sid (Co.Beside (Serving d p) env) := by
  rintro w w' hw (henv | hact)
  · exact h w w' hw henv
  · exact keeps_acts w w' hw hact

/-! ## The relays -/

section Relay

variable {env : Served → Served → Prop}

/-- A coroutine of the handler that need not do anything for the session. -/
theorem Keeps.meets {α : Type} (henv : Keeps p sid env) (c : Handler α) :
    Co.Meets (Serving d p) env (Held p sid) c fun _ => Held p sid :=
  .keep keeps_acts.held henv.held c

/-- What runs after the session has been closed. -/
theorem Keeps.after {α : Type} (henv : Keeps p sid env) (c : Handler α) :
    Co.Meets (Serving d p) env (Ended p sid) c fun _ => Ended p sid :=
  .keep keeps_acts.ended henv.ended c

theorem Keeps.close (henv : Keeps p sid env) :
    Co.Meets (Serving d p) env (Held p sid) (Handler.piece .outbound .close) fun _ => Ended p sid := by
  refine .call henv.held (R := fun _ => Ended p sid) ?_ fun _ => .ret (fun _ h => h) henv.ended
  rintro w r w' h ⟨hexec, -⟩
  refine ⟨(h.exec hexec).held, ?_⟩
  obtain ⟨l', hrun, rfl⟩ := hexec
  obtain ⟨s, hs, happly⟩ := Option.bind_eq_some_iff.mp hrun
  cases happly
  exact h.shut_close

/-- A call on a null pointer does not return. -/
theorem meets_null {α : Type} {P : Served → Prop} {Q : α → Served → Prop}
    (hP : Co.Stable env P) : Co.Meets (Serving d p) env P (Handler.null : Handler α) Q :=
  .call hP (R := fun _ _ => False) (fun _ r => r.elim) fun r => r.elim

theorem Keeps.clientClose (henv : Keeps p sid env) (req : SessionRequest) :
    Co.Meets (Serving d p) env (Held p sid) (Handler.clientStream req sid).close
      fun _ => Ended p sid := by
  rw [Handler.clientStream]
  split_ifs
  · exact henv.close
  · exact meets_null henv.held

theorem Keeps.bidiCopy (henv : Keeps p sid env) (req : SessionRequest)
    (b : SessionStream HandlerOp HandlerOp.Ans) :
    Co.Meets (Serving d p) env (Held p sid) (bidiCopy (Handler.clientStream req sid) b)
      fun _ => Ended p sid :=
  .bind (henv.meets _) fun _ => .bind (henv.clientClose req) fun _ => henv.after _

/-- An outbound that has reached the remote end. -/
theorem Keeps.bridge {τ : Type} (henv : Keeps p sid env) (req : SessionRequest) {dialled : StatusOr τ}
    (hok : dialled.isOk = true) :
    Co.Meets (Serving d p) env (Held p sid) (bridge sid req dialled) fun _ => Ended p sid := by
  cases dialled with
  | error _ => cases hok
  | ok _ => exact .bind (henv.bidiCopy req _) fun _ => henv.after _

/-- Two coroutines of which the second closes the session. -/
theorem Keeps.par (henv : Keeps p sid env) (m : Handler Unit) {n : Handler Unit}
    (hn : Co.Meets (Serving d p) (Co.Beside (Serving d p) env) (Held p sid) n
      fun _ => Ended p sid) :
    Co.Meets (Serving d p) env (Held p sid) (Co.par m n) fun _ => Ended p sid :=
  .both (henv.beside.meets m) hn (.ret (fun _ h => h.2) henv.ended)

theorem Keeps.handleUdp (henv : Keeps p sid env) (A : Asio) (req : SessionRequest)
    (hok : (DirectOutbound.dialUdp A req).isOk = true) :
    Co.Meets (Serving d p) env (Held p sid) (DirectOutbound.handleUdp A sid req)
      fun _ => Ended p sid := by
  rw [DirectOutbound.handleUdp]
  cases hdial : DirectOutbound.dialUdp A req with
  | error _ => rw [hdial] at hok; cases hok
  | ok _ =>
    refine .bind (henv.par _ ?_) fun _ => henv.after _
    exact .bind (henv.beside.meets _) fun _ => henv.beside.close

theorem Keeps.shineHandle (henv : Keeps p sid env) (o : ShineOutbound) (req : SessionRequest)
    (hok : (o.dial req).isOk = true) :
    Co.Meets (Serving d p) env (Held p sid) (o.handle sid req) fun _ => Ended p sid := by
  rw [ShineOutbound.handle]
  split_ifs
  · cases hdial : o.dial req with
    | error _ => rw [hdial] at hok; cases hok
    | ok _ =>
      refine .bind (henv.par _ ?_) fun _ => henv.after _
      exact .bind (henv.beside.meets _) fun _ => henv.beside.close
  · exact henv.bridge req hok

theorem Keeps.blockHandle (henv : Keeps p sid env) (req : SessionRequest)
    (hstream : req.clientStream = true) :
    Co.Meets (Serving d p) env (Held p sid) (BlockOutbound.handle sid req)
      fun _ => Ended p sid := by
  rw [BlockOutbound.handle, if_pos hstream]
  exact .bind (henv.meets _) fun _ => .bind (henv.clientClose req) fun _ => henv.after _

/-- An outbound that serves the request closes the session. -/
theorem Keeps.handle (henv : Keeps p sid env) (A : Asio) (req : SessionRequest) {ob : Outbound}
    (hserves : ob.Serves A req) :
    Co.Meets (Serving d p) env (Held p sid) (ob.handle A sid req) fun _ => Ended p sid := by
  cases ob with
  | direct =>
    rw [Outbound.Serves] at hserves
    rw [Outbound.handle, DirectOutbound.handle]
    split_ifs at hserves ⊢
    · exact henv.handleUdp A req hserves
    · exact henv.bridge req hserves
  | block => exact henv.blockHandle req hserves
  | socks5 cfg => exact henv.bridge req hserves
  | httpConnect cfg => exact henv.bridge req hserves
  | shine o => exact henv.shineHandle o req hserves

theorem Keeps.dispatch (henv : Keeps p sid env) (req : SessionRequest) (hserves : d.Serves req) :
    Co.Meets (Serving d p) env (Held p sid) (d.dispatch sid req) fun _ => Ended p sid := by
  obtain ⟨ob, hroute, hob, hserve⟩ := hserves
  rw [Dispatcher.dispatch, if_neg hroute, hob]
  exact .bind (henv.handle d.asio req hserve) fun _ => henv.after _

/-- The condition on the answer of an operation. -/
theorem Keeps.await (henv : Keeps p sid env) (op : HandlerOp) :
    Co.Meets (Serving d p) env (Held p sid) (Co.await op)
      fun r w => Held p sid w ∧ d.Admits op r := by
  refine .call henv.held (R := fun r w => Held p sid w ∧ d.Admits op r) ?_ fun r => ?_
  · rintro w r w' h ⟨hexec, hadmit⟩
    exact ⟨(h.exec hexec).held, hadmit⟩
  · exact .ret (fun _ h => h) (henv.held.and fun _ _ h _ => h)

/-- Only requests that are served are passed on. -/
theorem Keeps.onReq (henv : Keeps p sid env) (req : SessionRequest) :
    Co.Meets (Serving d p) env (Held p sid) (ShineInbound.onReq d sid req)
      fun _ => Ended p sid := by
  refine .bind (henv.await (.onReq req)) fun _ => ?_
  rintro w ⟨hw, hserves⟩
  exact henv.dispatch req hserves w hw

/-- Under the condition the first datagram arrives. -/
theorem Keeps.first (henv : Keeps p sid env) :
    Co.Meets (Serving d p) env (Held p sid) (Session.receiveFrom (Handler.piece .inbound))
      fun r w => Held p sid w ∧ r.isOk = true := by
  refine .bind (henv.await (.session .inbound .checkReceive)) fun r => ?_
  rintro w ⟨hw, hready⟩
  rw [if_pos (show r = true from hready)]
  refine Co.Meets.bind (henv.await (.session .inbound .receiveDatagram)) (fun r => ?_) w hw
  cases r with
  | none =>
    rintro w ⟨-, hsome⟩
    cases hsome
  | some first => exact .ret (fun _ h => ⟨h.1, rfl⟩) (henv.held.and fun _ _ h _ => h)

/-- **Every served path ends the session**, over TCP and over UDP. -/
theorem Keeps.handler (henv : Keeps p sid env) (inboundTag inboundProtocol : Bytes)
    {s : Session} (hsid : s.sid = sid) (t : Address) :
    Co.Meets (Serving d p) env (Held p sid)
      (ShineInbound.handler d inboundTag inboundProtocol s t) fun _ => Ended p sid := by
  rw [ShineInbound.handler, hsid]
  split_ifs
  · refine .bind henv.first fun r => ?_
    cases r with
    | error _ =>
      rintro w ⟨-, hok⟩
      cases hok
    | ok first =>
      refine .bind (R := fun _ => Held p sid) ?_ fun _ => henv.onReq _
      exact (henv.meets _).weaken (fun _ h => h.1) fun _ _ h => h
  · exact henv.onReq _

end Relay

/-! ## From the frame to the end of the handler -/

theorem enqueueFrame_handed (l : Link) (f : ShineFrame) :
    (l.enqueueFrame f).handed = l.handed := by
  unfold Link.enqueueFrame; split_ifs <;> rfl

/-- A frame that hands a session to the handler creates it. -/
theorem accept_of_handed {l : Link} {now : UInt64} {f : ShineFrame} {t : Address}
    (h : (l.dispatchFrame now f).handed = l.handed ++ [(p, t)]) :
    p = l.next ∧ ∃ sid win protocol, l.dispatchFrame now f = l.accept sid t win protocol := by
  have accepted : ∀ sid t' win protocol,
      (l.accept sid t' win protocol).handed = l.handed ++ [(p, t)] →
      p = l.next ∧ ∃ sid' win' protocol', l.accept sid t' win protocol = l.accept sid' t win' protocol' := by
    intro sid t' win protocol heq
    have hhanded : (l.accept sid t' win protocol).handed = l.handed ++ [(l.next, t')] := by
      simp only [Link.accept, enqueueFrame_handed]
      rfl
    rw [hhanded] at heq
    cases List.append_cancel_left heq
    exact ⟨rfl, sid, win, protocol, rfl⟩
  cases f with
  | data _ _ | window _ _ => simp only [Link.dispatchFrame] at h; split at h <;> simp [Link.modify] at h
  | udpData _ _ _ =>
    simp only [Link.dispatchFrame] at h
    split at h
    · simp at h
    · split at h <;> simp [Link.modify] at h
  | new sid addrBlob win =>
    simp only [Link.dispatchFrame] at h ⊢
    split_ifs at h ⊢
    · simp at h
    · split at h
      · simp [enqueueFrame_handed] at h
      · exact accepted _ _ _ _ h
  | newUdp sid =>
    simp only [Link.dispatchFrame] at h ⊢
    split_ifs at h ⊢
    · simp at h
    · exact accepted _ _ _ _ h
  | close _ _ =>
    simp only [Link.dispatchFrame] at h
    split at h
    · simp at h
    · split_ifs at h <;> simp [Link.modify, Link.eraseSession] at h
  | reset _ =>
    simp only [Link.dispatchFrame] at h
    split at h <;> simp [Link.modify, Link.eraseSession] at h
  | ping _ => simp [Link.dispatchFrame, enqueueFrame_handed] at h
  | pong _ => simp only [Link.dispatchFrame] at h; split_ifs at h <;> simp at h
  | ack _ | hello _ _ | auth _ | ok | err _ _ => simp [Link.dispatchFrame] at h

/-- **Every accepted session that is served is released.** From a link that has just
been constructed, in any run, a frame creates the session object `p`; its handler runs
to its end while anything else happens on the link. If all steps meet the condition and
the link is still open, the session is Closed, no longer in the table, and a CLOSE or
RESET has been enqueued for its sid. -/
theorem accepted_released (d : Dispatcher) (opts : LinkOptions) (now tick : UInt64)
    (inboundTag inboundProtocol : Bytes) {f : ShineFrame} {t : Address} {s : Session}
    (hreach : system.Reach Lts.Free (start opts now) w)
    (hnew : (w.link.dispatchFrame tick f).handed = w.link.handed ++ [(p, t)])
    (hs : (w.link.dispatchFrame tick f).heap p = some s)
    (hrun : Co.Run (Serving d p) (Meanwhile s.sid)
      (ShineInbound.handler d inboundTag inboundProtocol s t)
      (w.setLink (w.link.dispatchFrame tick f)) (.ret ()) w')
    (hopen : w'.link.closed = false) : Released p s.sid w' := by
  obtain ⟨rfl, sid, win, protocol, haccept⟩ := accept_of_handed hnew
  have hheld := held_accept (inUse_reach hreach) sid t win protocol
  rw [← haccept] at hheld
  have hsid : s.sid = sid := (hheld.at_heap hs).1
  subst hsid
  exact (keeps_meanwhile.handler inboundTag inboundProtocol rfl t _ hheld () w' hrun).released hopen

/-- A network in which nothing can be reached. -/
def sampleAsio : Asio :=
  .sample (.error (ascii "Host not found")) (.error (ascii "Connection refused")) (.ok ())

/-- A new server link on which NEW with sid 7 has been dispatched. -/
def sampleServed : Served :=
  (start Link.sampleOpts 0).setLink
    ((start Link.sampleOpts 0).link.dispatchFrame 0 (.new 7 Link.sampleBlob 100))

/-- The session that it has created. -/
def sampleSession : Session := .new 7 Link.sampleTarget 100 Link.sampleOpts.initWindow .tcp

/-- Everything is blocked. -/
def sampleBlocking : Dispatcher := ⟨sampleAsio, fun _ => ascii "block", fun _ => some .block⟩

theorem accepted_released_blocked :
    Released 0 7 (sampleServed.setLink ((sampleServed.link.shutdownWrite 0).close 0)) := by
  have hserves : sampleBlocking.Serves (ShineInbound.tcpRequest [] [] Link.sampleTarget) :=
    ⟨.block, by decide, rfl, rfl⟩
  refine accepted_released sampleBlocking Link.sampleOpts 0 0 [] [] (w := start Link.sampleOpts 0)
    (f := .new 7 Link.sampleBlob 100) (t := Link.sampleTarget) (s := sampleSession) .refl rfl rfl ?_ rfl
  have hstart : Co.Run (Serving sampleBlocking 0) (Meanwhile 7)
      (ShineInbound.handler sampleBlocking [] [] sampleSession Link.sampleTarget) sampleServed
      (.call (.onReq (ShineInbound.tcpRequest [] [] Link.sampleTarget)) fun _ =>
        .call (.session .outbound .shutdownWrite) fun _ =>
        .call (.session .outbound .close) fun _ => .ret ()) sampleServed := .refl
  have hreq := hstart.call () ⟨rfl, hserves⟩
  have hshut := hreq.call () ⟨⟨_, rfl, rfl⟩, trivial⟩
  exact hshut.call () ⟨⟨_, rfl, rfl⟩, trivial⟩

/-! ## Requests that are not served -/

/-- Without a route for its target, an accepted session is left Open and stored, and the
peer hears nothing. -/
theorem accepted_released_fails_without_route :
    ¬ ∀ (d : Dispatcher) (opts : LinkOptions) (now tick : UInt64)
      (inboundTag inboundProtocol : Bytes) (w w' : Served) (f : ShineFrame) (p : Nat) (t : Address)
      (s : Session),
      system.Reach Lts.Free (start opts now) w →
      (w.link.dispatchFrame tick f).handed = w.link.handed ++ [(p, t)] →
      (w.link.dispatchFrame tick f).heap p = some s →
      Co.Run (HandlerOp.exec p) (fun w w' => ∃ e, w.step e = some w')
        (ShineInbound.handler d inboundTag inboundProtocol s t)
        (w.setLink (w.link.dispatchFrame tick f)) (.ret ()) w' →
      w'.link.closed = false → Released p s.sid w' := by
  intro h
  have hrun : Co.Run (HandlerOp.exec 0) (fun w w' => ∃ e, w.step e = some w')
      (ShineInbound.handler ⟨sampleAsio, fun _ => [], fun _ => none⟩ [] [] sampleSession Link.sampleTarget)
      sampleServed (.call (.onReq (ShineInbound.tcpRequest [] [] Link.sampleTarget)) fun _ => .ret ())
      sampleServed := .refl
  have hreleased := h ⟨sampleAsio, fun _ => [], fun _ => none⟩ Link.sampleOpts 0 0 [] []
    (start Link.sampleOpts 0) sampleServed (.new 7 Link.sampleBlob 100) 0 Link.sampleTarget sampleSession
    .refl rfl rfl (hrun.call () rfl) rfl
  exact absurd hreleased.closed (by decide)

end Served

end Shine
