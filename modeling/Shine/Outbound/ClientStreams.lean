import Shine.Lib.Calls
import Shine.Outbound.Handle

/-!
# Outbounds and the streams of their clients

The handler of a shine session (`Outbound.handle`) is one client of an outbound; the others
are the sockets that the SOCKS5 and HTTP inbounds pass on. `Outbound.serve` is `handle` for
any of them: the stream pointers of the request lead to the client's objects, or are null.

An outbound that does not lack the stream it works on makes no call on a null pointer
(`serve_clean`). The proxies do not look whether they have it, and once they have reached
the remote end they use it (`not_never_bridgeTo`).
-/

namespace Shine

open Handler

/-- A call on a null pointer. -/
def HandlerOp.IsNull : HandlerOp → Prop
  | .null => True
  | _ => False

/-- The objects that the stream pointers of a request lead to, where they are not null. -/
structure ClientStreams where
  stream : SessionStream HandlerOp HandlerOp.Ans
  datagramStream : DatagramStream HandlerOp HandlerOp.Ans

namespace ClientStreams

/-- `req.client_stream`. -/
def streamOf (c : ClientStreams) (req : SessionRequest) : SessionStream HandlerOp HandlerOp.Ans :=
  if req.clientStream then c.stream else ⟨fun _ => null, fun _ => null, null, null⟩

/-- `req.client_datagram_stream`. -/
def datagramStreamOf (c : ClientStreams) (req : SessionRequest) :
    DatagramStream HandlerOp HandlerOp.Ans :=
  if req.clientDatagramStream then c.datagramStream else ⟨fun _ _ => null, null, null⟩

/-- A session of a shine link. -/
def session (sid : UInt64) : ClientStreams :=
  ⟨Session.stream (piece .outbound) sid, clientDatagramStream sid⟩

/-- `InjectedStream::receiveFrom`. -/
def injected (receive : Handler (StatusOr Datagram)) : Handler (StatusOr Datagram) := do
  match ← Co.await HandlerOp.takeInjected with
  | some first => return .ok first
  | none => receive

/-- The sockets of the other inbounds; the far end of a socket answers anything. A UDP
association is wrapped in an `InjectedStream`. -/
def socket : ClientStreams where
  stream := remoteStream
  datagramStream :=
    { sendTo := fun data target => remote (.sendTo data target)
      receiveFrom := injected (remote .receiveFrom)
      close := remote .close }

end ClientStreams

/-! ## `handle` for any client -/

/-- Return early with the error of `dialled`, or copy between the client and the remote end. -/
def bridgeTo {τ : Type} (client : SessionStream HandlerOp HandlerOp.Ans) (dialled : StatusOr τ) :
    Handler (StatusOr Unit) :=
  match dialled with
  | .error st => return .error st
  | .ok _ => do
    bidiCopy client remoteStream
    return .ok ()

/-- The same for two coroutines that relay datagrams. -/
def relayBy (m n : Handler Unit) (dialled : StatusOr Unit) : Handler (StatusOr Unit) :=
  match dialled with
  | .error st => return .error st
  | .ok () => do
    Co.par m n
    return .ok ()

/-- `handle`. -/
def Outbound.serve (A : Asio) (c : ClientStreams) (req : SessionRequest) :
    Outbound → Handler (StatusOr Unit)
  | .direct =>
    if req.protocol = .udp then
      relayBy (DirectOutbound.readClient (c.datagramStreamOf req))
        (DirectOutbound.readRemote (c.datagramStreamOf req)) (DirectOutbound.dialUdp A req)
    else bridgeTo (c.streamOf req) (DirectOutbound.dial A req)
  | .block => do
    if req.clientStream then
      (c.streamOf req).shutdownWrite
      (c.streamOf req).close
    return .ok ()
  | .socks5 cfg => bridgeTo (c.streamOf req) (Socks5Outbound.dial A cfg req)
  | .httpConnect cfg => bridgeTo (c.streamOf req) (HttpConnectOutbound.dial A cfg req)
  | .shine o =>
    if req.protocol = .udp then
      relayBy
        (ShineOutbound.relay (c.datagramStreamOf req) ShineOutbound.remoteDatagramStream)
        (ShineOutbound.relay ShineOutbound.remoteDatagramStream (c.datagramStreamOf req))
        (o.dial req)
    else bridgeTo (c.streamOf req) (o.dial req)

/-- A UDP request is relayed only if there is a datagram stream for it. -/
theorem ShineOutbound.hasStream_of_dial {o : ShineOutbound} {req : SessionRequest}
    (h : o.dial req = .ok ()) (hudp : req.protocol = .udp) : req.clientDatagramStream = true := by
  by_contra hnull
  rw [ShineOutbound.dial, if_pos (And.intro hudp (by simp [hnull]))] at h
  split_ifs at h
  split at h
  · cases h
  · split_ifs at h
    obtain ⟨-, -, h⟩ := bind_eq_ok.mp h
    cases h

theorem DirectOutbound.hasStream_of_dialUdp {A : Asio} {req : SessionRequest}
    (h : dialUdp A req = .ok ()) : req.clientDatagramStream = true := by
  by_contra hnull
  rw [dialUdp, if_pos (by simp [hnull])] at h
  cases h

theorem ClientStreams.datagramStreamOf_session {sid : UInt64} {req : SessionRequest}
    (h : req.clientDatagramStream = true) :
    (ClientStreams.session sid).datagramStreamOf req = clientDatagramStream sid := if_pos h

/-- The handler of a shine session is served like every other client. -/
theorem Outbound.serve_session (A : Asio) (sid : UInt64) (req : SessionRequest) (ob : Outbound) :
    ob.serve A (.session sid) req = ob.handle A sid req := by
  have hbridge {τ : Type} (dialled : StatusOr τ) :
      bridgeTo ((ClientStreams.session sid).streamOf req) dialled = bridge sid req dialled := by
    cases dialled <;> rfl
  cases ob with
  | direct =>
    rw [serve, handle, DirectOutbound.handle]
    split_ifs with hudp
    · rw [DirectOutbound.handleUdp]
      cases hdial : DirectOutbound.dialUdp A req with
      | error st => rfl
      | ok u =>
        rw [ClientStreams.datagramStreamOf_session (DirectOutbound.hasStream_of_dialUdp hdial)]
        rfl
    · exact hbridge _
  | block => rfl
  | socks5 cfg => exact hbridge _
  | httpConnect cfg => exact hbridge _
  | shine o =>
    rw [serve, handle, ShineOutbound.handle]
    split_ifs with hudp
    · cases hdial : o.dial req with
      | error st => rfl
      | ok u =>
        rw [ClientStreams.datagramStreamOf_session (ShineOutbound.hasStream_of_dial hdial hudp)]
        rfl
    · exact hbridge _

/-! ## Calls on null pointers -/

/-- The methods of a stream make no call on a null pointer. -/
structure SessionStream.Sound (s : SessionStream HandlerOp HandlerOp.Ans) : Prop where
  read : ∀ n, Co.Clean HandlerOp.IsNull (s.read n)
  write : ∀ data, Co.Clean HandlerOp.IsNull (s.write data)
  shutdownWrite : Co.Clean HandlerOp.IsNull s.shutdownWrite
  close : Co.Clean HandlerOp.IsNull s.close

@[inherit_doc SessionStream.Sound]
structure DatagramStream.Sound (s : DatagramStream HandlerOp HandlerOp.Ans) : Prop where
  sendTo : ∀ data target, Co.Clean HandlerOp.IsNull (s.sendTo data target)
  receiveFrom : Co.Clean HandlerOp.IsNull s.receiveFrom
  close : Co.Clean HandlerOp.IsNull s.close

structure ClientStreams.Sound (c : ClientStreams) : Prop where
  stream : c.stream.Sound
  datagramStream : c.datagramStream.Sound

theorem clean_remote (op : RemoteOp) : Co.Clean HandlerOp.IsNull (remote op) := .await id

theorem remoteStream_sound : remoteStream.Sound where
  read _ := clean_remote _
  write _ := clean_remote _
  shutdownWrite := clean_remote _
  close := clean_remote _

theorem remoteDatagramStream_sound : ShineOutbound.remoteDatagramStream.Sound where
  sendTo _ _ := clean_remote _
  receiveFrom := clean_remote _
  close := clean_remote _

/-! ### The clients -/

theorem clean_injected {receive : Handler (StatusOr Datagram)}
    (h : Co.Clean HandlerOp.IsNull receive) :
    Co.Clean HandlerOp.IsNull (ClientStreams.injected receive) := by
  refine .bind (.await id) fun r => ?_
  cases r with
  | none => exact h
  | some first => exact .ret _

theorem ClientStreams.socket_sound : ClientStreams.socket.Sound where
  stream := remoteStream_sound
  datagramStream :=
    { sendTo := fun _ _ => clean_remote _
      receiveFrom := clean_injected (clean_remote _)
      close := clean_remote _ }

/-! ### The relays -/

section Relays

variable {a b : SessionStream HandlerOp HandlerOp.Ans}
  {src dst client : DatagramStream HandlerOp HandlerOp.Ans}

theorem clean_halfCopy (ha : a.Sound) (hb : b.Sound) :
    Co.Clean HandlerOp.IsNull (halfCopy a b) := by
  refine .bind (.loop fun _ => .bind (ha.read _) fun r => ?_) fun _ => hb.shutdownWrite
  rcases r with st | data
  · exact .ret _
  · cases data with
    | nil => exact .ret _
    | cons x xs =>
      refine .bind (hb.write _) fun r => ?_
      cases r <;> exact .ret _

theorem clean_bidiCopy (ha : a.Sound) (hb : b.Sound) :
    Co.Clean HandlerOp.IsNull (bidiCopy a b) :=
  .bind (.par (clean_halfCopy ha hb) (clean_halfCopy hb ha)) fun _ =>
    .bind ha.close fun _ => hb.close

section Datagrams

variable {bad : HandlerOp → Prop}

theorem clean_relay (hreceive : Co.Clean bad src.receiveFrom)
    (hsend : ∀ payload t, Co.Clean bad (dst.sendTo payload t)) (hclose : Co.Clean bad dst.close) :
    Co.Clean bad (ShineOutbound.relay src dst) := by
  refine .bind (.loop fun _ => .bind hreceive fun r => ?_) fun _ => hclose
  rcases r with st | ⟨payload, t⟩
  · exact .ret _
  · refine .bind (hsend _ _) fun r => ?_
    cases r <;> exact .ret _

theorem clean_destination (hnow : ¬ bad (.remote .now))
    (hresolve : ∀ t, ¬ bad (.remote (.resolveOne t))) (cache : DirectOutbound.Cache)
    (t : Address) : Co.Clean bad (DirectOutbound.destination cache t) := by
  have hcached (name : Bytes) : Co.Clean bad (DirectOutbound.cached cache name) := by
    rw [DirectOutbound.cached]
    split
    · exact .ret _
    · exact .bind (.await hnow) fun _ => .ret _
  cases t with
  | ipv4 bytes port => exact .ret _
  | ipv6 bytes port => exact .ret _
  | domain name port =>
    refine .bind (hcached name) fun r => ?_
    cases r with
    | some dest => exact .ret _
    | none =>
      refine .bind (.await (hresolve _)) fun r => ?_
      cases r with
      | error st => exact .ret _
      | ok dest =>
        dsimp only
        split_ifs
        · exact .bind (.await hnow) fun _ => .ret _
        · exact .ret _

theorem clean_readClient (hnow : ¬ bad (.remote .now))
    (hresolve : ∀ t, ¬ bad (.remote (.resolveOne t)))
    (hsend : ∀ payload dest, ¬ bad (.remote (.asyncSendTo payload dest)))
    (hclose : ¬ bad (.remote .close)) (hreceive : Co.Clean bad client.receiveFrom) :
    Co.Clean bad (DirectOutbound.readClient client) := by
  refine .bind (.loop fun cache => .bind hreceive fun r => ?_) fun _ => .await hclose
  rcases r with st | ⟨payload, t⟩
  · exact .ret _
  · refine .bind (clean_destination hnow hresolve cache t) fun r => ?_
    obtain ⟨dest | dest, cache⟩ := r
    · exact .ret _
    · exact .bind (.await (hsend _ _)) fun _ => .ret _

theorem clean_readRemote (hreceive : ¬ bad (.remote .asyncReceiveFrom))
    (hsend : ∀ payload t, Co.Clean bad (client.sendTo payload t))
    (hclose : Co.Clean bad client.close) : Co.Clean bad (DirectOutbound.readRemote client) := by
  refine .bind (.loop fun _ => .bind (.await hreceive) fun r => ?_) fun _ => hclose
  rcases r with st | ⟨payload, sender⟩
  · exact .ret _
  · refine .bind (hsend _ _) fun r => ?_
    cases r <;> exact .ret _

end Datagrams

theorem clean_bridgeTo {τ : Type} {dialled : StatusOr τ} (h : a.Sound) :
    Co.Clean HandlerOp.IsNull (bridgeTo a dialled) := by
  cases dialled with
  | error st => exact .ret _
  | ok _ => exact .bind (clean_bidiCopy h remoteStream_sound) fun _ => .ret _

theorem clean_relayBy {m n : Handler Unit} {dialled : StatusOr Unit}
    (hm : Co.Clean HandlerOp.IsNull m) (hn : Co.Clean HandlerOp.IsNull n) :
    Co.Clean HandlerOp.IsNull (relayBy m n dialled) := by
  cases dialled with
  | error st => exact .ret _
  | ok _ => exact .bind (.par hm hn) fun _ => .ret _

end Relays

namespace Outbound

/-- The pointer that the outbound works on is null. -/
def Lacks (req : SessionRequest) : Outbound → Prop
  | .direct | .shine _ =>
    if req.protocol = .udp then req.clientDatagramStream = false else req.clientStream = false
  | .block => False
  | .socks5 _ | .httpConnect _ => req.clientStream = false

/-- No call is made on a null pointer, and `handle` ends with an error where it lacks the
stream it works on. -/
def StreamSafe (A : Asio) (c : ClientStreams) (req : SessionRequest) (ob : Outbound) : Prop :=
  Co.Never HandlerOp.IsNull (ob.serve A c req) ∧
    (ob.Lacks req → ∀ r, Co.Reaches (ob.serve A c req) (.ret r) → ∃ st, r = .error st)

variable {A : Asio} {c : ClientStreams} {req : SessionRequest} {ob : Outbound}

/-- An outbound that has its stream makes no call on a null pointer. -/
theorem serve_clean (hc : c.Sound) (h : ¬ ob.Lacks req) :
    Co.Clean HandlerOp.IsNull (ob.serve A c req) := by
  have hstream (hs : req.clientStream = true) : (c.streamOf req).Sound := by
    rw [ClientStreams.streamOf, if_pos hs]
    exact hc.stream
  have hdatagram (hs : req.clientDatagramStream = true) : (c.datagramStreamOf req).Sound := by
    rw [ClientStreams.datagramStreamOf, if_pos hs]
    exact hc.datagramStream
  cases ob with
  | direct =>
    rw [serve]
    rw [Lacks] at h
    split_ifs at h ⊢ with hudp
    · have hsound := hdatagram (eq_true_of_ne_false h)
      exact clean_relayBy
        (clean_readClient id (fun _ => id) (fun _ _ => id) id hsound.receiveFrom)
        (clean_readRemote id hsound.sendTo hsound.close)
    · exact clean_bridgeTo (hstream (eq_true_of_ne_false h))
  | block =>
    rw [serve]
    split_ifs with hs
    · exact .bind (hstream hs).shutdownWrite fun _ => .bind (hstream hs).close fun _ => .ret _
    · exact .ret _
  | socks5 cfg => exact clean_bridgeTo (hstream (eq_true_of_ne_false h))
  | httpConnect cfg => exact clean_bridgeTo (hstream (eq_true_of_ne_false h))
  | shine o =>
    rw [serve]
    rw [Lacks] at h
    split_ifs at h ⊢ with hudp
    · have hsound := hdatagram (eq_true_of_ne_false h)
      have hremote := remoteDatagramStream_sound
      exact clean_relayBy (clean_relay hsound.receiveFrom hremote.sendTo hremote.close)
        (clean_relay hremote.receiveFrom hsound.sendTo hsound.close)
    · exact clean_bridgeTo (hstream (eq_true_of_ne_false h))

theorem streamSafe_of_not_lacks (hc : c.Sound) (h : ¬ ob.Lacks req) : ob.StreamSafe A c req :=
  ⟨(serve_clean hc h).never, fun hlacks => absurd hlacks h⟩

end Outbound

/-- Once the remote end has been reached, the first thing that is done is a call on the stream
of the client. -/
theorem not_never_bridgeTo {τ : Type} {c : ClientStreams} {req : SessionRequest} (t : τ)
    (hnull : req.clientStream = false) :
    ¬ Co.Never HandlerOp.IsNull (bridgeTo (c.streamOf req) (.ok t : StatusOr τ)) := by
  intro hnever
  rw [ClientStreams.streamOf, if_neg (by simp [hnull])] at hnever
  refine hnever _ (.own .refl (.left .iter)) .null ?_ trivial
  exact .left .call

end Shine
