import Shine.Outbound.Dial
import Shine.Transport.Pipe

/-!
# The outbounds' `handle` and `dispatch` of `main.cpp`

What happens to a request once an inbound has made it: `dispatch` picks the outbound,
whose `handle` reaches the remote end (`Outbound.Dial`) and then relays between it and
the client until both directions have ended.

The client is a session of a shine link. Its methods are called through the request's
stream, by the inbound itself, or on a null pointer, for which the code has no
behaviour; `HandlerOp` tells these apart. The remote end answers anything at any time.
-/

namespace Shine

/-- Calls on the remote end, and on the resolver and the clock while relaying. -/
inductive RemoteOp where
  | read (n : Nat)
  | write (data : Bytes)
  | shutdownWrite
  | close
  /-- `sendTo` and `receiveFrom` of a remote session. -/
  | sendTo (data : Bytes) (target : Address)
  | receiveFrom
  /-- `async_send_to` and `async_receive_from` of a UDP socket. -/
  | asyncSendTo (data : Bytes) (dest : Endpoint)
  | asyncReceiveFrom
  | resolveOne (target : Address)
  /-- `absl::Now`, in nanoseconds. -/
  | now

/-- What they answer. -/
abbrev RemoteOp.Ans : RemoteOp → Type
  | .read _ => StatusOr Bytes
  | .write _ | .sendTo .. => StatusOr Unit
  | .shutdownWrite | .close | .asyncSendTo .. => Unit
  | .receiveFrom => StatusOr Datagram
  | .asyncReceiveFrom => Except Bytes (Bytes × Endpoint)
  | .resolveOne _ => StatusOr Endpoint
  | .now => Int

/-- Who calls a method of the session: the inbound, or an outbound through the
request's stream. -/
inductive Caller where
  | inbound
  | outbound
  deriving DecidableEq

/-- The operations of the handler of a session. -/
inductive HandlerOp where
  | session (caller : Caller) (op : SessionOp)
  /-- Construct the `InjectedStream`, with the first datagram. -/
  | inject (first : Datagram)
  /-- Take the datagram out of the `InjectedStream`, if it is still there. -/
  | takeInjected
  /-- Pass the request to `on_req`. -/
  | onReq (req : SessionRequest)
  | remote (op : RemoteOp)
  /-- A method called on a null stream. -/
  | null

abbrev HandlerOp.Ans : HandlerOp → Type
  | .session _ op => op.Ans
  | .inject _ | .onReq _ => Unit
  | .takeInjected => Option Datagram
  | .remote op => op.Ans
  | .null => Empty

/-- A part of the handler. -/
abbrev Handler := Co HandlerOp HandlerOp.Ans

namespace Handler

/-- A piece of a method of the session. -/
def piece (caller : Caller) (op : SessionOp) : Handler op.Ans :=
  Co.await (HandlerOp.session caller op)

/-- A call on the remote end. -/
def remote (op : RemoteOp) : Handler op.Ans := Co.await (HandlerOp.remote op)

/-- A call on a null pointer. -/
def null {α : Type} : Handler α := .call .null nofun

/-- `req.client_stream`. -/
def clientStream (req : SessionRequest) (sid : UInt64) :
    SessionStream HandlerOp HandlerOp.Ans :=
  if req.clientStream then Session.stream (piece .outbound) sid
  else ⟨fun _ => null, fun _ => null, null, null⟩

/-- `req.client_datagram_stream`: the `InjectedStream` around the session. -/
def clientDatagramStream (sid : UInt64) : DatagramStream HandlerOp HandlerOp.Ans where
  sendTo := Session.sendTo (piece .outbound) sid
  receiveFrom := do
    match ← Co.await HandlerOp.takeInjected with
    | some first => return .ok first
    | none => Session.receiveFrom (piece .outbound)
  close := piece .outbound .close

/-- The remote end as a stream. -/
def remoteStream : SessionStream HandlerOp HandlerOp.Ans where
  read n := remote (.read n)
  write data := remote (.write data)
  shutdownWrite := remote .shutdownWrite
  close := remote .close

end Handler

open Handler

/-- Return early with the error of `dialled`, or bridge. -/
def bridge {τ : Type} (sid : UInt64) (req : SessionRequest) (dialled : StatusOr τ) :
    Handler (StatusOr Unit) :=
  match dialled with
  | .error st => return .error st
  | .ok _ => do
    bidiCopy (clientStream req sid) remoteStream
    return .ok ()

/-! ## Relaying datagrams -/

namespace DirectOutbound

/-- The resolver cache of `handleUdp`: the endpoint of a domain, and when it was
resolved. -/
abbrev Cache := List (Bytes × Endpoint × Int)

/-- `cache[domain] = …`. -/
def Cache.set (cache : Cache) (domain : Bytes) (dest : Endpoint) (time : Int) : Cache :=
  (domain, dest, time) :: cache.filter (·.1 ≠ domain)

/-- The cached endpoint, if there is one that is less than a minute old. -/
def cached (cache : Cache) (domain : Bytes) : Handler (Option Endpoint) := do
  match cache.lookup domain with
  | none => return none
  | some (dest, time) =>
    let now ← remote .now
    return if now - time < 60 * 10 ^ 9 then some dest else none

/-- Where a datagram for `t` goes, if that can be found out, and the cache after it. -/
def destination (cache : Cache) (t : Address) : Handler (Option Endpoint × Cache) := do
  match t with
  | .ipv4 bytes port => return (some (.v4 bytes port), cache)
  | .ipv6 bytes port => return (some (.v6 bytes port), cache)
  | .domain name port =>
    match ← cached cache name with
    | some dest => return (some dest, cache)
    | none =>
      match ← remote (.resolveOne (.domain name port)) with
      | .error _ => return (none, cache)
      | .ok dest =>
        if cache.length < 1024 ∨ (cache.lookup name).isSome then
          let now ← remote .now
          return (some dest, cache.set name dest now)
        else return (some dest, cache)

/-- A turn of the loop of `read_client`. -/
def clientTurn (client : DatagramStream HandlerOp HandlerOp.Ans) (cache : Cache) :
    Handler (Cache ⊕ Unit) := do
  match ← client.receiveFrom with
  | .error _ => return .inr ()
  | .ok (payload, t) =>
    match ← destination cache t with
    | (none, cache) => return .inl cache
    | (some dest, cache) =>
      remote (.asyncSendTo payload dest)
      return .inl cache

/-- `read_client`. -/
def readClient (client : DatagramStream HandlerOp HandlerOp.Ans) : Handler Unit := do
  Co.loop (clientTurn client) ([] : Cache)
  remote .close

/-- The address of a sender. -/
def source : Endpoint → Address
  | .v4 bytes port => .ipv4 bytes port
  | .v6 bytes port => .ipv6 bytes port

/-- `read_remote`. -/
def readRemote (client : DatagramStream HandlerOp HandlerOp.Ans) : Handler Unit := do
  Co.loop (fun _ : Unit => do
    match ← remote .asyncReceiveFrom with
    | .error _ => return .inr ()
    | .ok (payload, sender) =>
      match ← client.sendTo payload (source sender) with
      | .error _ => return .inr ()
      | .ok () => return .inl ()) ()
  client.close

/-- `DirectOutbound::handleUdp`. -/
def handleUdp (A : Asio) (sid : UInt64) (req : SessionRequest) : Handler (StatusOr Unit) :=
  match dialUdp A req with
  | .error st => return .error st
  | .ok () => do
    Co.par (readClient (clientDatagramStream sid)) (readRemote (clientDatagramStream sid))
    return .ok ()

/-- `DirectOutbound::handle`. -/
def handle (A : Asio) (sid : UInt64) (req : SessionRequest) : Handler (StatusOr Unit) :=
  if req.protocol = .udp then handleUdp A sid req else bridge sid req (dial A req)

end DirectOutbound

namespace ShineOutbound

/-- One direction of the UDP relay. -/
def relay (src dst : DatagramStream HandlerOp HandlerOp.Ans) : Handler Unit := do
  Co.loop (fun _ : Unit => do
    match ← src.receiveFrom with
    | .error _ => return .inr ()
    | .ok (payload, t) =>
      match ← dst.sendTo payload t with
      | .error _ => return .inr ()
      | .ok () => return .inl ()) ()
  dst.close

/-- The session opened on the outbound's link, as a datagram stream. -/
def remoteDatagramStream : DatagramStream HandlerOp HandlerOp.Ans where
  sendTo data target := remote (.sendTo data target)
  receiveFrom := remote .receiveFrom
  close := remote .close

/-- `ShineOutbound::handle`. -/
def handle (o : ShineOutbound) (sid : UInt64) (req : SessionRequest) :
    Handler (StatusOr Unit) :=
  if req.protocol = .udp then
    match o.dial req with
    | .error st => return .error st
    | .ok () => do
      Co.par (relay (clientDatagramStream sid) remoteDatagramStream)
        (relay remoteDatagramStream (clientDatagramStream sid))
      return .ok ()
  else bridge sid req (o.dial req)

end ShineOutbound

/-- `BlockOutbound::handle`. -/
def BlockOutbound.handle (sid : UInt64) (req : SessionRequest) : Handler (StatusOr Unit) := do
  if req.clientStream then
    (clientStream req sid).shutdownWrite
    (clientStream req sid).close
  return .ok ()

/-- The outbounds that `outbound/factory.cpp` makes. -/
inductive Outbound where
  | direct
  | block
  | socks5 (cfg : ProxyConfig)
  | httpConnect (cfg : ProxyConfig)
  | shine (o : ShineOutbound)

/-- `handle`. -/
def Outbound.handle (A : Asio) (sid : UInt64) (req : SessionRequest) :
    Outbound → Handler (StatusOr Unit)
  | .direct => DirectOutbound.handle A sid req
  | .block => BlockOutbound.handle sid req
  | .socks5 cfg => bridge sid req (Socks5Outbound.dial A cfg req)
  | .httpConnect cfg => bridge sid req (HttpConnectOutbound.dial A cfg req)
  | .shine o => o.handle sid req

/-- What `dispatch` works with: `Router::pick`, empty where no rule matches and there
is no default, and the outbounds by their tags. -/
structure Dispatcher where
  asio : Asio
  pick : SessionRequest → Bytes
  outbounds : Bytes → Option Outbound

/-- `dispatch` of `main.cpp`. -/
def Dispatcher.dispatch (d : Dispatcher) (sid : UInt64) (req : SessionRequest) : Handler Unit :=
  if d.pick req = [] then return ()
  else match d.outbounds (d.pick req) with
    | none => return ()
    | some ob => do
      let _ ← ob.handle d.asio sid req
      return ()

end Shine
