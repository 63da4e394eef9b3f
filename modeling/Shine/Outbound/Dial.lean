import Shine.Transport.Endpoint
import Shine.Transport.Session

/-!
# How the outbounds reach the remote end (`outbound/*.cpp`)

The part of each `handle` before it bridges the client with the remote end. Nothing
here touches the client's stream: the result is either the remote connection or the
status with which `handle` returns early. The two proxies speak their handshakes
byte for byte.
-/

namespace Shine

/-- `SessionRequest`. The streams are pointers to the session of the request, or null. -/
structure SessionRequest where
  inboundTag : Bytes
  inboundProtocol : Bytes
  protocol : Protocol
  target : Address
  clientStream : Bool
  clientDatagramStream : Bool
  deriving DecidableEq

/-! ## Direct -/

/-- `DirectOutbound::handle`, for TCP, up to `bidiCopy`. -/
def DirectOutbound.dial (A : Asio) (req : SessionRequest) : StatusOr Socket := do
  let ep ← req.target.resolveOne A
  A.connect ep

/-- `DirectOutbound::handleUdp` up to its two coroutines. -/
def DirectOutbound.dialUdp (A : Asio) (req : SessionRequest) : StatusOr Unit :=
  if !req.clientDatagramStream then .error (.invalidArgument (ascii "no client udp stream"))
  else A.bindUdp.mapError .unavailable

/-! ## SOCKS5 -/

/-- The configuration of a proxy: its address and the credentials. -/
structure ProxyConfig where
  server : Bytes
  user : Bytes
  pass : Bytes
  deriving DecidableEq

/-- Connect to a proxy. -/
def ProxyConfig.connect (A : Asio) (cfg : ProxyConfig) : StatusOr Socket := do
  let server ← Address.parseHostPort A cfg.server
  let ep ← server.resolveOne A
  A.connect ep

namespace Socks5Outbound

/-- The method selection: no authentication and user name with password are offered,
but without a user only three of the four bytes are sent. -/
def greeting (cfg : ProxyConfig) : Bytes :=
  ([5, 2, 0, 2] : Bytes).take (if cfg.user ≠ [] then 4 else 3)

/-- The user name and password message. -/
def credentials (cfg : ProxyConfig) : Bytes :=
  [1, cfg.user.length.toUInt8] ++ cfg.user ++ [cfg.pass.length.toUInt8] ++ cfg.pass

/-- The user name and password exchange. -/
def authenticate (cfg : ProxyConfig) (c : Socket) : StatusOr Socket := do
  let c ← c.asyncWrite (credentials cfg)
  let (ar, c) ← c.asyncRead 2
  if ar.getD 1 0 ≠ 0 then .error (.unauthenticated (ascii "socks5 auth failed")) else .ok c

/-- Method selection, with the authentication that the server asks for. -/
def selectMethod (cfg : ProxyConfig) (c : Socket) : StatusOr Socket := do
  let c ← c.asyncWrite (greeting cfg)
  let (reply, c) ← c.asyncRead 2
  if reply.getD 0 0 ≠ 5 then .error (.unavailable (ascii "bad socks5 ver"))
  else if reply.getD 1 0 = 0xFF then .error (.unavailable (ascii "no acceptable method"))
  else if reply.getD 1 0 = 2 then authenticate cfg c
  else .ok c

/-- The target of the CONNECT request. -/
def targetBytes : Address → Bytes
  | .ipv4 bytes port => [1] ++ bytes.1 ++ Address.portBytes port
  | .ipv6 bytes port => [4] ++ bytes.1 ++ Address.portBytes port
  | .domain name port => [3, (min 255 name.length).toUInt8] ++ name ++ Address.portBytes port

/-- How many bytes of the reply's bound address are still to come. -/
def boundLength (atyp : UInt8) (c : Socket) : StatusOr (Nat × Socket) :=
  if atyp = 1 then .ok (4, c)
  else if atyp = 4 then .ok (16, c)
  else if atyp = 3 then do
    let (dl, c) ← c.asyncRead 1
    .ok ((dl.getD 0 0).toNat, c)
  else .error (.unavailable (ascii "bad socks5 atyp"))

/-- The CONNECT request and its reply. -/
def requestConnect (target : Address) (c : Socket) : StatusOr Socket := do
  let c ← c.asyncWrite ([5, 1, 0] ++ targetBytes target)
  let (rep, c) ← c.asyncRead 4
  if rep.getD 1 0 ≠ 0 then .error (.unavailable (ascii "socks5 CONNECT rejected"))
  else do
    let (extra, c) ← boundLength (rep.getD 3 0) c
    let (_, c) ← c.asyncRead (extra + 2)
    .ok c

/-- `Socks5Outbound::handle` up to `bidiCopy`. -/
def dial (A : Asio) (cfg : ProxyConfig) (req : SessionRequest) : StatusOr Socket := do
  let c ← cfg.connect A
  let c ← selectMethod cfg c
  requestConnect req.target c

end Socks5Outbound

/-! ## HTTP CONNECT -/

namespace HttpConnectOutbound

/-- The request with its headers. -/
def requestText (A : Asio) (cfg : ProxyConfig) (target : Address) : Bytes :=
  let hostPort := target.toText A
  ascii "CONNECT " ++ hostPort ++ ascii " HTTP/1.1\r\nHost: " ++ hostPort ++ crlf
    ++ (if cfg.user ≠ [] then
        ascii "Proxy-Authorization: Basic " ++ A.base64Escape (cfg.user ++ [58] ++ cfg.pass) ++ crlf
      else [])
    ++ crlf

/-- `HttpConnectOutbound::handle` up to `bidiCopy`. -/
def dial (A : Asio) (cfg : ProxyConfig) (req : SessionRequest) : StatusOr Socket := do
  let c ← cfg.connect A
  let c ← c.asyncWrite (requestText A cfg req.target)
  let (sb, c) ← c.asyncReadUntil (crlf ++ crlf)
  -- `std::getline`
  let status := sb.takeWhile (· ≠ lf)
  if ascii " 200 " <:+: status then .ok c
  else .error (.unavailable (ascii "http connect failed: " ++ status))

end HttpConnectOutbound

/-! ## Shine -/

/-- A link of a shine outbound, by what its calls answer. -/
structure PooledLink where
  waitHandshake : Bool
  openSession : Address → Bool → StatusOr Unit

/-- `ShineOutbound`, by what `handle` reads of it. -/
structure ShineOutbound where
  stopping : Bool
  pickOrMakeLink : Option PooledLink

/-- `ShineOutbound::handle` up to the relay. -/
def ShineOutbound.dial (o : ShineOutbound) (req : SessionRequest) : StatusOr Unit :=
  if o.stopping then .error (.unavailable (ascii "stopped"))
  else match o.pickOrMakeLink with
    | none => .error (.unavailable (ascii "no live link"))
    | some link =>
      if !link.waitHandshake then .error (.unavailable (ascii "shine link handshake failed"))
      else do
        link.openSession req.target (req.protocol = .udp)
        if req.protocol = .udp ∧ !req.clientDatagramStream then
          .error (.invalidArgument (ascii "no client udp stream"))
        else .ok ()

end Shine
