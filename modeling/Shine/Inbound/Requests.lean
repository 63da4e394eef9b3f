import Shine.Config.Schema
import Shine.Inbound.Release
import Shine.Inbound.Targets

/-!
# The requests that inbounds make (`inbound/*.cpp`)

Each inbound ends its part with a `SessionRequest`. A TCP request comes with a
`client_stream` and a UDP request with a `client_datagram_stream`, never with both.
-/

namespace Shine

namespace Socks5Inbound

/-- The request for a CONNECT that was granted. -/
def tcpRequest (tag protocol : Bytes) (target : Address) : SessionRequest :=
  { inboundTag := tag, inboundProtocol := protocol, protocol := .tcp, target
    clientStream := true, clientDatagramStream := false }

/-- The request for a UDP ASSOCIATE that was granted; the target is that of the first
datagram. -/
def udpRequest (tag protocol : Bytes) (target : Address) : SessionRequest :=
  { inboundTag := tag, inboundProtocol := protocol, protocol := .udp, target
    clientStream := false, clientDatagramStream := true }

end Socks5Inbound

/-- The inbound, which `makeInbound` makes from its configuration, passes on the request. -/
inductive InboundConfig.Makes (ic : InboundConfig) : SessionRequest → Prop where
  | httpConnect {A : Asio} {c stream : Socket} {req : SessionRequest}
    (hprotocol : ic.protocol = ascii "http-connect")
    (h : HttpConnectInbound.handleClient A ic.tag ic.protocol c = .request req stream) :
    Makes ic req
  | socks5 {localEp : Except Bytes (ByteArrayN 4 × UInt16)} {stream rest : Bytes}
    {target : Address} (hprotocol : ic.protocol = ascii "socks5")
    (h : (Socks5Inbound.handleClient ic.user ic.pass localEp).feed stream
      = some (some (.connect target), rest)) :
    Makes ic (Socks5Inbound.tcpRequest ic.tag ic.protocol target)
  | socks5Udp {localEp : Except Bytes (ByteArrayN 4 × UInt16)} {stream rest packet data : Bytes}
    {target : Address} (hprotocol : ic.protocol = ascii "socks5")
    (h : (Socks5Inbound.handleClient ic.user ic.pass localEp).feed stream
      = some (some .udpAssociate, rest))
    (hfirst : Socks5UdpStream.parseDatagram packet = some (data, target)) :
    Makes ic (Socks5Inbound.udpRequest ic.tag ic.protocol target)
  | shine {target : Address} (hprotocol : ic.protocol = ascii "shine") :
    Makes ic (ShineInbound.tcpRequest ic.tag ic.protocol target)
  | shineUdp {target : Address} (hprotocol : ic.protocol = ascii "shine") :
    Makes ic (ShineInbound.udpRequest ic.tag ic.protocol target)

/-- A request has the stream of its protocol, and only that one. -/
theorem InboundConfig.Makes.streams {ic : InboundConfig} {req : SessionRequest}
    (h : ic.Makes req) :
    req.clientStream = decide (req.protocol = .tcp) ∧
      req.clientDatagramStream = decide (req.protocol = .udp) := by
  cases h with
  | httpConnect hprotocol h =>
    obtain ⟨_, _, _, _, _, _, _, _, _, rfl⟩ := HttpConnectInbound.handleClient_eq_request h
    exact ⟨rfl, rfl⟩
  | socks5 => exact ⟨rfl, rfl⟩
  | socks5Udp => exact ⟨rfl, rfl⟩
  | shine => exact ⟨rfl, rfl⟩
  | shineUdp => exact ⟨rfl, rfl⟩

end Shine
