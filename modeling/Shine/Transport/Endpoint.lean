import Shine.Transport.Address

/-!
# Addresses as text, and connections (`transport/address.cpp`)

`Address::parseHostPort`, `toString` and `resolveOne`, and the TCP connection that the
outbounds talk on while they set it up. What the code takes from Boost.Asio and
Abseil is a parameter, `Asio`: the texts of IPv6 addresses, Base64, what the resolver
answers, which endpoints accept a connection and what the other end then sends.

A connection delivers its bytes in pieces. `asyncRead` takes an exact number of bytes
across pieces; `asyncReadUntil` takes whole pieces until it has seen the delimiter, so
bytes behind the delimiter may end up in its buffer.
-/

namespace Shine

/-- `tcp::endpoint`. -/
inductive Endpoint where
  | v4 (bytes : ByteArrayN 4) (port : UInt16)
  | v6 (bytes : ByteArrayN 16) (port : UInt16)
  deriving DecidableEq

/-- A connected `tcp::socket`: the pieces that will arrive and the error of a read
behind them, how many bytes can still be written and the error of a write beyond
that, and what has been written. -/
structure Socket where
  incoming : List Bytes
  readError : Bytes
  room : Nat
  writeError : Bytes
  outgoing : Bytes
  deriving DecidableEq

/-- The library functions that the code calls. Errors are given by their messages. -/
structure Asio where
  /-- `make_address_v6`. -/
  makeAddressV6 : Bytes → Option (ByteArrayN 16)
  /-- `address_v6::to_string`. -/
  addressV6ToString : ByteArrayN 16 → Bytes
  /-- `absl::Base64Escape`. -/
  base64Escape : Bytes → Bytes
  /-- `resolver::async_resolve`. -/
  asyncResolve : Bytes → UInt16 → Except Bytes (List Endpoint)
  /-- `socket::async_connect`. -/
  asyncConnect : Endpoint → Except Bytes Socket
  /-- `udp::socket::bind`. -/
  bindUdp : Except Bytes Unit

/-- The port of an endpoint. -/
def Endpoint.port : Endpoint → UInt16
  | .v4 _ port => port
  | .v6 _ port => port

/-- A network without IPv6 addresses in which every name, every connection and every UDP socket
goes the same way. -/
def Asio.sample (resolved : Except Bytes (List Endpoint)) (connected : Except Bytes Socket)
    (bound : Except Bytes Unit) : Asio where
  makeAddressV6 _ := none
  addressV6ToString _ := []
  base64Escape := id
  asyncResolve _ _ := resolved
  asyncConnect _ := connected
  bindUdp := bound

namespace Address

/-- `absl::SimpleAtoi` into an `int`. -/
def atoiInt (s : Bytes) : Option Int := simpleAtoi (-(2 ^ 31)) (2 ^ 31 - 1) s

/-- One part of a dotted quad. -/
def parseOctet (part : Bytes) : Option UInt8 :=
  match atoiInt part with
  | some v => if v < 0 ∨ v > 255 then none else some v.toNat.toUInt8
  | none => none

/-- `parseIPv4`. -/
def parseIPv4 (s : Bytes) : Option (ByteArrayN 4) :=
  match s.splitOn 46 with
  | [a, b, c, d] =>
    match parseOctet a, parseOctet b, parseOctet c, parseOctet d with
    | some a, some b, some c, some d => some ⟨[a, b, c, d], rfl⟩
    | _, _, _, _ => none
  | _ => none

/-- The port of a `host:port` text. -/
def parsePort (portS : Bytes) : StatusOr UInt16 :=
  match atoiInt portS with
  | some v =>
    if v ≤ 0 ∨ v > 65535 then .error (.invalidArgument (ascii "bad port"))
    else .ok v.toNat.toUInt16
  | none => .error (.invalidArgument (ascii "bad port"))

/-- The part of `parseHostPort` for a text that starts with a bracket; `s` is what
follows it. -/
def parseBracketed (A : Asio) (s : Bytes) : StatusOr Address :=
  match s.dropWhile (· ≠ 93) with
  | [] => .error (.invalidArgument (ascii "missing ]"))
  | _ :: 58 :: portS => do
    let port ← parsePort portS
    match A.makeAddressV6 (s.takeWhile (· ≠ 93)) with
    | none => .error (.invalidArgument (ascii "bad ipv6"))
    | some bytes => .ok (.ipv6 bytes port)
  | _ => .error (.invalidArgument (ascii "missing :port"))

/-- `Address::parseHostPort`. -/
def parseHostPort (A : Asio) (s : Bytes) : StatusOr Address :=
  match s with
  | [] => .error (.invalidArgument (ascii "empty address"))
  | 91 :: rest => parseBracketed A rest
  | _ =>
    if 58 ∈ s then do
      -- the last colon separates the port
      let portS := (s.reverse.takeWhile (· ≠ 58)).reverse
      let host := s.take (s.length - portS.length - 1)
      let port ← parsePort portS
      match parseIPv4 host with
      | some bytes => .ok (.ipv4 bytes port)
      | none => .ok (.domain host port)
    else .error (.invalidArgument (ascii "missing :port"))

/-- `Address::toString`. -/
def toText (A : Asio) : Address → Bytes
  | .ipv4 bytes port =>
    [46].intercalate (bytes.1.map fun b => strDec b.toNat) ++ [58] ++ strDec port.toNat
  | .ipv6 bytes port => [91] ++ A.addressV6ToString bytes ++ [93, 58] ++ strDec port.toNat
  | .domain name port => name ++ [58] ++ strDec port.toNat

/-- `Address::resolveOne`. -/
def resolveOne (A : Asio) : Address → StatusOr Endpoint
  | .ipv4 bytes port => .ok (.v4 bytes port)
  | .ipv6 bytes port => .ok (.v6 bytes port)
  | .domain name port =>
    match A.asyncResolve name port with
    | .error message => .error (.unavailable (ascii "resolve failed: " ++ message))
    | .ok [] => .error (.notFound (ascii "no endpoints"))
    | .ok (ep :: _) => .ok ep

end Address

/-- `async_connect`, with its error as a status. -/
def Asio.connect (A : Asio) (ep : Endpoint) : StatusOr Socket :=
  (A.asyncConnect ep).mapError .unavailable

namespace Socket

/-- `asio::async_write`. -/
def asyncWrite (c : Socket) (data : Bytes) : StatusOr Socket :=
  if data.length ≤ c.room then
    .ok { c with room := c.room - data.length, outgoing := c.outgoing ++ data }
  else .error (.unavailable c.writeError)

/-- The first `n` bytes of the pieces, and what is left. -/
def takeBytes (n : Nat) : List Bytes → Option (Bytes × List Bytes)
  | [] => if n = 0 then some ([], []) else none
  | piece :: rest =>
    if n ≤ piece.length then some (piece.take n, piece.drop n :: rest)
    else (takeBytes (n - piece.length) rest).map fun (out, rest') => (piece ++ out, rest')

/-- `asio::async_read` of exactly `n` bytes. -/
def asyncRead (c : Socket) (n : Nat) : StatusOr (Bytes × Socket) :=
  match takeBytes n c.incoming with
  | some (out, rest) => .ok (out, { c with incoming := rest })
  | none => .error (.unavailable c.readError)

/-- Append pieces to `buf` until it contains the delimiter. -/
def takeUntil (delim buf : Bytes) : List Bytes → Option (Bytes × List Bytes)
  | [] => if delim <:+: buf then some (buf, []) else none
  | piece :: rest =>
    if delim <:+: buf then some (buf, piece :: rest) else takeUntil delim (buf ++ piece) rest

/-- `asio::async_read_until` into an empty buffer. -/
def asyncReadUntil (c : Socket) (delim : Bytes) : StatusOr (Bytes × Socket) :=
  match takeUntil delim [] c.incoming with
  | some (out, rest) => .ok (out, { c with incoming := rest })
  | none => .error (.unavailable c.readError)

end Socket

end Shine
