import Shine.Transport.Endpoint
import Shine.Transport.Pipe

/-!
# The datagrams of a SOCKS5 association (`inbound/socks5_inbound.cpp`)

`Socks5UdpStream` puts a header in front of every datagram that it sends to the client
and takes one off every datagram that the client sends. The decoder reads the layout of
the SOCKS5 protocol, `RSV RSV FRAG ATYP ADDR PORT DATA`, where only a domain name has a
length byte. The encoder appends `Address::toBinary`, which has its own type codes and
a length byte for every kind of address. The two meet on domain names only.
-/

namespace Shine

/-- `Socks5UdpStream`: its UDP socket with the datagrams that will arrive on it and those
it has sent, and the endpoint of the client once that is known. -/
structure Socks5UdpStream where
  isOpen : Bool
  arriving : List (Endpoint × Bytes)
  sent : List (Endpoint × Bytes)
  clientEp : Endpoint

namespace Socks5UdpStream

open Address (portAt arrayAt)

/-- What `sendTo` puts on the wire. -/
def emit (data : Bytes) (target : Address) : Bytes := [0, 0, 0] ++ target.toBinary ++ data

/-- `Socks5UdpStream::sendTo`, on a socket that takes the datagram. -/
def sendTo (s : Socks5UdpStream) (data : Bytes) (target : Address) : StatusOr Socks5UdpStream :=
  if !s.isOpen then .error (.unavailable (ascii "closed"))
  else .ok { s with sent := s.sent ++ [(s.clientEp, emit data target)] }

/-- The header grammar of `receiveFrom`; none where the loop goes on. -/
def parseDatagram (buf : Bytes) : Option Datagram :=
  let n := buf.length
  if n < 4 ∨ buf.getD 0 0 ≠ 0 ∨ buf.getD 1 0 ≠ 0 ∨ buf.getD 2 0 ≠ 0 then none
  else
    let atyp := buf.getD 3 0
    if atyp = 1 then
      if n < 4 + 4 + 2 then none
      else some (buf.drop 10, .ipv4 (arrayAt buf 4 4) (portAt buf 8))
    else if atyp = 3 then
      if n < 4 + 1 then none
      else
        let dlen := (buf.getD 4 0).toNat
        if n < 5 + dlen + 2 then none
        else some (buf.drop (5 + dlen + 2), .domain (slice buf 5 dlen) (portAt buf (5 + dlen)))
    else if atyp = 4 then
      if n < 4 + 16 + 2 then none
      else some (buf.drop 22, .ipv6 (arrayAt buf 4 16) (portAt buf 20))
    else none

/-- `Socks5UdpStream::receiveFrom` over the datagrams that arrive; none where it waits for
the next one. The first sender becomes the client, and others are ignored from then on. -/
def receiveFrom (s : Socks5UdpStream) : Option (StatusOr Datagram × Socks5UdpStream) :=
  if !s.isOpen then some (.error (.unavailable (ascii "closed")), s)
  else go s.clientEp s.arriving
where
  go (clientEp : Endpoint) : List (Endpoint × Bytes) →
      Option (StatusOr Datagram × Socks5UdpStream)
    | [] => none
    | (sender, packet) :: rest =>
      let clientEp' := if clientEp.port = 0 then sender else clientEp
      if sender ≠ clientEp' then go clientEp' rest
      else match parseDatagram (packet.take 65536) with
        | none => go clientEp' rest
        | some d => some (.ok d, { s with clientEp := clientEp', arriving := rest })

/-! ## What the decoder makes of what the encoder emits -/

/-- The grammar for a domain name, read from its length byte on. -/
theorem parseDatagram_domain (l : UInt8) (rest : Bytes) :
    parseDatagram (0 :: 0 :: 0 :: 3 :: l :: rest)
      = if rest.length < l.toNat + 2 then none
        else some (rest.drop (l.toNat + 2),
          .domain (rest.take l.toNat) (portAt rest l.toNat)) := by
  have hlen : (0 :: 0 :: 0 :: 3 :: l :: rest).length = rest.length + 5 := rfl
  have hport : portAt (0 :: 0 :: 0 :: 3 :: l :: rest) (5 + l.toNat) = portAt rest l.toNat := by
    rw [portAt, portAt, Nat.add_comm 5]
    rfl
  have hname : slice (0 :: 0 :: 0 :: 3 :: l :: rest) 5 l.toNat = rest.take l.toNat := rfl
  have hdata : (0 :: 0 :: 0 :: 3 :: l :: rest).drop (5 + l.toNat + 2)
      = rest.drop (l.toNat + 2) := by
    rw [show 5 + l.toNat + 2 = l.toNat + 2 + 5 by omega]
    rfl
  rw [parseDatagram]
  simp only [hlen, List.getD_cons_zero, List.getD_cons_succ, hport, hname, hdata]
  by_cases hshort : rest.length < l.toNat + 2
  · rw [if_pos hshort]
    simp
    omega
  · rw [if_neg hshort]
    simp
    omega

/-- A domain name comes back, as far as its length byte goes. -/
theorem parseDatagram_emit_domain (data name : Bytes) (port : UInt16) :
    parseDatagram (emit data (.domain name port))
      = some (data, .domain (name.take 255) port) := by
  -- the name as `toBinary` cuts it
  generalize hbody : name.take 255 = body
  have hcut : name.take (min name.length 255) = body := by
    rw [← hbody, List.take_eq_take_iff]
    omega
  have hmin : min name.length 255 = body.length := by
    rw [← hbody, List.length_take, Nat.min_comm]
  have hcount : body.length.toUInt8.toNat = body.length :=
    Address.toNat_length_toUInt8 (by omega)
  have hemit : emit data (.domain name port)
      = 0 :: 0 :: 0 :: 3 :: body.length.toUInt8 :: (body ++ (Address.portBytes port ++ data)) := by
    rw [emit, Address.toBinary, hcut, hmin, List.append_assoc, List.append_assoc]
    rfl
  have hdata : (body ++ (Address.portBytes port ++ data)).drop (body.length + 2) = data := by
    rw [← List.drop_drop, List.drop_left]
    rfl
  rw [hemit, parseDatagram_domain, hcount, if_neg (by simp; omega), hdata,
    Address.portAt_append, List.take_left]

/-- The decoder takes the length byte of an IPv4 address for its first byte: what it
reads is shifted by one, and the last byte of the port ends up in the data. -/
theorem parseDatagram_emit_ipv4 (data : Bytes) (a b c d : UInt8) (port : UInt16) :
    parseDatagram (emit data (.ipv4 ⟨[a, b, c, d], rfl⟩ port))
      = some ((port &&& 0xff).toUInt8 :: data,
          .ipv4 ⟨[4, a, b, c], rfl⟩ (Address.portOf d (port >>> 8).toUInt8)) := by
  simp [parseDatagram, emit, Address.toBinary, Address.portBytes, arrayAt, portAt, List.range_succ]

/-- `toBinary` has another type code for IPv6, which the decoder drops. -/
theorem parseDatagram_emit_ipv6 (data : Bytes) (bytes : ByteArrayN 16) (port : UInt16) :
    parseDatagram (emit data (.ipv6 bytes port)) = none := by
  simp [parseDatagram, emit, Address.toBinary]

/-- **The header of a datagram that `sendTo` emits is read back by `receiveFrom` exactly
for domain names.** An IPv4 address comes back shifted by one byte, together with the
port and the data, and a datagram with an IPv6 address is dropped. -/
theorem header_round_trip (data : Bytes) (target : Address) :
    parseDatagram (emit data target) = some (data, target)
      ↔ ∃ name port, target = .domain name port ∧ name.length ≤ 255 := by
  constructor
  · intro h
    cases target with
    | ipv4 bytes port =>
      obtain ⟨bytes, hbytes⟩ := bytes
      obtain ⟨a, b, c, d, rfl⟩ := List.length_eq_four.mp hbytes
      rw [parseDatagram_emit_ipv4] at h
      -- the data has grown by a byte
      have hgrown := congrArg List.length (Prod.ext_iff.mp (Option.some.inj h)).1
      simp at hgrown
    | ipv6 bytes port =>
      rw [parseDatagram_emit_ipv6] at h
      cases h
    | domain name port =>
      rw [parseDatagram_emit_domain] at h
      have hname : name.take 255 = name := by
        have htarget := (Prod.ext_iff.mp (Option.some.inj h)).2
        injection htarget
      exact ⟨name, port, rfl, by rw [← hname, List.length_take]; omega⟩
  · rintro ⟨name, port, rfl, hlen⟩
    rw [parseDatagram_emit_domain, List.take_of_length_le hlen]

/-- A reply from `127.0.0.1:53` is taken for one from `4.127.0.0`. -/
theorem header_round_trip_fails_on_ipv4 :
    ¬ ∀ (data : Bytes) (target : Address), target.Named →
      parseDatagram (emit data target) = some (data, target) := by
  intro h
  have hlocal := h [1, 2] (.ipv4 ⟨[127, 0, 0, 1], rfl⟩ 53) trivial
  exact absurd hlocal (by decide)

end Socks5UdpStream

end Shine
