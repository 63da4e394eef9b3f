import Shine.Inbound.HttpConnect
import Shine.Inbound.Socks5Grammar

/-!
# Targets on their way through the program

An address enters the program as text, as a blob, or in a SOCKS5 request or datagram
(`Produced`). It leaves it as the blob of a NEW or UDP_DATA frame, or in the request of a
SOCKS5 outbound. The producers allow names that these cannot carry: the empty name and
names of more than 255 bytes.
-/

namespace Shine

/-- The addresses that the program makes of what it is sent. -/
inductive Produced (A : Asio) : Address → Prop where
  | parseHostPort {s : Bytes} {a : Address} (h : Address.parseHostPort A s = .ok a) : Produced A a
  | parseBinary {b : Bytes} {a : Address} (h : Address.parseBinary b = .ok a) : Produced A a
  /-- By a SOCKS5 inbound, from the request of a client. -/
  | request {user pass stream rest : Bytes} {localEp : Except Bytes (ByteArrayN 4 × UInt16)}
    {a : Address}
    (h : (Socks5Inbound.handleClient user pass localEp).feed stream
      = some (some (.connect a), rest)) : Produced A a
  /-- By a SOCKS5 inbound, from a datagram. -/
  | datagram {packet data : Bytes} {a : Address}
    (h : Socks5UdpStream.parseDatagram packet = some (data, a)) : Produced A a

/-! ## As a blob -/

/-- **An address survives its blob exactly if the length of its name fits the length
byte and is not zero.** -/
theorem blob_faithful (a : Address) : Address.parseBinary a.toBinary = .ok a ↔ a.Named :=
  ⟨Address.parseBinary_named, Address.parseBinary_toBinary⟩

/-- A SOCKS5 client that asks for port 80 of the empty name. -/
theorem produced_empty_name (A : Asio) : Produced A (.domain [] 80) :=
  @Produced.request A [] [] [5, 1, 0, 5, 1, 0, 3, 0, 0, 80] [] (.error []) _ rfl

/-- The blob of that target is refused. -/
theorem blob_faithful_fails_on_empty_name :
    ¬ ∀ A a, Produced A a → Address.parseBinary a.toBinary = .ok a := by
  intro h
  have hread := h Asio.unary _ (produced_empty_name _)
  exact absurd hread (by decide)

/-! ## In the messages of a SOCKS5 outbound -/

namespace Socks5

/-- The credentials that `handleClient` reads. -/
def parseCredentials : Proc UInt8 (Option (Bytes × Bytes)) :=
  readCredentials fun u p => .done (some (u, p))

/-- The credentials are read back from the message, and nothing of what follows is. -/
def CredentialsAgree (cfg : ProxyConfig) : Prop :=
  ∀ rest, parseCredentials.feed (Socks5Outbound.credentials cfg ++ rest)
    = some (some (cfg.user, cfg.pass), rest)

/-- The target is read back from the CONNECT request, and nothing of what follows is. -/
def RequestAgrees (localEp : Except Bytes (ByteArrayN 4 × UInt16)) (target : Address) : Prop :=
  ∀ rest, (Socks5Inbound.request localEp).feed
      ([5, 1, 0] ++ Socks5Outbound.targetBytes target ++ rest)
    = some (some (.connect target), rest)

theorem credentialsAgree_iff (cfg : ProxyConfig) :
    CredentialsAgree cfg ↔ cfg.user.length ≤ 255 ∧ cfg.pass.length ≤ 255 := by
  constructor
  · intro h
    obtain ⟨u, p, msg, tail, ⟨hu, hp, _⟩, _, hnext⟩ := readCredentials_feed_iff.mp (h [])
    cases hnext
    exact ⟨hu, hp⟩
  · rintro ⟨hu, hp⟩ rest
    refine readCredentials_feed_iff.mpr ⟨cfg.user, cfg.pass, _, rest, ⟨hu, hp, rfl⟩, ?_, rfl⟩
    simp [Socks5Outbound.credentials]

/-- What is encoded has a name that fits. -/
theorem Encodes.nameFits {target : Address} {b : Bytes} (h : Encodes target b) :
    target.NameFits := by
  cases target with
  | ipv4 bytes port => trivial
  | domain name port => exact h.1
  | ipv6 bytes port => trivial

theorem encodes_targetBytes {target : Address} (h : target.NameFits) :
    Encodes target (Socks5Outbound.targetBytes target) := by
  cases target with
  | ipv4 bytes port => rfl
  | domain name port =>
    refine ⟨h, ?_⟩
    rw [Socks5Outbound.targetBytes, Nat.min_eq_right h]
  | ipv6 bytes port => rfl

theorem requestAgrees_iff (localEp : Except Bytes (ByteArrayN 4 × UInt16)) (target : Address) :
    RequestAgrees localEp target ↔ target.NameFits := by
  constructor
  · intro h
    obtain ⟨msg, ⟨rsv, addr, henc, _⟩, _⟩ := request_feed_iff.mp (h [])
    exact henc.nameFits
  · intro h rest
    exact request_feed_iff.mpr ⟨_, ⟨0, _, encodes_targetBytes h, rfl⟩, rfl⟩

/-- **What a SOCKS5 outbound writes is read back by a SOCKS5 inbound exactly if every
length fits its byte.** -/
theorem messages_well_formed (cfg : ProxyConfig) (target : Address)
    (localEp : Except Bytes (ByteArrayN 4 × UInt16)) :
    (CredentialsAgree cfg ↔ cfg.user.length ≤ 255 ∧ cfg.pass.length ≤ 255)
      ∧ (RequestAgrees localEp target ↔ target.NameFits) :=
  ⟨credentialsAgree_iff cfg, requestAgrees_iff localEp target⟩

/-- A name of 256 bytes. -/
def longName : Bytes := List.replicate 256 97

theorem produced_longName (A : Asio) : Produced A (.domain longName 80) := by
  have hdots : (46 : UInt8) ∉ longName := fun h => absurd (List.eq_of_mem_replicate h) (by decide)
  have hname : Address.parseIPv4 longName = none := by
    rw [Address.parseIPv4, List.splitOn_eq_singleton hdots]
  have hparse := @Address.parseHostPort_host A longName 80 (by decide) (by decide)
  rw [hname] at hparse
  exact .parseHostPort hparse

/-- An HTTP client can ask for a name whose length the request does not tell. -/
theorem messages_well_formed_fails_on_long_name :
    ¬ ∀ A cfg target localEp, Produced A target →
      CredentialsAgree cfg ∧ RequestAgrees localEp target := by
  intro h
  have hagree := (h Asio.unary ⟨[], [], []⟩ _ (.error []) (produced_longName _)).2
  have hfits : longName.length ≤ 255 := (requestAgrees_iff _ _).mp hagree
  rw [longName, List.length_replicate] at hfits
  exact absurd hfits (by decide)

end Socks5

end Shine
