import Shine.Inbound.Requests
import Shine.Main
import Shine.Outbound.ClientStreams
import Shine.Transport.HostPort

/-!
# Are null streams ever used?

A UDP request has no `client_stream`. The direct and the shine outbound look at the
protocol of a request, and the block outbound at the pointer; the SOCKS5 and the HTTP
outbound do neither, connect to their proxy and call `bidiCopy`. So every UDP request that is
routed to a proxy ends in a call on a null pointer as soon as the proxy answers
(`no_null_stream`).
-/

namespace Shine

/-- The dispatcher with another network. -/
def Dispatcher.on (d : Dispatcher) (N : Asio) : Dispatcher := { d with asio := N }

/-- Whatever the outbound that is picked for the request does with the client, it makes no
call on a null stream, and it returns an error where it lacks its stream. -/
def Dispatcher.StreamSafe (d : Dispatcher) (req : SessionRequest) : Prop :=
  ∀ ob, d.pick req ≠ [] → d.outbounds (d.pick req) = some ob →
    ∀ c : ClientStreams, c.Sound → ob.StreamSafe d.asio c req

/-- A SOCKS5 or HTTP outbound. -/
def OutboundConfig.IsProxy (o : OutboundConfig) : Prop :=
  o.protocol = ascii "socks5" ∨ o.protocol = ascii "http-connect"

/-! ## Proxies that can be reached -/

/-- The functions that work on texts are the same in both. -/
structure Asio.SameTexts (N A : Asio) : Prop where
  makeAddressV6 : N.makeAddressV6 = A.makeAddressV6
  addressV6ToString : N.addressV6ToString = A.addressV6ToString
  base64Escape : N.base64Escape = A.base64Escape

/-- A network in which every name resolves and every connection is accepted. -/
def Asio.reaching (A : Asio) (c : Socket) : Asio :=
  { A with
    asyncResolve := fun _ port => .ok [.v4 ⟨[1, 2, 3, 4], rfl⟩ port]
    asyncConnect := fun _ => .ok c
    bindUdp := .ok () }

theorem Asio.reaching_sameTexts (A : Asio) (c : Socket) : (A.reaching c).SameTexts A :=
  ⟨rfl, rfl, rfl⟩

section Reaching

variable {A : Asio} {cfg : ProxyConfig}

theorem ProxyConfig.connect_reaching (h : Address.HostPortText A.makeAddressV6 cfg.server)
    (c : Socket) : cfg.connect (A.reaching c) = .ok c := by
  obtain ⟨a, ha⟩ : ∃ a, Address.parseHostPort (A.reaching c) cfg.server = .ok a :=
    Address.parseHostPort_isOk.mpr h
  rw [ProxyConfig.connect, ha]
  cases a <;> rfl

/-- A connection on which a piece has arrived, with room for `n` bytes. -/
def Socket.answering (piece : Bytes) (n : Nat) (outgoing : Bytes) : Socket :=
  ⟨[piece], [], n, [], outgoing⟩

theorem Socket.asyncWrite_answering {piece outgoing data : Bytes} {n : Nat}
    (h : data.length ≤ n) :
    (answering piece n outgoing).asyncWrite data
      = .ok (answering piece (n - data.length) (outgoing ++ data)) :=
  if_pos h

/-- A SOCKS5 proxy that grants the request. -/
theorem Socks5Outbound.dial_reaching (h : Address.HostPortText A.makeAddressV6 cfg.server)
    (req : SessionRequest) :
    ∃ N c, N.SameTexts A ∧ dial N cfg req = .ok c := by
  let message := [5, 1, 0] ++ targetBytes req.target
  let n := (greeting cfg).length + message.length
  have hselect : selectMethod cfg (.answering [5, 0, 5, 0, 0, 1, 0, 0, 0, 0, 0, 0] n [])
      = .ok (.answering [5, 0, 0, 1, 0, 0, 0, 0, 0, 0] (n - (greeting cfg).length)
        (greeting cfg)) := by
    rw [selectMethod, Socket.asyncWrite_answering (Nat.le_add_right _ _)]
    rfl
  have hroom : message.length ≤ n - (greeting cfg).length := (Nat.add_sub_cancel_left ..).ge
  have hrequest : requestConnect req.target
      (.answering [5, 0, 0, 1, 0, 0, 0, 0, 0, 0] (n - (greeting cfg).length) (greeting cfg))
      = .ok (.answering [] (n - (greeting cfg).length - message.length)
        (greeting cfg ++ message)) := by
    rw [requestConnect, Socket.asyncWrite_answering hroom]
    rfl
  refine ⟨A.reaching (.answering [5, 0, 5, 0, 0, 1, 0, 0, 0, 0, 0, 0] n []),
    .answering [] (n - (greeting cfg).length - message.length) (greeting cfg ++ message),
    A.reaching_sameTexts _, ?_⟩
  rw [dial, ProxyConfig.connect_reaching h]
  exact bind_eq_ok.mpr ⟨_, rfl, bind_eq_ok.mpr ⟨_, hselect, hrequest⟩⟩

/-- What is asked of an HTTP proxy does not depend on the network. -/
theorem HttpConnectOutbound.requestText_reaching (c : Socket) (target : Address) :
    requestText (A.reaching c) cfg target = requestText A cfg target := by
  cases target <;> rfl

/-- An HTTP proxy that grants the request. -/
theorem HttpConnectOutbound.dial_reaching (h : Address.HostPortText A.makeAddressV6 cfg.server)
    (req : SessionRequest) :
    ∃ N c, N.SameTexts A ∧ dial N cfg req = .ok c := by
  let answer := ascii "HTTP/1.1 200 OK\r\n\r\n"
  let text := requestText A cfg req.target
  refine ⟨A.reaching (.answering answer text.length []),
    ⟨[], [], text.length - text.length, [], text⟩, A.reaching_sameTexts _, ?_⟩
  rw [dial, ProxyConfig.connect_reaching h, requestText_reaching]
  exact bind_eq_ok.mpr ⟨_, rfl,
    bind_eq_ok.mpr ⟨_, Socket.asyncWrite_answering (Nat.le_refl _), rfl⟩⟩

end Reaching

/-! ## Proxies whose server is not an address -/

/-- Such a proxy is not connected to. -/
theorem ProxyConfig.connect_error {N : Asio} {cfg : ProxyConfig}
    (h : ¬ Address.HostPortText N.makeAddressV6 cfg.server) : ∃ st, cfg.connect N = .error st := by
  cases hparse : Address.parseHostPort N cfg.server with
  | ok a => exact absurd (Address.parseHostPort_isOk.mp ⟨a, hparse⟩) h
  | error st =>
    refine ⟨st, ?_⟩
    rw [connect, hparse]
    rfl

/-! ## The outbounds of a configuration -/

namespace Outbound

/-- The outbound works through the proxy. -/
def Through (cfg : ProxyConfig) (ob : Outbound) : Prop := ob = .socks5 cfg ∨ ob = .httpConnect cfg

variable {A N : Asio} {c : ClientStreams} {cfg : ProxyConfig} {req : SessionRequest}
  {ob : Outbound}

theorem streamSafe_of_error {st : Status} (h : ob.serve A c req = .ret (.error st)) :
    ob.StreamSafe A c req := by
  rw [StreamSafe, h]
  refine ⟨(Co.Clean.ret _).never, fun _ r hrun => ⟨st, ?_⟩⟩
  exact Co.ret.inj (Co.Run.eq_ret hrun)

theorem Through.streamSafe (h : ob.Through cfg)
    (hserver : ¬ Address.HostPortText N.makeAddressV6 cfg.server) : ob.StreamSafe N c req := by
  obtain ⟨st, hst⟩ := ProxyConfig.connect_error hserver
  have hserve : ob.serve N c req = .ret (.error st) := by
    rcases h with rfl | rfl
    · rw [serve, Socks5Outbound.dial, hst]
      rfl
    · rw [serve, HttpConnectOutbound.dial, hst]
      rfl
  exact streamSafe_of_error hserve

/-- A proxy that can be reached makes the outbound use the stream that is not there. -/
theorem Through.not_streamSafe (h : ob.Through cfg)
    (hserver : Address.HostPortText A.makeAddressV6 cfg.server)
    (hnull : req.clientStream = false) :
    ∃ N : Asio, N.SameTexts A ∧ ∀ c, ¬ ob.StreamSafe N c req := by
  rcases h with rfl | rfl
  · obtain ⟨N, s, hN, hdial⟩ := Socks5Outbound.dial_reaching hserver req
    refine ⟨N, hN, fun c hsafe => not_never_bridgeTo (c := c) s hnull ?_⟩
    rw [← hdial]
    exact hsafe.1
  · obtain ⟨N, s, hN, hdial⟩ := HttpConnectOutbound.dial_reaching hserver req
    refine ⟨N, hN, fun c hsafe => not_never_bridgeTo (c := c) s hnull ?_⟩
    rw [← hdial]
    exact hsafe.1

end Outbound

/-- What `makeOutbound` makes. -/
theorem makeOutbound_cases {links : OutboundConfig → ShineOutbound} {o : OutboundConfig}
    {ob : Outbound} (h : makeOutbound links o = .ok ob) :
    (o.IsProxy ∧ ob.Through o.proxy) ∨
      (¬ o.IsProxy ∧ (ob = .direct ∨ ob = .block ∨ ob = .shine (links o))) := by
  have hother {s : String} (hs : o.protocol = ascii s)
      (hne : ascii s ≠ ascii "socks5" ∧ ascii s ≠ ascii "http-connect") : ¬ o.IsProxy := by
    rintro (hp | hp)
    · exact hne.1 (hs.symm.trans hp)
    · exact hne.2 (hs.symm.trans hp)
  rw [makeOutbound] at h
  split_ifs at h with hdirect hblock hshine hsocks5 hhttp <;> obtain rfl := Except.ok.inj h
  · exact .inr ⟨hother hdirect (by decide), .inl rfl⟩
  · exact .inr ⟨hother hblock (by decide), .inr (.inl rfl)⟩
  · exact .inr ⟨hother hshine (by decide), .inr (.inr rfl)⟩
  · exact .inl ⟨.inl hsocks5, .inl rfl⟩
  · exact .inl ⟨.inr hhttp, .inr rfl⟩

/-- A TCP request has the stream that any outbound works on. -/
theorem not_lacks_tcp {ic : InboundConfig} {req : SessionRequest} (hreq : ic.Makes req)
    (htcp : req.protocol = .tcp) (ob : Outbound) : ¬ ob.Lacks req := by
  have hstream := hreq.streams.1
  cases ob <;> simp [Outbound.Lacks, htcp, hstream]

/-- A UDP request has the stream that the outbounds work on which look at the protocol. -/
theorem not_lacks_udp {ic : InboundConfig} {req : SessionRequest} (hreq : ic.Makes req)
    (hudp : req.protocol = .udp) {ob : Outbound} {o : ShineOutbound}
    (hob : ob = .direct ∨ ob = .block ∨ ob = .shine o) : ¬ ob.Lacks req := by
  have hstream := hreq.streams.2
  rcases hob with rfl | rfl | rfl <;> simp [Outbound.Lacks, hudp, hstream]

section Start

variable {env : RouteEnv} {A : Asio} {links : OutboundConfig → ShineOutbound} {cfg : Config}
  {d : Dispatcher} {ic : InboundConfig} {req : SessionRequest} {o : OutboundConfig}

/-- A UDP request that is routed to a proxy needs a proxy that answers to go wrong. -/
theorem not_streamSafe_udp (hvalid : cfg.Valid) (hstart : Main.start env A links cfg = .ok d)
    (hreq : ic.Makes req) (hudp : req.protocol = .udp) (ho : o ∈ cfg.outbounds)
    (hdecides : cfg.route.Decides env req o.tag) (hproxy : o.IsProxy)
    (hserver : Address.HostPortText A.makeAddressV6 o.server) :
    ∃ N : Asio, N.SameTexts A ∧ ¬ (d.on N).StreamSafe req := by
  obtain ⟨ob, hmake, hob⟩ := Main.start_outbounds hstart hvalid ho
  have htag : o.tag = d.pick req := hdecides.unique (Main.start_decides hstart req)
  have hnamed := hvalid.outboundNamed o ho
  rw [htag] at hob hnamed
  have hthrough : ob.Through o.proxy := by
    rcases makeOutbound_cases hmake with ⟨-, h⟩ | ⟨h, -⟩
    · exact h
    · exact absurd hproxy h
  have hnull : req.clientStream = false := by simp [hreq.streams.1, hudp]
  obtain ⟨N, hN, hunsafe⟩ := hthrough.not_streamSafe hserver hnull
  exact ⟨N, hN, fun hsafe => hunsafe .socket (hsafe ob hnamed hob _ ClientStreams.socket_sound)⟩

end Start

/-- **A null stream is used exactly if a UDP request is routed to a proxy whose address can
be read.** All other requests are safe, whatever the network does. -/
theorem no_null_stream (env : RouteEnv) (A : Asio) (links : OutboundConfig → ShineOutbound)
    (cfg : Config) (hvalid : cfg.validate = .ok ()) (d : Dispatcher)
    (hstart : Main.start env A links cfg = .ok d) (req : SessionRequest)
    (hreq : ∃ ic ∈ cfg.inbounds, ic.Makes req) :
    (∀ N : Asio, N.SameTexts A → (d.on N).StreamSafe req) ↔
      ∀ o ∈ cfg.outbounds, cfg.route.Decides env req o.tag →
        req.protocol = .tcp ∨ ¬ o.IsProxy ∨ ¬ Address.HostPortText A.makeAddressV6 o.server := by
  have hvalid := Config.validate_iff.mp hvalid
  obtain ⟨ic, -, hreq⟩ := hreq
  have hprotocol : req.protocol = .tcp ∨ req.protocol = .udp := by
    cases req.protocol
    · exact .inl rfl
    · exact .inr rfl
  constructor
  · intro hsafe o ho hdecides
    rcases hprotocol with htcp | hudp
    · exact .inl htcp
    · by_contra! hbad
      obtain ⟨N, hN, hunsafe⟩ :=
        not_streamSafe_udp hvalid hstart hreq hudp ho hdecides hbad.2.1 hbad.2.2
      exact hunsafe (hsafe N hN)
  · intro hok N hN ob hne hob c hc
    obtain ⟨o, ho, htag⟩ := Main.pick_mem hvalid (Main.start_decides hstart req) hne
    obtain ⟨ob', hmake, hob'⟩ := Main.start_outbounds hstart hvalid ho
    rw [htag] at hob'
    obtain rfl := Option.some.inj (hob'.symm.trans hob)
    rcases hprotocol with htcp | hudp
    · exact Outbound.streamSafe_of_not_lacks hc (not_lacks_tcp hreq htcp _)
    · rcases makeOutbound_cases hmake with ⟨hproxy, hthrough⟩ | ⟨-, hother⟩
      · -- a proxy that is never connected to
        have hserver : ¬ Address.HostPortText A.makeAddressV6 o.server := by
          refine ((hok o ho ?_).resolve_left ?_).resolve_left (not_not_intro hproxy)
          · rw [htag]
            exact Main.start_decides hstart req
          · simp [hudp]
        rw [← hN.makeAddressV6] at hserver
        exact hthrough.streamSafe hserver
      · exact Outbound.streamSafe_of_not_lacks hc (not_lacks_udp hreq hudp hother)

/-- A pool that has no link. -/
def emptyPool (_ : OutboundConfig) : ShineOutbound := ⟨true, none⟩

/-- A CONNECT for `weibo.cn` is safe. -/
theorem no_null_stream_weibo :
    ∃ d, Main.start Main.sampleEnv Asio.unary emptyPool Main.sampleConfig = .ok d ∧
      ∀ N : Asio, N.SameTexts Asio.unary → (d.on N).StreamSafe Main.sampleReq := by
  have hfeed : (Socks5Inbound.handleClient [] [] (.error [])).feed
      ([5, 1, 0, 5, 1, 0, 3, 8] ++ ascii "weibo.cn" ++ [0, 80])
        = some (some (.connect (.domain (ascii "weibo.cn") 80)), []) := by decide
  refine ⟨_, rfl, ?_⟩
  exact (no_null_stream Main.sampleEnv Asio.unary emptyPool Main.sampleConfig (by decide) _ rfl
    Main.sampleReq ⟨_, List.mem_cons_self, .socks5 rfl hfeed⟩).mpr fun _ _ _ => .inl rfl

/-- A datagram for a name server, through an association. -/
def sampleUdpReq : SessionRequest :=
  Socks5Inbound.udpRequest (ascii "in") (ascii "socks5") (.ipv4 ⟨[8, 8, 8, 8], rfl⟩ 53)

/-- The client opens an association and sends one datagram. -/
theorem makes_sampleUdpReq :
    InboundConfig.Makes ⟨ascii "in", ascii "socks5", ascii ":1080", [], []⟩ sampleUdpReq := by
  have hfeed : (Socks5Inbound.handleClient [] [] (.ok (⟨[127, 0, 0, 1], rfl⟩, 5353))).feed
      [5, 1, 0, 5, 3, 0, 1, 0, 0, 0, 0, 0, 0] = some (some .udpAssociate, []) := by decide
  have hfirst : Socks5UdpStream.parseDatagram [0, 0, 0, 1, 8, 8, 8, 8, 0, 53, 42]
      = some ([42], .ipv4 ⟨[8, 8, 8, 8], rfl⟩ 53) := by decide
  exact .socks5Udp rfl hfeed hfirst

theorem no_null_stream_fails_on_udp :
    ¬ ∀ env A links (cfg : Config), cfg.validate = .ok () →
      ∀ d, Main.start env A links cfg = .ok d →
        ∀ req, (∃ ic ∈ cfg.inbounds, ic.Makes req) →
          ∀ N : Asio, N.SameTexts A → (d.on N).StreamSafe req := by
  intro hall
  have hvalid : Main.sampleConfig.validate = .ok () := by decide
  have hstart : Main.start Main.sampleEnv Asio.unary emptyPool Main.sampleConfig = .ok _ := rfl
  have hserver : Address.HostPortText Asio.unary.makeAddressV6 (ascii "1.2.3.4:80") :=
    Address.parseHostPort_isOk.mp ⟨_, rfl⟩
  -- no rule matches, so the request goes to the SOCKS5 proxy
  obtain ⟨N, hN, hunsafe⟩ := not_streamSafe_udp (Config.validate_iff.mp hvalid) hstart
    makes_sampleUdpReq rfl (List.mem_cons_of_mem _ List.mem_cons_self)
    (Main.start_decides hstart sampleUdpReq) (.inl rfl) hserver
  exact hunsafe (hall _ _ _ _ hvalid _ hstart _ ⟨_, List.mem_cons_self, makes_sampleUdpReq⟩ N hN)

end Shine
