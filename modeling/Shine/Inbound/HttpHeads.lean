import Shine.Inbound.HttpConnect

/-!
# Which heads are taken (`inbound/http_connect_inbound.cpp`, `outbound/http_connect_outbound.cpp`)

Both ends of HTTP CONNECT decide by the first line of a head that ends with a blank line.
`http_connect_iff` gives the decisions in terms of the bytes that arrive: they do not depend on
how the bytes are cut into pieces, although what is left in the stream does
(`tunnel_keeps_rest`).

The inbound looks at no other line. In particular it takes a request whatever credentials are
in it, also if a user and a password are configured, which it does not read. The outbound
looks for ` 200 ` anywhere in the first line.
-/

namespace Shine

/-- The bytes in front of the first line feed. -/
def firstLine (s : Bytes) : Bytes := s.takeWhile (· ≠ lf)

theorem firstLine_of_prefix {out s : Bytes} (hpre : out <+: s) (hlf : lf ∈ out) :
    firstLine out = firstLine s := by
  obtain ⟨rest, rfl⟩ := hpre
  have hshort : (out.takeWhile (· ≠ lf)).length ≠ out.length := by
    intro hlen
    have hall := (List.takeWhile_sublist _).eq_of_length hlen
    have hne := List.mem_takeWhile_imp (hall ▸ hlf)
    simp at hne
  rw [firstLine, firstLine, List.takeWhile_append, if_neg hshort]

theorem HttpConnectInbound.requestLine_eq {s t : Bytes} (h : firstLine s = firstLine t) :
    requestLine s = requestLine t := by
  have hline : s.takeWhile (· ≠ lf) = t.takeWhile (· ≠ lf) := h
  rw [requestLine, requestLine, hline]

/-- A head is read if its blank line arrives. The first line of what is read is that of the
stream. -/
theorem Socket.asyncReadUntil_blankLine {c c' : Socket} {sb : Bytes}
    (h : c.asyncReadUntil blankLine = .ok (sb, c')) :
    blankLine <:+: c.incoming.flatten ∧ firstLine sb = firstLine c.incoming.flatten ∧
      c'.room = c.room ∧ c'.outgoing = c.outgoing := by
  obtain ⟨hin, k, hsb, -, -⟩ := takeUntil_eq_some (asyncReadUntil_eq_ok h)
  have hpre : sb <+: c.incoming.flatten := by
    rw [hsb, List.nil_append]
    conv_rhs => rw [← List.take_append_drop k c.incoming, List.flatten_append]
    exact List.prefix_append _ _
  have hlf : lf ∈ sb := hin.subset (by decide)
  refine ⟨hin.trans hpre.isInfix, firstLine_of_prefix hpre hlf, ?_⟩
  rw [asyncReadUntil] at h
  split at h
  · cases h
    exact ⟨rfl, rfl⟩
  · cases h

theorem Socket.exists_asyncReadUntil {c : Socket} (h : blankLine <:+: c.incoming.flatten) :
    ∃ sb c', c.asyncReadUntil blankLine = .ok (sb, c') := by
  obtain ⟨⟨sb, rest⟩, htake⟩ :=
    Option.isSome_iff_exists.mp (@takeUntil_isSome blankLine [] _ h)
  exact ⟨sb, { c with incoming := rest }, by rw [asyncReadUntil, htake]⟩

theorem Socket.asyncWrite_eq_ok {c c' : Socket} {data : Bytes} :
    c.asyncWrite data = .ok c'
      ↔ data.length ≤ c.room ∧
        c' = { c with room := c.room - data.length, outgoing := c.outgoing ++ data } := by
  rw [asyncWrite]
  split_ifs with hroom
  · simp [hroom, eq_comm]
  · simp [hroom]

namespace HttpConnectInbound

/-- The stream asks for the target. -/
def Asks (A : Asio) (s : Bytes) (target : Address) : Prop :=
  blankLine <:+: s ∧ ∃ hostPort more,
    (requestLine s).splitOn 32 = ascii "CONNECT" :: hostPort :: more ∧
      Address.parseHostPort A hostPort = .ok target

/-- The request is made for what the stream asks for, if that can be answered. -/
theorem handleClient_iff {A : Asio} {tag protocol : Bytes} {c : Socket} {req : SessionRequest} :
    (∃ stream, handleClient A tag protocol c = .request req stream ∧
        stream.outgoing = c.outgoing ++ established)
      ↔ established.length ≤ c.room ∧
        ∃ target, Asks A c.incoming.flatten target ∧ req = sessionRequest tag protocol target := by
  constructor
  · rintro ⟨stream, h, -⟩
    obtain ⟨sb, c₁, hostPort, more, target, hread, hwords, hparse, hwrite, rfl⟩ :=
      handleClient_eq_request h
    obtain ⟨hblank, hline, hroom, -⟩ := Socket.asyncReadUntil_blankLine hread
    rw [requestLine_eq hline] at hwords
    refine ⟨?_, target, ⟨hblank, hostPort, more, hwords, hparse⟩, rfl⟩
    rw [← hroom]
    exact (Socket.asyncWrite_eq_ok.mp hwrite).1
  · rintro ⟨hroom, target, ⟨hblank, hostPort, more, hwords, hparse⟩, rfl⟩
    obtain ⟨sb, c₁, hread⟩ := Socket.exists_asyncReadUntil hblank
    obtain ⟨-, hline, hroom₁, hout₁⟩ := Socket.asyncReadUntil_blankLine hread
    rw [← requestLine_eq hline] at hwords
    have hwrite : c₁.asyncWrite established = .ok _ :=
      Socket.asyncWrite_eq_ok.mpr ⟨hroom₁ ▸ hroom, rfl⟩
    refine ⟨{ c₁ with
      room := c₁.room - established.length, outgoing := c₁.outgoing ++ established }, ?_, ?_⟩
    · simp [handleClient, hread, hwords, hparse, hwrite]
    · rw [hout₁]

end HttpConnectInbound

/-- The outbound goes on if the first line has a 200 in it. -/
theorem HttpConnectOutbound.dial_iff {A : Asio} {cfg : ProxyConfig} {req : SessionRequest}
    {c : Socket} (hconn : cfg.connect A = .ok c) :
    (∃ remote, dial A cfg req = .ok remote ∧
        remote.outgoing = c.outgoing ++ requestText A cfg req.target)
      ↔ (requestText A cfg req.target).length ≤ c.room ∧ blankLine <:+: c.incoming.flatten ∧
        ascii " 200 " <:+: firstLine c.incoming.flatten := by
  have hdial : dial A cfg req = (c.asyncWrite (requestText A cfg req.target) >>= fun c =>
      c.asyncReadUntil blankLine >>= fun got =>
        if ascii " 200 " <:+: firstLine got.1 then .ok got.2
        else .error (.unavailable (ascii "http connect failed: " ++ firstLine got.1))) := by
    rw [dial, hconn]
    rfl
  rw [hdial]
  constructor
  · rintro ⟨remote, h, -⟩
    obtain ⟨c₁, hwrite, hrest⟩ := bind_eq_ok.mp h
    obtain ⟨⟨sb, c₂⟩, hread, hstatus⟩ := bind_eq_ok.mp hrest
    obtain ⟨hroom, rfl⟩ := Socket.asyncWrite_eq_ok.mp hwrite
    obtain ⟨hblank, hline, -⟩ := Socket.asyncReadUntil_blankLine hread
    split_ifs at hstatus with hok
    rw [hline] at hok
    exact ⟨hroom, hblank, hok⟩
  · rintro ⟨hroom, hblank, hok⟩
    have hwrite : c.asyncWrite (requestText A cfg req.target) = .ok _ :=
      Socket.asyncWrite_eq_ok.mpr ⟨hroom, rfl⟩
    obtain ⟨sb, c₂, hread⟩ := Socket.exists_asyncReadUntil (c := { c with
      room := c.room - (requestText A cfg req.target).length
      outgoing := c.outgoing ++ requestText A cfg req.target }) hblank
    obtain ⟨-, hline, -, hout⟩ := Socket.asyncReadUntil_blankLine hread
    refine ⟨c₂, bind_eq_ok.mpr ⟨_, hwrite, bind_eq_ok.mpr ⟨(sb, c₂), hread, ?_⟩⟩, hout⟩
    exact if_pos (hline ▸ hok)

/-- **The first line decides, at either end.** Whatever pieces a head arrives in, the inbound
accepts it exactly if it has a blank line, its first line starts with `CONNECT` and a host
with port, and the answer can be written; the request is for that target, and nothing else in
the head is looked at. The outbound accepts an answer exactly if it has a blank line and
` 200 ` is in its first line. -/
theorem http_connect_iff (A : Asio) (c : Socket) :
    (∀ tag protocol req,
      (∃ stream, HttpConnectInbound.handleClient A tag protocol c = .request req stream ∧
          stream.outgoing = c.outgoing ++ HttpConnectInbound.established)
        ↔ HttpConnectInbound.established.length ≤ c.room ∧
          ∃ target, HttpConnectInbound.Asks A c.incoming.flatten target ∧
            req = HttpConnectInbound.sessionRequest tag protocol target) ∧
    (∀ (cfg : ProxyConfig) (req : SessionRequest), cfg.connect A = .ok c →
      ((∃ remote, HttpConnectOutbound.dial A cfg req = .ok remote ∧
          remote.outgoing = c.outgoing ++ HttpConnectOutbound.requestText A cfg req.target)
        ↔ (HttpConnectOutbound.requestText A cfg req.target).length ≤ c.room ∧
          blankLine <:+: c.incoming.flatten ∧
          ascii " 200 " <:+: firstLine c.incoming.flatten)) :=
  ⟨fun _ _ _ => HttpConnectInbound.handleClient_iff, fun _ _ => HttpConnectOutbound.dial_iff⟩

/-- An inbound takes a request with any credentials, and an outbound a page number for a
success. -/
theorem http_connect_iff_page_200 :
    (∃ stream, HttpConnectInbound.handleClient (.connecting (.sample [])) [] []
        (.sample [ascii "CONNECT a:1\r\nProxy-Authorization: ?\r\n\r", [lf]])
          = .request sampleRequest stream) ∧
      ∃ remote, HttpConnectOutbound.dial
        (.connecting (.sample [ascii "HTTP/1.1 404 see page 200 instead\r\n\r\n"])) .sample
          sampleRequest = .ok remote := by
  constructor
  · obtain ⟨stream, hstream, -⟩ := ((http_connect_iff (.connecting (.sample []))
      (.sample [ascii "CONNECT a:1\r\nProxy-Authorization: ?\r\n\r", [lf]])).1 [] []
        sampleRequest).mpr ⟨by decide, _, ⟨by decide, _, _, rfl, rfl⟩, rfl⟩
    exact ⟨stream, hstream⟩
  · obtain ⟨remote, hremote, -⟩ := ((http_connect_iff
      (.connecting (.sample [ascii "HTTP/1.1 404 see page 200 instead\r\n\r\n"]))
        (.sample [ascii "HTTP/1.1 404 see page 200 instead\r\n\r\n"])).2 .sample sampleRequest
          rfl).mpr ⟨by decide, by decide, by decide⟩
    exact ⟨remote, hremote⟩

end Shine
