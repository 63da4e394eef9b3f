import Shine.Outbound.Dial
import Shine.Transport.HostPort
import Shine.Transport.TcpStream

/-!
# HTTP CONNECT, from both ends (`inbound/http_connect_inbound.cpp`, `outbound/http_connect_outbound.cpp`)

`HttpConnectInbound::handleClient` reads the head of a request, answers it and hands the
connection on; `HttpConnectOutbound::handle` writes such a head and reads the answer.

Both read up to the blank line with `async_read_until` and then drop the buffer, so what
the other end has sent behind the blank line survives only if no piece of the connection
contains bytes from both sides of it (`tunnel_keeps_rest`).
-/

namespace Shine

/-- The blank line that ends a head. -/
def blankLine : Bytes := crlf ++ crlf

namespace HttpConnectInbound

/-- How `handleClient` ends: the connection is dropped in some state, or it becomes the
client stream of a request. -/
inductive Outcome where
  | closed (c : Socket)
  | request (req : SessionRequest) (clientStream : Socket)
  deriving DecidableEq

/-- `std::getline`, without the carriage return. -/
def requestLine (sb : Bytes) : Bytes :=
  let line := sb.takeWhile (· ≠ lf)
  if line.getLast? = some cr then line.dropLast else line

/-- Answer with an error. -/
def refuse (c : Socket) (text : Bytes) : Outcome :=
  match c.asyncWrite text with
  | .ok c => .closed c
  | .error _ => .closed c

/-- The request for a target that `handleClient` was asked to connect to. -/
def sessionRequest (tag protocol : Bytes) (target : Address) : SessionRequest :=
  { inboundTag := tag, inboundProtocol := protocol, protocol := .tcp, target
    clientStream := true, clientDatagramStream := false }

/-- The answer to a request that is accepted. -/
def established : Bytes := ascii "HTTP/1.1 200 Connection Established\r\n\r\n"

/-- `HttpConnectInbound::handleClient`. -/
def handleClient (A : Asio) (tag protocol : Bytes) (c : Socket) : Outcome :=
  match c.asyncReadUntil blankLine with
  | .error _ => .closed c
  | .ok (sb, c) =>
    let tok := (requestLine sb).splitOn 32
    if tok.length < 2 ∨ tok.getD 0 [] ≠ ascii "CONNECT" then
      refuse c (ascii "HTTP/1.1 405 Method Not Allowed\r\n\r\n")
    else match Address.parseHostPort A (tok.getD 1 []) with
      | .error _ => refuse c (ascii "HTTP/1.1 400 Bad Request\r\n\r\n")
      | .ok target =>
        match c.asyncWrite established with
        | .error _ => .closed c
        | .ok c => .request (sessionRequest tag protocol target) c

theorem refuse_ne_request {c stream : Socket} {text : Bytes} {req : SessionRequest} :
    refuse c text ≠ .request req stream := by
  rw [refuse]
  split <;> exact Outcome.noConfusion

/-- What has happened when a request is handed on: the head was read, its first line names
the target, and the answer was written. -/
theorem handleClient_eq_request {A : Asio} {tag protocol : Bytes} {c stream : Socket}
    {req : SessionRequest} (h : handleClient A tag protocol c = .request req stream) :
    ∃ sb c₁ hostPort more target,
      c.asyncReadUntil blankLine = .ok (sb, c₁) ∧
      (requestLine sb).splitOn 32 = ascii "CONNECT" :: hostPort :: more ∧
      Address.parseHostPort A hostPort = .ok target ∧
      c₁.asyncWrite established = .ok stream ∧
      req = sessionRequest tag protocol target := by
  rw [handleClient] at h
  cases hread : c.asyncReadUntil blankLine with
  | error e => rw [hread] at h; cases h
  | ok got =>
    obtain ⟨sb, c₁⟩ := got
    simp only [hread] at h
    split at h
    · exact absurd h refuse_ne_request
    · next hline =>
      -- there are two words at least, and the first is the method
      cases htok : (requestLine sb).splitOn 32 with
      | nil => simp [htok] at hline
      | cons method words =>
        cases words with
        | nil => simp [htok] at hline
        | cons hostPort more =>
          have hmethod : method = ascii "CONNECT" := by simpa [htok] using hline
          subst hmethod
          rw [htok] at h
          cases hparse : Address.parseHostPort A hostPort with
          | error e =>
            simp only [List.getD_cons_succ, List.getD_cons_zero, hparse] at h
            exact absurd h refuse_ne_request
          | ok target =>
            simp only [List.getD_cons_succ, List.getD_cons_zero, hparse] at h
            split at h
            · cases h
            · next hwrite =>
              cases h
              exact ⟨sb, c₁, hostPort, more, target, rfl, htok, hparse, hwrite, rfl⟩

end HttpConnectInbound

/-! ## The bytes behind the head -/

theorem Socket.asyncWrite_incoming {c c' : Socket} {data : Bytes}
    (h : c.asyncWrite data = .ok c') : c'.incoming = c.incoming := by
  rw [asyncWrite] at h
  split at h
  · cases h
    rfl
  · cases h

theorem Socket.asyncReadUntil_eq_ok {c c' : Socket} {delim out : Bytes}
    (h : c.asyncReadUntil delim = .ok (out, c')) :
    takeUntil delim [] c.incoming = some (out, c'.incoming) := by
  rw [asyncReadUntil] at h
  split at h
  · next htake =>
    cases h
    exact htake
  · cases h

/-- A connection handed on after `async_read_until` delivers what follows the head,
exactly if a piece ends with the head. -/
theorem Socket.delivers_rest_iff {c c' : Socket} {head rest out : Bytes}
    (hhead : EndsAtFirst blankLine head) (hstream : c.incoming.flatten = head ++ rest)
    (hread : c.asyncReadUntil blankLine = .ok (out, c')) :
    c'.Delivers rest ↔ ∃ k, (c.incoming.take k).flatten = head := by
  rw [delivers_iff]
  exact takeUntil_boundary hhead hstream (asyncReadUntil_eq_ok hread)

/-- What has happened when the outbound goes on to `bidiCopy`. -/
theorem HttpConnectOutbound.dial_eq_ok {A : Asio} {cfg : ProxyConfig} {req : SessionRequest}
    {c remote : Socket} (hconn : cfg.connect A = .ok c) (h : dial A cfg req = .ok remote) :
    ∃ c₁ sb, c.asyncWrite (requestText A cfg req.target) = .ok c₁ ∧
      c₁.asyncReadUntil blankLine = .ok (sb, remote) := by
  obtain ⟨c₀, hc₀, h⟩ := bind_eq_ok.mp h
  obtain rfl := Except.ok.inj (hconn.symm.trans hc₀)
  obtain ⟨c₁, hwrite, h⟩ := bind_eq_ok.mp h
  obtain ⟨⟨sb, c₂⟩, hread, h⟩ := bind_eq_ok.mp h
  dsimp only at h
  split at h
  · cases h
    exact ⟨c₁, sb, hwrite, hread⟩
  · cases h

/-- **No byte behind the head of a CONNECT is lost exactly if a piece of the connection
ends with the head.** `head` is the request, or the answer, up to its blank line. For the
inbound the stream handed on is the client stream of the request, for the outbound the
remote end that `bidiCopy` gets. Whatever the last piece read has behind the blank line
stays in the buffer that both functions drop. -/
theorem tunnel_keeps_rest (A : Asio) {c : Socket} {head rest : Bytes}
    (hhead : Socket.EndsAtFirst blankLine head) (hstream : c.incoming.flatten = head ++ rest) :
    (∀ tag protocol req stream,
      HttpConnectInbound.handleClient A tag protocol c = .request req stream →
      (stream.Delivers rest ↔ ∃ k, (c.incoming.take k).flatten = head)) ∧
    (∀ (cfg : ProxyConfig) req remote, cfg.connect A = .ok c →
      HttpConnectOutbound.dial A cfg req = .ok remote →
      (remote.Delivers rest ↔ ∃ k, (c.incoming.take k).flatten = head)) := by
  constructor
  · intro tag protocol req stream h
    obtain ⟨sb, c₁, _, _, _, hread, _, _, hwrite, _⟩ :=
      HttpConnectInbound.handleClient_eq_request h
    -- the answer does not touch what arrives
    rw [← Socket.delivers_rest_iff hhead hstream hread, Socket.delivers_iff, Socket.delivers_iff,
      Socket.asyncWrite_incoming hwrite]
  · intro cfg req remote hconn h
    obtain ⟨c₁, sb, hwrite, hread⟩ := HttpConnectOutbound.dial_eq_ok hconn h
    have hsame := Socket.asyncWrite_incoming hwrite
    rw [← hsame] at hstream ⊢
    exact Socket.delivers_rest_iff hhead hstream hread

/-! ### Samples -/

/-- A connection on which the given pieces arrive. -/
def Socket.sample (incoming : List Bytes) : Socket :=
  { incoming, readError := Socket.endOfFile, room := 1000, writeError := [], outgoing := [] }

/-- A network in which every connection goes to `remote`. -/
def Asio.connecting (remote : Socket) : Asio := .sample (.ok []) (.ok remote) (.ok ())

/-- A request to connect to port 1 of `a`. -/
def sampleHead : Bytes := ascii "CONNECT a:1 HTTP/1.1\r\n\r\n"

/-- The answer to it. -/
def sampleAnswer : Bytes := ascii "HTTP/1.1 200 OK\r\n\r\n"

/-- A proxy that is configured by its address. -/
def ProxyConfig.sample : ProxyConfig := { server := ascii "1.2.3.4:80", user := [], pass := [] }

/-- The request of `sampleHead`, as the inbound hands it on. -/
def sampleRequest : SessionRequest :=
  HttpConnectInbound.sessionRequest [] [] (.domain (ascii "a") 1)

/-- With the head in a piece of its own the byte behind it arrives, at either end. -/
theorem tunnel_keeps_rest_of_split :
    (∃ req stream, HttpConnectInbound.handleClient (Asio.connecting (.sample [])) [] []
        (.sample [sampleHead, [1]]) = .request req stream ∧ stream.Delivers [1]) ∧
    (∃ remote, HttpConnectOutbound.dial (Asio.connecting (.sample [sampleAnswer, [1]])) .sample
        sampleRequest = .ok remote ∧ remote.Delivers [1]) := by
  have hin := @tunnel_keeps_rest (Asio.connecting (.sample [])) (.sample [sampleHead, [1]])
    sampleHead [1] (by decide) rfl
  have hout := @tunnel_keeps_rest (Asio.connecting (.sample [sampleAnswer, [1]]))
    (.sample [sampleAnswer, [1]]) sampleAnswer [1] (by decide) rfl
  exact ⟨⟨sampleRequest, _, rfl, (hin.1 [] [] sampleRequest _ rfl).mpr ⟨1, rfl⟩⟩,
    ⟨_, rfl, (hout.2 .sample sampleRequest _ rfl rfl).mpr ⟨1, rfl⟩⟩⟩

/-- A byte that arrives together with the head is lost, at either end. -/
theorem tunnel_keeps_rest_fails_on_pipelined_byte :
    (¬ ∀ (A : Asio) (c : Socket) (head rest : Bytes), Socket.EndsAtFirst blankLine head →
      c.incoming.flatten = head ++ rest → ∀ tag protocol req stream,
      HttpConnectInbound.handleClient A tag protocol c = .request req stream →
      stream.Delivers rest) ∧
    (¬ ∀ (A : Asio) (c : Socket) (head rest : Bytes), Socket.EndsAtFirst blankLine head →
      c.incoming.flatten = head ++ rest → ∀ (cfg : ProxyConfig) req remote,
      cfg.connect A = .ok c → HttpConnectOutbound.dial A cfg req = .ok remote →
      remote.Delivers rest) := by
  constructor
  · intro h
    have hkept := h (Asio.connecting (.sample [])) (.sample [sampleHead ++ [1]]) sampleHead [1]
      (by decide) rfl [] [] sampleRequest _ rfl
    exact absurd (Socket.delivers_iff.mp hkept) (by decide)
  · intro h
    have hkept := h (Asio.connecting (.sample [sampleAnswer ++ [1]])) (.sample [sampleAnswer ++ [1]])
      sampleAnswer [1] (by decide) rfl .sample sampleRequest _ rfl rfl
    exact absurd (Socket.delivers_iff.mp hkept) (by decide)

/-! ## The head that one end writes and the other reads -/

/-- A head: lines, and a blank one. -/
def headText (lines : List Bytes) : Bytes := (lines.map (· ++ crlf)).flatten ++ crlf

theorem cons_infix_append_of_not_mem {x : UInt8} {w l r : Bytes} (hx : x ∉ l)
    (h : x :: w <:+: l ++ r) : x :: w <:+: r := by
  induction l with
  | nil => exact h
  | cons a l ih =>
    rw [List.cons_append, List.infix_cons_iff] at h
    rcases h with h | h
    · obtain ⟨heq, _⟩ := List.cons_prefix_cons.mp h
      exact absurd (heq ▸ List.mem_cons_self ..) hx
    · exact ih (fun hmem => hx (List.mem_cons_of_mem _ hmem)) h

/-- Two line feeds with a carriage return between them are a blank line, so they do not
occur before the end. -/
theorem not_infix_lines {lines : List Bytes} (hlines : ∀ l ∈ lines, l ≠ [] ∧ lf ∉ l) :
    ¬ [lf, cr, lf] <:+: (lines.map (· ++ crlf)).flatten ++ [cr] := by
  induction lines with
  | nil => decide
  | cons l lines ih =>
    have hl := (hlines l (List.mem_cons_self ..)).2
    have hrest : ∀ l ∈ lines, l ≠ [] ∧ lf ∉ l := fun m hm => hlines m (List.mem_cons_of_mem _ hm)
    intro h
    rw [List.map_cons, List.flatten_cons, List.append_assoc, List.append_assoc] at h
    -- the pattern starts with the line feed of this line or behind it
    have hcr : lf ∉ [cr] := by decide
    have h := cons_infix_append_of_not_mem hcr (cons_infix_append_of_not_mem hl h)
    rcases List.infix_cons_iff.mp h with h | h
    · have hnext : [cr, lf] <+: (lines.map (· ++ crlf)).flatten ++ [cr] :=
        (List.cons_prefix_cons.mp h).2
      cases lines with
      | nil => exact absurd hnext (by decide)
      | cons m lines =>
        obtain ⟨hne, hm⟩ := hrest m (List.mem_cons_self ..)
        -- the next line is not empty, so its line feed comes later
        cases m with
        | nil => exact hne rfl
        | cons b m =>
          have hnext := (List.cons_prefix_cons.mp hnext).2
          cases m with
          | nil => exact absurd (List.cons_prefix_cons.mp hnext).1 (by decide)
          | cons b' m =>
            have heq := (List.cons_prefix_cons.mp hnext).1
            exact hm (heq ▸ by simp)
    · exact ih hrest h

theorem endsAtFirst_headText {lines : List Bytes} (hne : lines ≠ [])
    (hlines : ∀ l ∈ lines, l ≠ [] ∧ lf ∉ l) :
    Socket.EndsAtFirst blankLine (headText lines) := by
  constructor
  · obtain hnil | ⟨init, l, rfl⟩ := List.eq_nil_or_concat lines
    · exact absurd hnil hne
    · refine ⟨(init.map (· ++ crlf)).flatten ++ l, ?_⟩
      simp [headText, blankLine]
  · intro h
    have hdrop : (headText lines).dropLast = (lines.map (· ++ crlf)).flatten ++ [cr] := by
      rw [headText, List.dropLast_append_of_ne_nil (by decide)]
      rfl
    rw [hdrop] at h
    have hsub : [lf, cr, lf] <:+: blankLine := by decide
    exact not_infix_lines hlines (hsub.trans h)

/-- The lines of the request. -/
def HttpConnectOutbound.requestLines (A : Asio) (cfg : ProxyConfig) (target : Address) :
    List Bytes :=
  [ascii "CONNECT " ++ target.toText A ++ ascii " HTTP/1.1", ascii "Host: " ++ target.toText A]
    ++ (if cfg.user ≠ [] then
        [ascii "Proxy-Authorization: Basic " ++ A.base64Escape (cfg.user ++ [58] ++ cfg.pass)]
      else [])

theorem HttpConnectOutbound.requestText_eq (A : Asio) (cfg : ProxyConfig) (target : Address) :
    requestText A cfg target = headText (requestLines A cfg target) := by
  have hsplit : ascii " HTTP/1.1\r\nHost: " = ascii " HTTP/1.1" ++ crlf ++ ascii "Host: " := by
    decide
  rw [requestText, headText, requestLines, hsplit]
  by_cases huser : cfg.user ≠ []
  · simp [huser]
  · simp [huser]

/-- The target survives as a word of a line: it is read back from its text, and neither a
blank nor a line feed of its name ends the word. -/
def Address.Wordlike (a : Address) : Prop :=
  a.Textual ∧ ∀ name port, a = .domain name port → 32 ∉ name ∧ lf ∉ name

/-- Neither a blank nor a line feed is in the text of such a target. -/
theorem Address.not_mem_toText {A : Asio} (hA : A.Texts) {a : Address} {b : UInt8}
    (hb : b = 32 ∨ b = lf) (h : ∀ name port, a = .domain name port → b ∉ name) :
    b ∉ a.toText A := by
  have hdigit : isDigit b = false := by rcases hb with rfl | rfl <;> decide
  have hcolon : b ≠ 58 ∧ b ≠ 91 ∧ b ≠ 93 ∧ b ≠ 46 := by rcases hb with rfl | rfl <;> decide
  cases a with
  | ipv4 bytes port =>
    have htext : toText A (.ipv4 bytes port) = dotted bytes ++ 58 :: strDec port.toNat := by
      simp [toText, dotted]
    rw [htext, List.mem_append, List.mem_cons]
    rintro (hmem | heq | hmem)
    · rcases mem_dotted hmem with hd | hd
      · rw [hdigit] at hd
        cases hd
      · exact hcolon.2.2.2 hd
    · exact hcolon.1 heq
    · exact not_mem_strDec hdigit hmem
  | ipv6 bytes port =>
    have hv6 : b ∉ A.addressV6ToString bytes := by
      intro hmem
      have halpha := hA.addressV6ToString bytes b hmem
      rcases hb with rfl | rfl <;> exact absurd halpha (by decide)
    simp [toText, hv6, hcolon, not_mem_strDec hdigit]
  | domain name port =>
    simp [toText, h name port rfl, hcolon, not_mem_strDec hdigit]

/-- What `async_read_until` reads if nothing follows the head. -/
theorem Socket.asyncReadUntil_head {c : Socket} {head : Bytes}
    (hhead : EndsAtFirst blankLine head) (hstream : c.incoming.flatten = head) :
    ∃ rest, c.asyncReadUntil blankLine = .ok (head, { c with incoming := rest }) := by
  have hfound : (takeUntil blankLine [] c.incoming).isSome :=
    takeUntil_isSome (by rw [List.nil_append, hstream]; exact hhead.ends.isInfix)
  obtain ⟨⟨out, rest⟩, htake⟩ := Option.isSome_iff_exists.mp hfound
  obtain ⟨hin, k, hout, _, _⟩ := takeUntil_eq_some htake
  have hpre : out <+: head := by
    rw [hout, ← hstream, ← List.take_append_drop k c.incoming, List.flatten_append]
    simp
  refine ⟨rest, ?_⟩
  rw [asyncReadUntil, htake, hhead.eq_of_prefix hin hpre]

/-- The request line of a head is its first line. -/
theorem HttpConnectInbound.requestLine_headText {line : Bytes} (lines : List Bytes)
    (h : lf ∉ line) : requestLine (headText (line :: lines)) = line := by
  have hline : ∀ b ∈ line ++ [cr], decide (b ≠ lf) = true := by
    intro b hb
    refine decide_eq_true fun heq => ?_
    rcases List.mem_append.mp hb with hb | hb
    · exact h (heq ▸ hb)
    · rw [heq] at hb
      exact absurd hb (by decide)
  have htext : headText (line :: lines) = (line ++ [cr]) ++ lf :: headText lines := by
    simp [headText, crlf]
  have hwhile : (headText (line :: lines)).takeWhile (· ≠ lf) = line ++ [cr] := by
    rw [htext, List.takeWhile_append_of_pos hline]
    simp
  rw [requestLine, hwhile]
  simp

theorem HttpConnectInbound.lf_not_mem_requestLine (sb : Bytes) : lf ∉ requestLine sb := by
  have hwhile : lf ∉ sb.takeWhile (· ≠ lf) := by
    intro h
    exact absurd (List.mem_takeWhile_imp h) (by decide)
  rw [requestLine]
  split
  · exact fun h => hwhile (List.mem_of_mem_dropLast h)
  · exact hwhile

/-- A part of a split text consists of bytes of the text other than the separator. -/
theorem mem_of_mem_splitOn {x : UInt8} {l part : Bytes} (h : part ∈ l.splitOn x) :
    ∀ b ∈ part, b ≠ x ∧ b ∈ l := by
  induction l generalizing part with
  | nil =>
    rw [List.mem_singleton.mp h]
    exact fun b hb => absurd hb List.not_mem_nil
  | cons a l ih =>
    rw [List.splitOn, List.splitOnP_cons_eq_if_modifyHead] at h
    split at h
    · rcases List.mem_cons.mp h with rfl | h
      · exact fun b hb => absurd hb List.not_mem_nil
      · exact fun b hb => ⟨(ih h b hb).1, List.mem_cons_of_mem _ (ih h b hb).2⟩
    · next hne =>
      have hax : a ≠ x := by simpa using hne
      cases hparts : l.splitOnP (· == x) with
      | nil =>
        rw [hparts] at h
        cases h
      | cons first parts =>
        rw [hparts, List.modifyHead_cons] at h
        have hmem : ∀ p ∈ first :: parts, p ∈ l.splitOn x := by
          intro p hp
          rw [List.splitOn, hparts]
          exact hp
        intro b hb
        -- the byte in front of the first separator goes to the first part
        rcases List.mem_cons.mp h with rfl | h
        · rcases List.mem_cons.mp hb with rfl | hb
          · exact ⟨hax, List.mem_cons_self ..⟩
          · have hrec := ih (hmem first (List.mem_cons_self ..)) b hb
            exact ⟨hrec.1, List.mem_cons_of_mem _ hrec.2⟩
        · have hrec := ih (hmem part (List.mem_cons_of_mem _ h)) b hb
          exact ⟨hrec.1, List.mem_cons_of_mem _ hrec.2⟩

/-- Without a line feed in the target the head has one blank line. -/
theorem HttpConnectOutbound.endsAtFirst_requestText {A : Asio} (hA : A.Texts) (cfg : ProxyConfig)
    {target : Address} (hlf : lf ∉ target.toText A) :
    Socket.EndsAtFirst blankLine (requestText A cfg target) := by
  have hbase64 (s : Bytes) : lf ∉ A.base64Escape s := by
    intro hmem
    exact absurd (hA.base64Escape s lf hmem) (by decide)
  have hwords : lf ∉ ascii "CONNECT " ∧ lf ∉ ascii " HTTP/1.1" ∧ lf ∉ ascii "Host: "
      ∧ lf ∉ ascii "Proxy-Authorization: Basic " := by decide
  rw [requestText_eq]
  refine endsAtFirst_headText (by simp [requestLines]) ?_
  intro l hl
  simp only [requestLines, List.mem_append, List.mem_cons, List.not_mem_nil, or_false] at hl
  rcases hl with (rfl | rfl) | hl
  · exact ⟨by simp [ascii], by simp [hwords, hlf]⟩
  · exact ⟨by simp [ascii], by simp [hwords, hlf]⟩
  · split at hl
    · rw [List.mem_singleton.mp hl]
      exact ⟨by simp [ascii], by simp [hwords, hbase64]⟩
    · cases hl

/-- The three words of the request line. -/
theorem splitOn_requestLine {hostPort : Bytes} (h : 32 ∉ hostPort) :
    (ascii "CONNECT " ++ hostPort ++ ascii " HTTP/1.1").splitOn 32
      = [ascii "CONNECT", hostPort, ascii "HTTP/1.1"] := by
  have hline : ascii "CONNECT " ++ hostPort ++ ascii " HTTP/1.1"
      = [32].intercalate [ascii "CONNECT", hostPort, ascii "HTTP/1.1"] := by
    simp [List.intercalate, List.intersperse, ascii]
  have hwords : (32 : UInt8) ∉ ascii "CONNECT" ∧ (32 : UInt8) ∉ ascii "HTTP/1.1" := by decide
  rw [hline]
  refine List.splitOn_intercalate 32 ?_ (List.cons_ne_nil _ _)
  simp [hwords, h]

/-- The inbound takes the target of a head from its first line. -/
theorem HttpConnectInbound.handleClient_head {A : Asio} {tag protocol hostPort : Bytes}
    {lines : List Bytes} {c : Socket} {target : Address}
    (hhead : Socket.EndsAtFirst blankLine
      (headText ((ascii "CONNECT " ++ hostPort ++ ascii " HTTP/1.1") :: lines)))
    (hstream : c.incoming.flatten
      = headText ((ascii "CONNECT " ++ hostPort ++ ascii " HTTP/1.1") :: lines))
    (hword : 32 ∉ hostPort ∧ lf ∉ hostPort) (hparse : Address.parseHostPort A hostPort = .ok target)
    (hroom : established.length ≤ c.room) :
    ∃ stream, handleClient A tag protocol c
      = .request (sessionRequest tag protocol target) stream := by
  obtain ⟨rest, hread⟩ := Socket.asyncReadUntil_head hhead hstream
  have hwords : lf ∉ ascii "CONNECT " ∧ lf ∉ ascii " HTTP/1.1" := by decide
  have hline := requestLine_headText lines
    (show lf ∉ ascii "CONNECT " ++ hostPort ++ ascii " HTTP/1.1" by simp [hwords, hword.2])
  rw [handleClient, hread]
  simp only [hline, splitOn_requestLine hword.1, hparse, List.length_cons, List.length_nil,
    List.getD_cons_zero, List.getD_cons_succ, Socket.asyncWrite, hroom, if_true]
  exact ⟨_, rfl⟩

/-- Client and server agree on a target: the head that the outbound writes has one blank
line, its end, and the inbound takes the same target from it, however the connection
splits it. -/
def ConnectAgrees (A : Asio) (cfg : ProxyConfig) (target : Address) : Prop :=
  Socket.EndsAtFirst blankLine (HttpConnectOutbound.requestText A cfg target) ∧
    ∀ tag protocol (c : Socket),
      c.incoming.flatten = HttpConnectOutbound.requestText A cfg target →
      HttpConnectInbound.established.length ≤ c.room →
      ∃ stream, HttpConnectInbound.handleClient A tag protocol c
        = .request (HttpConnectInbound.sessionRequest tag protocol target) stream

/-- **HTTP CONNECT client and server agree exactly on targets that survive as a word.**
The port must not be zero, and a domain name must have no blank and no line feed, must not
start with a bracket and must not be the text of an IPv4 address. Nothing escapes or
refuses the other names. -/
theorem connect_round_trip {A : Asio} (hA : A.Texts) (cfg : ProxyConfig) (target : Address) :
    ConnectAgrees A cfg target ↔ target.Wordlike := by
  constructor
  · rintro ⟨hends, hreads⟩
    obtain ⟨stream, hreq⟩ := hreads [] []
      ⟨[HttpConnectOutbound.requestText A cfg target], [], HttpConnectInbound.established.length,
        [], []⟩ (by simp) (Nat.le_refl _)
    obtain ⟨sb, c₁, hostPort, more, target', _, hwords, hparse, _, htarget⟩ :=
      HttpConnectInbound.handleClient_eq_request hreq
    have hsame : target = target' := congrArg SessionRequest.target htarget
    subst hsame
    obtain ⟨htextual, hname⟩ := Address.parseHostPort_eq_ok hparse
    refine ⟨htextual, fun name port heq => ?_⟩
    -- the name is part of a word of the first line
    have hword : ∀ b ∈ name, b ≠ 32 ∧ b ∈ HttpConnectInbound.requestLine sb := by
      intro b hb
      refine mem_of_mem_splitOn ?_ b ((hname name port heq).subset hb)
      rw [hwords]
      simp
    refine ⟨fun hb => (hword 32 hb).1 rfl, fun hb => ?_⟩
    exact HttpConnectInbound.lf_not_mem_requestLine sb (hword lf hb).2
  · rintro ⟨htextual, hname⟩
    have hblank : 32 ∉ target.toText A :=
      Address.not_mem_toText hA (.inl rfl) fun name port heq => (hname name port heq).1
    have hlf : lf ∉ target.toText A :=
      Address.not_mem_toText hA (.inr rfl) fun name port heq => (hname name port heq).2
    have hends := HttpConnectOutbound.endsAtFirst_requestText hA cfg hlf
    refine ⟨hends, fun tag protocol c hstream hroom => ?_⟩
    rw [HttpConnectOutbound.requestText_eq] at hends hstream
    exact HttpConnectInbound.handleClient_head hends hstream ⟨hblank, hlf⟩
      (Address.parseHostPort_toText hA.v6 htextual) hroom

/-- A plain name arrives. -/
theorem connect_round_trip_plain : ConnectAgrees Asio.unary .sample (.domain (ascii "a") 1) :=
  (connect_round_trip Asio.unary_texts .sample (.domain (ascii "a") 1)).mpr
    ⟨⟨by decide, by rintro name port ⟨⟩; decide⟩, by rintro name port ⟨⟩; decide⟩

/-- A name with a blank line in it ends the head early. -/
theorem connect_round_trip_fails_on_blank_line :
    ¬ ∀ (A : Asio), A.Texts → ∀ cfg target, ConnectAgrees A cfg target := by
  intro h
  have hagree := h Asio.unary Asio.unary_texts .sample (.domain (ascii "a\r\n\r\nb") 80)
  exact absurd hagree.1 (by decide)

end Shine
