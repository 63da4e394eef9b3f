import Shine.Lib.Asserts
import Shine.Outbound.Handle
import Shine.Transport.HostPort

/-!
# Where the direct outbound sends datagrams (`DirectOutbound::handleUdp`)

`read_client` keeps the endpoint that a domain was resolved to for a minute. An endpoint has a
port, and the cache is searched by the domain alone, so that a datagram goes to the port of the
earlier one that the domain was resolved for.

The coroutine runs in a world with the client's datagrams, a clock that does not go back and a
resolver that answers anything, for the port it is asked for. A resolution has the time of the
reading that follows it.

- `upholds_handleUdp`, by an invariant of the loop over the cache (`CacheInv`): the address of
  every datagram sent is the target's own, or one that the domain was resolved to for this
  datagram or less than a minute before.
- `udp_ports_iff`: all datagrams go to the ports they name, in every run, exactly if the client
  never uses two ports of a domain.
-/

namespace Shine

/-- The address of an endpoint. -/
def Endpoint.address : Endpoint → ByteArrayN 4 ⊕ ByteArrayN 16
  | .v4 bytes _ => .inl bytes
  | .v6 bytes _ => .inr bytes

/-- What the relay works with. -/
structure UdpWorld where
  /-- The datagrams that the client will send. -/
  arriving : List Datagram
  /-- The first one has been taken out of the `InjectedStream`. -/
  taken : Bool
  /-- The last datagram received. -/
  current : Option Datagram
  /-- The last reading of the clock. -/
  clock : Int
  /-- The domain resolved for the last datagram. -/
  answer : Option (Bytes × Endpoint)
  /-- The domains resolved, with the reading that followed. -/
  resolved : List (Bytes × Endpoint × Int)

namespace UdpWorld

/-- Before the first datagram. -/
def start (ds : List Datagram) (began : Int) : UdpWorld where
  arriving := ds
  taken := false
  current := none
  clock := began
  answer := none
  resolved := []

/-- The client's next datagram is received. -/
def receive (w : UdpWorld) (d : Datagram) (rest : List Datagram) : UdpWorld :=
  { w with arriving := rest, taken := true, current := some d, answer := none }

/-- The clock is read. -/
def read (w : UdpWorld) (now : Int) : UdpWorld :=
  { w with
    clock := now
    resolved := match w.answer with
      | none => w.resolved
      | some (name, ep) => (name, ep, now) :: w.resolved }

/-- What the calls of the relay do, and what they can be answered. -/
def exec (w : UdpWorld) : (op : HandlerOp) → op.Ans → UdpWorld → Prop
  | .takeInjected, r, w' =>
    match r with
    | none => w.taken = true ∧ w' = w
    | some d => w.taken = false ∧ ∃ rest, w.arriving = d :: rest ∧ w' = w.receive d rest
  | .session _ .receiveDatagram, r, w' =>
    match r with
    | none => w' = w
    | some d => ∃ rest, w.arriving = d :: rest ∧ w' = w.receive d rest
  | .remote (.resolveOne (.domain name port)), r, w' =>
    match r with
    | .error _ => w' = w
    | .ok ep => ep.port = port ∧ w' = { w with answer := some (name, ep) }
  | .remote .now, now, w' => w.clock ≤ now ∧ w' = w.read now
  | _, _, w' => w' = w

/-- The datagram is the last one received, and goes to the port it is for. -/
def ToNamedPort (w : UdpWorld) (payload : Bytes) (dest : Endpoint) : Prop :=
  ∃ t, w.current = some (payload, t) ∧ dest.port = t.port

/-- The address is the target's own, or one that the domain was resolved to for this datagram or
less than a minute before. -/
def Known (w : UdpWorld) (address : ByteArrayN 4 ⊕ ByteArrayN 16) : Address → Prop
  | .ipv4 bytes _ => address = .inl bytes
  | .ipv6 bytes _ => address = .inr bytes
  | .domain name _ => (∃ ep, w.answer = some (name, ep) ∧ address = ep.address) ∨
      ∃ ep time, (name, ep, time) ∈ w.resolved ∧ address = ep.address ∧
        time ≤ w.clock ∧ w.clock - time < 60 * 10 ^ 9

/-- The datagram is the last one received, and goes to an address known for its target. -/
def ToKnownAddress (w : UdpWorld) (payload : Bytes) (dest : Endpoint) : Prop :=
  ∃ t, w.current = some (payload, t) ∧ w.Known dest.address t

end UdpWorld

/-- No domain occurs with two ports. -/
def OnePort (ds : List Datagram) : Prop :=
  ∀ name x p y q, (x, .domain name p) ∈ ds → (y, .domain name q) ∈ ds → p = q

namespace DirectOutbound

open Handler UdpWorld

/-- What is asserted of a call: a datagram goes to a known address, and to the port it is for if
the client uses one port of every domain. -/
def Asserted (ds : List Datagram) (w : UdpWorld) : HandlerOp → Prop
  | .remote (.asyncSendTo payload dest) =>
    (OnePort ds → w.ToNamedPort payload dest) ∧ w.ToKnownAddress payload dest
  | _ => True

theorem handleUdp_eq {A : Asio} {sid : UInt64} {req : SessionRequest}
    (hdial : dialUdp A req = .ok ()) :
    handleUdp A sid req = (Co.par (readClient (clientDatagramStream sid))
      (readRemote (clientDatagramStream sid))).bind fun _ => .ret (.ok ()) := by
  rw [handleUdp, hdial]
  rfl

/-! ## Known addresses -/

/-- What the cache of `read_client` holds. -/
structure CacheInv (ds : List Datagram) (cache : Cache) (w : UdpWorld) : Prop where
  arriving : ∀ d ∈ w.arriving, d ∈ ds
  /-- A resolution was made for the port of some datagram. -/
  resolved : ∀ name ep time, (name, ep, time) ∈ w.resolved →
    time ≤ w.clock ∧ ∃ x, (x, .domain name ep.port) ∈ ds
  cached : ∀ e ∈ cache, e ∈ w.resolved

/-- A datagram has been received, and nothing has been done about it. -/
structure Received (ds : List Datagram) (cache : Cache) (d : Datagram) (w : UdpWorld) : Prop
    extends CacheInv ds cache w where
  current : w.current = some d
  mem : d ∈ ds
  answer : w.answer = none

section Known

variable {ds : List Datagram} {cache : Cache} {d : Datagram} {w w' : UdpWorld}

theorem CacheInv.receive (h : CacheInv ds cache w) {rest : List Datagram}
    (harriving : w.arriving = d :: rest) : Received ds cache d (w.receive d rest) where
  arriving := fun d' hd' => h.arriving d' (by rw [harriving]; exact List.mem_cons_of_mem _ hd')
  resolved := h.resolved
  cached := h.cached
  current := rfl
  mem := h.arriving d (by rw [harriving]; exact List.mem_cons_self)
  answer := rfl

theorem upholds_receiveFrom (sid : UInt64) (h : CacheInv ds cache w) :
    Co.Upholds exec (Asserted ds) (clientDatagramStream sid).receiveFrom
      (fun r w => ∀ d, r = .ok d → Received ds cache d w) w := by
  have hsession : Co.Upholds exec (Asserted ds) (Session.receiveFrom (piece .outbound))
      (fun r w => ∀ d, r = .ok d → Received ds cache d w) w := by
    refine .bind (.await trivial fun ready w' hw' => ?_)
    cases hw'
    cases ready with
    | false => exact nofun
    | true =>
      refine .bind (.await trivial fun r w' hw' => ?_)
      cases r with
      | none => exact nofun
      | some d =>
        obtain ⟨rest, harriving, rfl⟩ := hw'
        rintro _ ⟨⟩
        exact h.receive harriving
  refine .bind (.await trivial fun r w' hw' => ?_)
  cases r with
  | none =>
    obtain ⟨-, rfl⟩ := hw'
    exact hsession
  | some d =>
    obtain ⟨-, rest, harriving, rfl⟩ := hw'
    rintro _ ⟨⟩
    exact h.receive harriving

theorem CacheInv.read (h : CacheInv ds cache w) {now : Int} (hnow : w.clock ≤ now)
    (hanswer : ∀ name ep, w.answer = some (name, ep) → ∃ x, (x, .domain name ep.port) ∈ ds) :
    CacheInv ds cache (w.read now) where
  arriving := h.arriving
  resolved := by
    intro name ep time hmem
    simp only [UdpWorld.read] at hmem
    split at hmem
    · obtain ⟨htime, hport⟩ := h.resolved name ep time hmem
      exact ⟨htime.trans hnow, hport⟩
    · next name' ep' heq =>
      rcases List.mem_cons.mp hmem with hnew | hmem
      · cases hnew
        exact ⟨le_rfl, hanswer name ep heq⟩
      · obtain ⟨htime, hport⟩ := h.resolved name ep time hmem
        exact ⟨htime.trans hnow, hport⟩
  cached := by
    intro e he
    simp only [UdpWorld.read]
    split
    · exact h.cached e he
    · exact List.mem_cons_of_mem _ (h.cached e he)

theorem Received.read (h : Received ds cache d w) {now : Int} (hnow : w.clock ≤ now) :
    Received ds cache d (w.read now) where
  toCacheInv := h.toCacheInv.read hnow (by simp [h.answer])
  current := h.current
  mem := h.mem
  answer := h.answer

theorem mem_of_lookup {name : Bytes} {entry : Endpoint × Int}
    (h : cache.lookup name = some entry) : (name, entry) ∈ cache := by
  obtain ⟨l₁, l₂, rfl, -⟩ := List.lookup_eq_some_iff.mp h
  exact List.mem_append_right _ List.mem_cons_self

/-- An endpoint that is taken from the cache was resolved less than a minute before. -/
theorem upholds_cached (h : Received ds cache d w) (name : Bytes) :
    Co.Upholds exec (Asserted ds) (cached cache name) (fun r w => Received ds cache d w ∧
      ∀ dest, r = some dest → ∃ time, (name, dest, time) ∈ w.resolved ∧
        time ≤ w.clock ∧ w.clock - time < 60 * 10 ^ 9) w := by
  rw [cached]
  split
  · exact ⟨h, nofun⟩
  · next dest time hlookup =>
    refine .bind (.await trivial fun now w' hw' => ?_)
    obtain ⟨hnow, rfl⟩ := hw'
    refine ⟨h.read hnow, fun dest' hdest => ?_⟩
    split_ifs at hdest with hfresh
    cases hdest
    have hmem := (h.read hnow).cached _ (mem_of_lookup hlookup)
    exact ⟨time, hmem, ((h.read hnow).resolved name dest time hmem).1, hfresh⟩

/-- The cache after an entry has been written that the reading before has dated. -/
theorem CacheInv.set (h : CacheInv ds cache w) {name : Bytes} {dest : Endpoint} {time : Int}
    (hmem : (name, dest, time) ∈ w.resolved) : CacheInv ds (cache.set name dest time) w :=
  { h with
    cached := fun e he => by
      rcases List.mem_cons.mp he with rfl | he
      · exact hmem
      · exact h.cached e (List.mem_of_mem_filter he) }

theorem upholds_destination {payload : Bytes} {t : Address}
    (h : Received ds cache (payload, t) w) :
    Co.Upholds exec (Asserted ds) (destination cache t) (fun r w => CacheInv ds r.2 w ∧
      w.current = some (payload, t) ∧ ∀ dest, r.1 = some dest →
        (OnePort ds → dest.port = t.port) ∧ w.Known dest.address t) w := by
  cases t with
  | ipv4 bytes port =>
    refine ⟨h.toCacheInv, h.current, ?_⟩
    rintro _ ⟨⟩
    exact ⟨fun _ => rfl, rfl⟩
  | ipv6 bytes port =>
    refine ⟨h.toCacheInv, h.current, ?_⟩
    rintro _ ⟨⟩
    exact ⟨fun _ => rfl, rfl⟩
  | domain name port =>
    refine .bind ((upholds_cached h name).mono fun r w hr => ?_)
    obtain ⟨h, hcached⟩ := hr
    cases r with
    | some dest =>
      -- the port is the one that the domain was resolved for
      obtain ⟨time, hmem, hle, hlt⟩ := hcached dest rfl
      refine ⟨h.toCacheInv, h.current, ?_⟩
      rintro _ ⟨⟩
      obtain ⟨-, x, hx⟩ := h.resolved name dest time hmem
      exact ⟨fun hone => hone _ _ _ _ _ hx h.mem, .inr ⟨dest, time, hmem, rfl, hle, hlt⟩⟩
    | none =>
      refine .bind (.await trivial fun r w' hw' => ?_)
      cases r with
      | error st =>
        cases hw'
        exact ⟨h.toCacheInv, h.current, nofun⟩
      | ok ep =>
        obtain ⟨hport, rfl⟩ := hw'
        have hinv : CacheInv ds cache { w with answer := some (name, ep) } :=
          ⟨h.arriving, h.resolved, h.cached⟩
        dsimp only
        split_ifs
        · refine .bind (.await trivial fun now w' hw' => ?_)
          obtain ⟨hnow, rfl⟩ := hw'
          refine ⟨(hinv.read hnow ?_).set List.mem_cons_self, h.current, ?_⟩
          · rintro _ _ ⟨⟩
            exact ⟨payload, by rw [hport]; exact h.mem⟩
          · rintro _ ⟨⟩
            exact ⟨fun _ => hport, .inl ⟨ep, rfl, rfl⟩⟩
        · refine ⟨hinv, h.current, ?_⟩
          rintro _ ⟨⟩
          exact ⟨fun _ => hport, .inl ⟨ep, rfl, rfl⟩⟩

theorem upholds_clientTurn (sid : UInt64) (h : CacheInv ds cache w) :
    Co.Upholds exec (Asserted ds) (clientTurn (clientDatagramStream sid) cache)
      (fun r w => Sum.elim (CacheInv ds · w) (fun _ => True) r) w := by
  refine .bind ((upholds_receiveFrom sid h).mono fun r w hr => ?_)
  rcases r with st | ⟨payload, t⟩
  · exact trivial
  · refine .bind ((upholds_destination (hr _ rfl)).mono fun r w hr => ?_)
    obtain ⟨dest | dest, cache'⟩ := r
    · exact hr.1
    · obtain ⟨hinv, hcurrent, hdest⟩ := hr
      obtain ⟨hport, hknown⟩ := hdest dest rfl
      refine .bind (.await ⟨fun hone => ⟨t, hcurrent, hport hone⟩, t, hcurrent, hknown⟩
        fun _ w' hw' => ?_)
      cases hw'
      exact hinv

/-- `read_remote` does nothing that matters here. -/
theorem passive_readRemote (ds : List Datagram) (sid : UInt64) :
    Co.Clean (fun op => ¬ Co.Passive exec (Asserted ds) op)
      (readRemote (clientDatagramStream sid)) := by
  have hpiece : ∀ op, op ≠ SessionOp.receiveDatagram → Co.Clean
      (fun op => ¬ Co.Passive exec (Asserted ds) op) (piece .outbound op) := by
    intro op hop
    refine .await (not_not.mpr fun w => ⟨trivial, fun r w' hw' => ?_⟩)
    cases op with
    | receiveDatagram => exact absurd rfl hop
    | _ => exact hw'
  refine .bind (.loop fun _ => .bind (.await (not_not.mpr fun w => ⟨trivial, fun _ _ => id⟩))
    fun r => ?_) fun _ => hpiece _ nofun
  rcases r with st | ⟨payload, sender⟩
  · exact .ret _
  · refine .bind (.bind (hpiece _ nofun) fun r => ?_) fun r => ?_
    · cases r with
      | error st => exact .ret _
      | ok _ => exact .bind (hpiece _ nofun) fun _ => .ret _
    · cases r <;> exact .ret _

/-- **Every call of a run is as asserted.** -/
theorem upholds_handleUdp {A : Asio} {sid : UInt64} {req : SessionRequest}
    (hdial : dialUdp A req = .ok ()) (ds : List Datagram) (began : Int) :
    Co.Upholds exec (Asserted ds) (handleUdp A sid req) (fun _ _ => True) (start ds began) := by
  rw [handleUdp_eq hdial, readClient]
  refine .bind (.par (passive_readRemote ds sid)
    (.bind (.loop (CacheInv ds) ?_ fun cache w h => ?_)))
  · exact ⟨fun _ => id, nofun, nofun⟩
  · exact (upholds_clientTurn sid h).mono fun r w hr => by
      cases r with
      | inl cache => exact hr
      | inr u => exact ⟨trivial, fun _ _ _ => trivial⟩

end Known

/-! ## Two ports of a domain -/

section Runs

variable {cache : Cache} {d : Datagram} {rest : List Datagram} {w : UdpWorld} {sid : UInt64}

/-- The next datagram can be received. -/
theorem returns_receiveFrom (sid : UInt64) (h : w.arriving = d :: rest) :
    Co.Returns exec (clientDatagramStream sid).receiveFrom w (.ok d) (w.receive d rest) := by
  cases htaken : w.taken with
  | false =>
    have htake : exec w .takeInjected (some d) (w.receive d rest) := ⟨htaken, rest, h, rfl⟩
    exact .bind (.await htake) .refl
  | true =>
    have htake : exec w .takeInjected none w := ⟨htaken, rfl⟩
    have hready : exec w (.session .outbound .checkReceive) true w := rfl
    have hreceive : exec w (.session .outbound .receiveDatagram) (some d) (w.receive d rest) :=
      ⟨rest, h, rfl⟩
    exact .bind (.await htake) (.bind (.await hready) (.bind (.await hreceive) .refl))

/-- A reading of a clock that stands still. -/
theorem read_clock (h : w.answer = none) : w.read w.clock = w := by
  obtain ⟨_, _, _, _, answer, _⟩ := w
  obtain rfl : answer = none := h
  rfl

/-- An entry of the cache is used while the clock stands still. -/
theorem returns_cached {name : Bytes} {dest : Endpoint} (hanswer : w.answer = none)
    (hlookup : cache.lookup name = some (dest, w.clock)) :
    Co.Returns exec (cached cache name) w (some dest) w := by
  have hnow : exec w (.remote .now) w.clock w := ⟨le_rfl, (read_clock hanswer).symm⟩
  rw [cached, hlookup]
  refine .bind (.await hnow) ?_
  rw [sub_self, if_pos (by norm_num)]
  exact .refl

/-- A datagram that needs the resolver can be dropped, so that the cache stays as it is. -/
theorem returns_destination (hanswer : w.answer = none) (htimes : ∀ e ∈ cache, e.2.2 = w.clock)
    (t : Address) : ∃ dest, Co.Returns exec (destination cache t) w (dest, cache) w := by
  cases t with
  | ipv4 bytes port => exact ⟨_, .refl⟩
  | ipv6 bytes port => exact ⟨_, .refl⟩
  | domain name port =>
    cases hlookup : cache.lookup name with
    | none =>
      have hcached : Co.Returns exec (cached cache name) w none w := by
        rw [cached, hlookup]
        exact .refl
      have hfail : exec w (.remote (.resolveOne (.domain name port)))
        (.error (.unavailable [])) w := rfl
      exact ⟨none, .bind hcached (.bind (.await hfail) .refl)⟩
    | some entry =>
      obtain ⟨dest, time⟩ := entry
      obtain rfl : time = w.clock := htimes _ (mem_of_lookup hlookup)
      exact ⟨some dest, .bind (returns_cached hanswer hlookup) .refl⟩

/-- A turn of the loop that leaves the cache as it is. -/
theorem returns_clientTurn (sid : UInt64) (h : w.arriving = d :: rest)
    (htimes : ∀ e ∈ cache, e.2.2 = w.clock) :
    Co.Returns exec (clientTurn (clientDatagramStream sid) cache) w (.inl cache)
      (w.receive d rest) := by
  obtain ⟨payload, t⟩ := d
  obtain ⟨dest, hdest⟩ := returns_destination (w := w.receive (payload, t) rest) rfl htimes t
  refine .bind (returns_receiveFrom sid h) (.bind hdest ?_)
  cases dest with
  | none => exact .refl
  | some dest =>
    have hsend : exec (w.receive (payload, t) rest) (.remote (.asyncSendTo payload dest)) ()
      (w.receive (payload, t) rest) := rfl
    exact .bind (.await hsend) .refl

/-- Any datagrams can go by like this. -/
theorem run_past {k : Unit → Handler Unit} (sid : UInt64) (pre : List Datagram)
    (h : w.arriving = pre ++ rest) (htimes : ∀ e ∈ cache, e.2.2 = w.clock) :
    ∃ w', Co.Run exec Co.Alone (.iter (clientTurn (clientDatagramStream sid)) cache k) w
        (.iter (clientTurn (clientDatagramStream sid)) cache k) w' ∧
      w'.arriving = rest ∧ w'.clock = w.clock := by
  induction pre generalizing w with
  | nil => exact ⟨w, .refl, h, rfl⟩
  | cons d pre ih =>
    obtain ⟨w', hrun, harriving, hclock⟩ := ih (w := w.receive d (pre ++ rest)) rfl htimes
    exact ⟨w', (returns_clientTurn sid h htimes).turn.trans hrun, harriving, hclock⟩

/-- The resolver's answer goes into the cache. -/
theorem returns_clientTurn_resolved (sid : UInt64) {payload name : Bytes} {ep : Endpoint}
    (h : w.arriving = (payload, .domain name ep.port) :: rest) :
    ∃ w', Co.Returns exec (clientTurn (clientDatagramStream sid) []) w
        (.inl [(name, ep, w.clock)]) w' ∧ w'.arriving = rest ∧ w'.clock = w.clock := by
  let w₁ := w.receive (payload, .domain name ep.port) rest
  let w₂ : UdpWorld := { w₁ with answer := some (name, ep) }
  have hresolve : exec w₁ (.remote (.resolveOne (.domain name ep.port))) (.ok ep) w₂ := ⟨rfl, rfl⟩
  have hnow : exec w₂ (.remote .now) w.clock (w₂.read w.clock) := ⟨le_rfl, rfl⟩
  have hsend : exec (w₂.read w.clock) (.remote (.asyncSendTo payload ep)) () (w₂.read w.clock) :=
    rfl
  have hcached : Co.Returns exec (cached [] name) w₁ none w₁ := .refl
  have hdest : Co.Returns exec (destination [] (.domain name ep.port)) w₁
      (some ep, [(name, ep, w.clock)]) (w₂.read w.clock) :=
    .bind hcached (.bind (.await hresolve) (.bind (.await hnow) .refl))
  exact ⟨w₂.read w.clock,
    .bind (returns_receiveFrom sid h) (.bind hdest (.bind (.await hsend) .refl)), rfl, rfl⟩

/-- A datagram for a domain in the cache is about to be sent. -/
theorem run_sends_cached {k : Unit → Handler Unit} (sid : UInt64) {payload name : Bytes}
    {port : UInt16} {ep : Endpoint} (h : w.arriving = (payload, .domain name port) :: rest)
    (hlookup : cache.lookup name = some (ep, w.clock)) :
    ∃ c, Co.Run exec Co.Alone (.iter (clientTurn (clientDatagramStream sid)) cache k) w c
        (w.receive (payload, .domain name port) rest) ∧
      Co.Awaits c (.remote (.asyncSendTo payload ep)) := by
  have hcached := returns_cached (w := w.receive (payload, .domain name port) rest) rfl hlookup
  have hdest : Co.Returns exec (destination cache (.domain name port))
      (w.receive (payload, .domain name port) rest) (some ep, cache)
      (w.receive (payload, .domain name port) rest) := .bind hcached .refl
  have hturn : Co.Run exec Co.Alone (clientTurn (clientDatagramStream sid) cache) w
      ((remote (.asyncSendTo payload ep)).bind fun _ => .ret (.inl cache))
      (w.receive (payload, .domain name port) rest) :=
    (returns_receiveFrom sid h).run (hdest.run .refl)
  exact ⟨_, (Co.Run.own .refl .iter).trans (hturn.bind _), .call⟩

/-- Some run that the client's datagrams start is about to send `payload` to `dest`. -/
def Sends (A : Asio) (sid : UInt64) (req : SessionRequest) (ds : List Datagram) (began : Int)
    (w : UdpWorld) (payload : Bytes) (dest : Endpoint) : Prop :=
  ∃ c, Co.Run exec Co.Alone (handleUdp A sid req) (start ds began) c w ∧
    Co.Awaits c (.remote (.asyncSendTo payload dest))

/-- **A datagram for a domain can go to the port of an earlier one.** -/
theorem sends_to_earlier_port {A : Asio} {req : SessionRequest} (hdial : dialUdp A req = .ok ())
    (sid : UInt64) (began : Int) (x y name : Bytes) (ep : Endpoint) (q : UInt16)
    (pre mid post : List Datagram) :
    ∃ w, Sends A sid req (pre ++ (x, .domain name ep.port) :: (mid ++ (y, .domain name q) :: post))
        began w y ep ∧ w.current = some (y, .domain name q) := by
  have hstart : (start (pre ++ (x, .domain name ep.port) :: (mid ++ (y, .domain name q) :: post))
      began).arriving = pre ++ (x, .domain name ep.port) :: (mid ++ (y, .domain name q) :: post) :=
    rfl
  have hnone : ∀ e ∈ ([] : Cache), e.2.2 = began := nofun
  obtain ⟨w₁, hpre, harriving₁, -⟩ := run_past (k := .ret) sid pre hstart hnone
  obtain ⟨w₂, hresolved, harriving₂, hclock₂⟩ := returns_clientTurn_resolved sid harriving₁
  have hnow : ∀ e ∈ [(name, ep, w₁.clock)], e.2.2 = w₂.clock := by simp [hclock₂]
  obtain ⟨w₃, hmid, harriving₃, hclock₃⟩ := run_past (k := .ret) sid mid harriving₂ hnow
  have hlookup : List.lookup name [(name, ep, w₁.clock)] = some (ep, w₃.clock) := by
    simp [hclock₃, hclock₂]
  obtain ⟨c, hsend, hawaits⟩ := run_sends_cached (k := .ret) sid harriving₃ hlookup
  have hloop := ((hpre.trans hresolved.turn).trans hmid).trans hsend
  simp only [Sends, handleUdp_eq hdial, readClient]
  exact ⟨_, ⟨_, ((hloop.bind _).left).bind _, ((hawaits.bind _).left).bind _⟩, rfl⟩

end Runs

section Ports

variable {A : Asio} {sid : UInt64} {req : SessionRequest} {ds : List Datagram} {began : Int}

/-- If all datagrams go to the ports they name, a later port of a domain is the earlier one. -/
theorem port_eq_of_later (hdial : dialUdp A req = .ok ())
    (h : ∀ w payload dest, Sends A sid req ds began w payload dest → w.ToNamedPort payload dest)
    {x y name : Bytes} {p q : UInt16} {pre mid post : List Datagram}
    (hds : ds = pre ++ (x, .domain name p) :: (mid ++ (y, .domain name q) :: post)) : p = q := by
  subst hds
  obtain ⟨w, hsends, hcurrent⟩ := sends_to_earlier_port hdial sid began x y name
    (.v4 ⟨[1, 2, 3, 4], rfl⟩ p) q pre mid post
  obtain ⟨t, ht, hport⟩ := h w y _ hsends
  rw [hcurrent] at ht
  cases ht
  exact hport

theorem onePort_of_named (hdial : dialUdp A req = .ok ())
    (h : ∀ w payload dest, Sends A sid req ds began w payload dest → w.ToNamedPort payload dest) :
    OnePort ds := by
  intro name x p y q hx hy
  obtain ⟨s, t, rfl⟩ := List.append_of_mem hx
  rcases List.mem_append.mp hy with hbefore | hy
  · obtain ⟨pre, mid, rfl⟩ := List.append_of_mem hbefore
    exact (port_eq_of_later hdial h (List.append_assoc ..)).symm
  · rcases List.mem_cons.mp hy with heq | hafter
    · cases heq
      rfl
    · obtain ⟨mid, post, rfl⟩ := List.append_of_mem hafter
      exact port_eq_of_later hdial h rfl

end Ports

/-- **All datagrams go to the ports they name, in every run, exactly if no domain occurs with two
ports.** The address is always the target's own, or one that the domain was resolved to for this
datagram or less than a minute before. -/
theorem udp_ports_iff (A : Asio) (sid : UInt64) (req : SessionRequest)
    (hdial : dialUdp A req = .ok ()) (ds : List Datagram) (began : Int) :
    ((∀ w payload dest, Sends A sid req ds began w payload dest → w.ToNamedPort payload dest) ↔
        OnePort ds) ∧
      ∀ w payload dest, Sends A sid req ds began w payload dest →
        w.ToKnownAddress payload dest := by
  have hcalls : ∀ w payload dest, Sends A sid req ds began w payload dest →
      Asserted ds w (.remote (.asyncSendTo payload dest)) := by
    rintro w payload dest ⟨c, hrun, hawaits⟩
    exact (upholds_handleUdp hdial ds began).awaits_run hrun hawaits
  refine ⟨⟨onePort_of_named hdial, fun hone w payload dest hsends => ?_⟩,
    fun w payload dest hsends => ?_⟩
  · exact (hcalls w payload dest hsends).1 hone
  · exact (hcalls w payload dest hsends).2

/-- A network in which a UDP socket can be bound. -/
def sampleNetwork : Asio := .sample (.error []) (.error []) (.ok ())

/-- A UDP request of a shine session. -/
def sampleUdpRequest : SessionRequest where
  inboundTag := []
  inboundProtocol := ascii "shine"
  protocol := .udp
  target := .domain [97] 53
  clientStream := false
  clientDatagramStream := true

/-- One domain with one port. -/
theorem udp_ports_iff_dns : dialUdp sampleNetwork sampleUdpRequest = .ok () ∧
    ∀ w payload dest,
      Sends sampleNetwork 7 sampleUdpRequest [([1], .domain [97] 53)] 0 w payload dest →
        w.ToNamedPort payload dest := by
  refine ⟨rfl, (udp_ports_iff sampleNetwork 7 sampleUdpRequest rfl _ 0).1.mpr ?_⟩
  intro name x p y q hx hy
  simp only [List.mem_singleton] at hx hy
  cases hx
  cases hy
  rfl

/-- After a datagram for port 53 of a domain, one for its port 80 goes to port 53. -/
theorem udp_second_port_ignored : ∃ w,
    Sends sampleNetwork 7 sampleUdpRequest [([1], .domain [97] 53), ([2], .domain [97] 80)] 0 w [2]
      (.v4 ⟨[1, 2, 3, 4], rfl⟩ 53) ∧
    w.current = some ([2], .domain [97] 80) ∧ ¬ w.ToNamedPort [2] (.v4 ⟨[1, 2, 3, 4], rfl⟩ 53) := by
  have hdial : dialUdp sampleNetwork sampleUdpRequest = .ok () := rfl
  obtain ⟨w, hsends, hcurrent⟩ := sends_to_earlier_port hdial 7 0 [1] [2] [97]
    (.v4 ⟨[1, 2, 3, 4], rfl⟩ 53) 80 [] [] []
  refine ⟨w, hsends, hcurrent, ?_⟩
  rintro ⟨t, ht, hport⟩
  rw [hcurrent] at ht
  cases ht
  cases hport

end DirectOutbound

end Shine
