import Shine.Transport.HandshakeInv

/-!
# Handshake agreement

When nothing is in flight any more and neither side can go on, the two sides should agree:
both have finished their handshake or neither has, and both have exactly if their
passwords are the same.

Every run can be completed (`exists_quiescent`). `handshake_agreement` is the exact
condition for agreement in every quiescent state. A side that alone has a password waits
for a frame that is never sent, or sends one that nobody answers.
-/

namespace Shine

namespace Handshake

/-! ## Runs end in a quiescent state -/

/-- A client that cannot run and does not decode has closed its link. -/
theorem ClientInv.closed_of_ended {opts : LinkOptions} {c : Client} {done : Bool}
    {read sent : List ShineFrame} (h : ClientInv opts c done read sent) (hj : c.jump = none)
    (hd : c.decoding = false) : c.link.closed = true := by
  by_contra hclosed
  have hopen : c.link.closed = false := by simpa using hclosed
  have hat := h.stands hopen
  cases hpc : c.pc with
  | sendHello | sendAuth | returned => simp [Client.jump, hpc] at hj
  | hello | reply | reader => simp [Client.decoding, hpc, hopen] at hd
  | finished =>
    rw [hpc] at hat
    exact hat

/-- A server that cannot run and does not decode has closed its link. -/
theorem ServerInv.closed_of_ended {opts : LinkOptions} {s : Server} {done : Bool}
    {read sent : List ShineFrame} (h : ServerInv opts s done read sent) (hj : s.jump = none)
    (hd : s.decoding = false) : s.link.closed = true := by
  by_contra hclosed
  have hopen : s.link.closed = false := by simpa using hclosed
  have hat := h.stands hopen
  cases hpc : s.pc with
  | sendHello | sendOk | sendErr | failAuth | returned => simp [Server.jump, hpc] at hj
  | hello | auth | reader => simp [Server.decoding, hpc, hopen] at hd
  | finished =>
    rw [hpc] at hat
    exact hat

theorem eq_nil_of_pop {α : Type} {queue : List ShineFrame} {g : ShineFrame × List ShineFrame → α}
    (h : (pop queue).map g = none) : queue = [] := by
  cases queue with
  | nil => rfl
  | cons f rest => cases h

/-- Where nothing can happen, nothing is in flight. -/
theorem Inv.quiescent {co so : LinkOptions} {h : Handshake} (hi : Inv co so h)
    (hstuck : system.Stuck h) : h.Quiescent := by
  have hclient : h.client.jump = none := Option.map_eq_none_iff.mp (hstuck .clientRuns)
  have hserver : h.server.jump = none := Option.map_eq_none_iff.mp (hstuck .serverRuns)
  refine ⟨hclient, hserver, ?_, ?_, ?_, ?_⟩
  · -- what is still on its way up could be read, or dropped by a closed socket
    cases hd : h.server.decoding with
    | true =>
      have := hstuck .serverReads
      simp only [system, Handshake.step, hd, if_true] at this
      exact eq_nil_of_pop this
    | false =>
      have := hstuck .serverDrops
      simp only [system, Handshake.step, hi.server.closed_of_ended hserver hd, if_true] at this
      exact eq_nil_of_pop this
  · cases hd : h.client.decoding with
    | true =>
      have := hstuck .clientReads
      simp only [system, Handshake.step, hd, if_true] at this
      exact eq_nil_of_pop this
    | false =>
      have := hstuck .clientDrops
      simp only [system, Handshake.step, hi.client.closed_of_ended hclient hd, if_true] at this
      exact eq_nil_of_pop this
  · intro hopen
    have := hstuck .clientWrites
    simp only [system, Handshake.step, hopen, Bool.false_eq_true, if_false] at this
    exact eq_nil_of_pop this
  · intro hopen
    have := hstuck .serverWrites
    simp only [system, Handshake.step, hopen, Bool.false_eq_true, if_false] at this
    exact eq_nil_of_pop this

/-- `handshake_done_` is never taken back. -/
theorem done_mono {h h' : Handshake} (hr : system.Reach Lts.Free h h') :
    (h.clientDone = true → h'.clientDone = true) ∧
      (h.serverDone = true → h'.serverDone = true) := by
  induction hr with
  | refl => exact ⟨id, id⟩
  | @tail s t e _ _ hstep ih =>
    have hkeep : (s.clientDone = true → t.clientDone = true) ∧
        (s.serverDone = true → t.serverDone = true) := by
      cases e with
      | clientRuns | serverRuns =>
        obtain ⟨_, _, rfl⟩ := Option.map_eq_some_iff.mp hstep
        constructor <;> intro hdone <;> simp [hdone]
      | clientEof | serverEof =>
        simp only [system, Handshake.step] at hstep
        split_ifs at hstep
        cases hstep
        exact ⟨id, id⟩
      | _ =>
        simp only [system, Handshake.step] at hstep
        split_ifs at hstep
        obtain ⟨_, _, rfl⟩ := Option.map_eq_some_iff.mp hstep
        exact ⟨id, id⟩
    exact ⟨fun hdone => hkeep.1 (ih.1 hdone), fun hdone => hkeep.2 (ih.2 hdone)⟩

/-- **Every run can be completed**: from any state reached, a quiescent one is reached. -/
theorem exists_quiescent {co so : LinkOptions} {handler : Bool} {h : Handshake}
    (hr : system.Reach Lts.Free (.start co so handler) h) :
    ∃ h', system.Reach Lts.Free (.start co so handler) h' ∧ h'.Quiescent ∧
      (h.clientDone = true → h'.clientDone = true) ∧
      (h.serverDone = true → h'.serverDone = true) := by
  obtain ⟨h', hr', hstuck⟩ := Lts.exists_stuck (M := system) (P := Inv co so) distance
    (fun _ _ _ hi hs => hi.step hs) (Inv.reach hr)
  have hreach := hr.trans hr'
  exact ⟨h', hreach, (Inv.reach hreach).quiescent hstuck, done_mono hr'⟩

/-! ## The same password on both sides -/

/-- Every frame of a successful handshake is within the limit of the side that reads it. -/
structure Carries (co so : LinkOptions) : Prop where
  up : Fits so.maxPayload helloFrame
  down : Fits co.maxPayload helloFrame
  auth : Fits so.maxPayload (.auth co.password)

/-- OK and an empty AUTH are shorter than HELLO. -/
theorem fits_of_hello {limit : Nat} (h : Fits limit helloFrame) :
    Fits limit .ok ∧ Fits limit (.auth []) := by
  have hlimit : 8 ≤ limit := (h (ascii "mux,flow") (by decide)).1
  constructor <;> intro p hp
  · have : p.length ≤ 8 := by
      revert p
      decide
    exact ⟨this.trans hlimit, by omega⟩
  · have : p.length ≤ 8 := by
      revert p
      decide
    exact ⟨this.trans hlimit, by omega⟩

namespace Inv

variable {co so : LinkOptions} {h h' : Handshake}

/-- The frame that the server reads next. -/
theorem next_up (hi : Inv co so h) {f : ShineFrame} {rest : List ShineFrame}
    (hq : h.toServer = f :: rest) :
    (h.serverRead = [] → f = helloFrame) ∧
      (h.serverRead.length = 1 → f = .auth co.password) := by
  have hprefix := hi.client.said
  rw [sentUp, hq] at hprefix
  constructor
  · intro hread
    rw [hread] at hprefix
    exact (List.cons_prefix_cons.mp hprefix).1
  · intro hread
    obtain ⟨g, hg⟩ := List.length_eq_one_iff.mp hread
    rw [hg] at hprefix
    exact (List.cons_prefix_cons.mp (List.cons_prefix_cons.mp hprefix).2).1

/-- Whatever the server has rejected or accepted is the client's password. -/
theorem auth_eq (hi : Inv co so h) {password : Bytes} (hmem : .auth password ∈ h.serverRead) :
    password = co.password := by
  have hsent := hi.client.said.subset (List.mem_append_left _ hmem)
  simpa [helloFrame] using hsent

/-- A rejection means that the passwords differ. -/
theorem ne_of_rejected (hi : Inv co so h) (hr : Rejected so h.serverRead) :
    co.password ≠ so.password := by
  obtain ⟨password, hne, hmem⟩ := hr
  exact hi.auth_eq hmem ▸ hne

/-- The frame that the client reads next, if the passwords are the same. -/
theorem next_down (hi : Inv co so h) (heq : co.password = so.password) {f : ShineFrame}
    {rest : List ShineFrame} (hq : h.toClient = f :: rest) :
    (f = helloFrame ∨ f = .ok) ∧ (h.clientRead = [] → f = helloFrame) ∧
      (h.clientRead.length = 1 → f = .ok) := by
  have hmem := mem_sentDown hq
  have hsaid := hi.server.said
  have hsent : h.sentDown = h.clientRead ++ (f :: (rest ++ h.server.link.writeChan)) := by
    rw [sentDown, hq]
    rfl
  rw [hsent] at hsaid hmem
  rcases hsaid with hs | ⟨-, hs | ⟨hs, -⟩ | ⟨-, hrejected⟩⟩
  · simp at hs
  · cases hread : h.clientRead with
    | nil =>
      rw [hread] at hs
      have hf : f = helloFrame := (List.cons.inj hs).1
      exact ⟨.inl hf, fun _ => hf, fun hlen => by cases hlen⟩
    | cons g more =>
      rw [hread] at hs
      simp at hs
  · rw [hs] at hmem
    have hf : f = helloFrame ∨ f = .ok := by simpa using hmem
    refine ⟨hf, fun hread => ?_, fun hread => ?_⟩
    · rw [hread] at hs
      exact (List.cons.inj hs).1
    · obtain ⟨g, hg⟩ := List.length_eq_one_iff.mp hread
      rw [hg] at hs
      exact (List.cons.inj (List.cons.inj hs).2).1
  · exact absurd heq (hi.ne_of_rejected hrejected)

/-- Neither link has failed. -/
def Healthy (h : Handshake) : Prop :=
  h.client.link.closed = false ∧ h.server.link.closed = false

/-- A frame within the limit arrives as itself. -/
theorem received_of_fits {l : Link} {f : ShineFrame} (h : Fits l.opts.maxPayload f) :
    received l f = .frame (encode f).length f := by
  rcases received_cases l f with ⟨-, hrec⟩ | ⟨hnot, -⟩
  · exact hrec
  · exact absurd h hnot

/-- What the client reads does not fail its link. -/
theorem client_stays_open (hi : Inv co so h) (heq : co.password = so.password)
    (hcarries : Carries co so) (hopen : h.client.link.closed = false) {f : ShineFrame}
    {rest : List ShineFrame} (hq : h.toClient = f :: rest) :
    (h.client.take 0 (received h.client.link f)).link.closed = false := by
  obtain ⟨hkinds, hfirst, hsecond⟩ := hi.next_down heq hq
  have hfits : Fits h.client.link.opts.maxPayload f := by
    rw [hi.client.opts_eq]
    rcases hkinds with rfl | rfl
    · exact hcarries.down
    · exact (fits_of_hello hcarries.down).1
  have hat := hi.client.stands hopen
  rw [received_of_fits hfits]
  cases hpc : h.client.pc with
  | hello =>
    rw [hpc] at hat
    rw [hfirst hat.1]
    simpa [Client.take, hpc, Client.onHello, helloFrame] using hopen
  | reply =>
    rw [hpc] at hat
    rw [hsecond hat.2.1]
    simpa [Client.take, hpc, Client.onReply] using hopen
  | _ =>
    simp only [Client.take, hpc, Client.onFrame]
    rwa [Link.dispatchFrame_handshaking _ _ (hi.handshaking_down (mem_sentDown hq))]

/-- What the server reads does not fail its link. -/
theorem server_stays_open (hi : Inv co so h) (heq : co.password = so.password)
    (hcarries : Carries co so) (hopen : h.server.link.closed = false) {f : ShineFrame}
    {rest : List ShineFrame} (hq : h.toServer = f :: rest) :
    (h.server.take 0 (received h.server.link f)).link.closed = false := by
  obtain ⟨hfirst, hsecond⟩ := hi.next_up hq
  have hfits : Fits h.server.link.opts.maxPayload f := by
    rw [hi.server.opts_eq]
    have hmem := hi.client.said.subset (mem_sentUp hq)
    simp only [List.mem_cons, List.not_mem_nil, or_false] at hmem
    rcases hmem with rfl | rfl
    · exact hcarries.up
    · exact hcarries.auth
  have hat := hi.server.stands hopen
  rw [received_of_fits hfits]
  cases hpc : h.server.pc with
  | hello =>
    rw [hpc] at hat
    rw [hfirst hat.1]
    simpa [Server.take, hpc, Server.onHello, helloFrame] using hopen
  | auth =>
    rw [hpc] at hat
    rw [hsecond hat.2.1]
    simpa [Server.take, hpc, Server.onAuth, hi.server.opts_eq, heq] using hopen
  | _ =>
    simp only [Server.take, hpc, Server.onFrame]
    rwa [Link.dispatchFrame_handshaking _ _ (hi.handshaking_up (mem_sentUp hq))]

/-- **With the same password on both sides neither link fails.** -/
theorem healthy_step (hi : Inv co so h) (heq : co.password = so.password)
    (hcarries : Carries co so) (hh : Healthy h) {e : Event} (hs : h.step e = some h') :
    Healthy h' := by
  obtain ⟨hc, hv⟩ := hh
  cases e with
  | clientRuns =>
    obtain ⟨c', hj, rfl⟩ := Option.map_eq_some_iff.mp hs
    refine ⟨?_, hv⟩
    unfold Client.jump at hj
    cases hpc : h.client.pc <;> simp only [hpc, Option.some.injEq] at hj <;> try cases hj
    all_goals simp_all
  | serverRuns =>
    obtain ⟨s', hj, rfl⟩ := Option.map_eq_some_iff.mp hs
    refine ⟨hc, ?_⟩
    have hat := hi.server.stands hv
    unfold Server.jump at hj
    cases hpc : h.server.pc with
    | failAuth =>
      -- the server fails its link only after a wrong password
      rw [hpc] at hat
      exact absurd heq (hi.ne_of_rejected hat.1)
    | _ =>
      simp only [hpc, Option.some.injEq] at hj
      try cases hj
      all_goals simp_all
  | clientWrites | serverWrites =>
    simp only [Handshake.step] at hs
    split_ifs at hs
    obtain ⟨_, _, rfl⟩ := Option.map_eq_some_iff.mp hs
    exact ⟨hc, hv⟩
  | clientReads =>
    obtain ⟨-, f, rest, hq, rfl⟩ := popped hs
    exact ⟨hi.client_stays_open heq hcarries hc hq, hv⟩
  | serverReads =>
    obtain ⟨-, f, rest, hq, rfl⟩ := popped hs
    exact ⟨hc, hi.server_stays_open heq hcarries hv hq⟩
  | clientEof | serverEof | clientDrops | serverDrops => simp [Handshake.step, hc, hv] at hs

/-- Where both links are open and nothing is in flight, each side has read all that the
other has sent. -/
theorem all_read (hh : Healthy h) (hq : h.Quiescent) :
    h.sentUp = h.serverRead ∧ h.sentDown = h.clientRead := by
  constructor
  · simp [sentUp, hq.toServer, hq.clientWritten hh.1]
  · simp [sentDown, hq.toClient, hq.serverWritten hh.2]

/-- Where an open client waits. -/
theorem client_waits (hi : Inv co so h) (hopen : h.client.link.closed = false)
    (hj : h.client.jump = none) :
    (h.clientRead = [] ∧ h.sentUp = [helloFrame]) ∨
    (co.password ≠ [] ∧ h.clientRead.length = 1 ∧
      h.sentUp = [helloFrame, .auth co.password]) ∨
    (h.clientDone = true ∧ (co.password = [] → h.sentUp = [helloFrame]) ∧
      (co.password ≠ [] → h.sentUp = [helloFrame, .auth co.password])) := by
  have hat := hi.client.stands hopen
  cases hpc : h.client.pc with
  | sendHello | sendAuth | returned => simp [Client.jump, hpc] at hj
  | hello =>
    rw [hpc] at hat
    exact .inl hat
  | reply =>
    rw [hpc] at hat
    exact .inr (.inl ⟨hat.1, hat.2.1, hat.2.2.2⟩)
  | reader =>
    rw [hpc] at hat
    exact .inr (.inr ⟨hi.client.reading hpc, hat.2.1, fun hne => (hat.2.2 hne).2⟩)
  | finished =>
    rw [hpc] at hat
    exact hat.elim

/-- Where an open server waits. -/
theorem server_waits (hi : Inv co so h) (hopen : h.server.link.closed = false)
    (hj : h.server.jump = none) :
    (h.serverRead = [] ∧ h.sentDown = []) ∨
    (so.password ≠ [] ∧ h.serverRead.length = 1 ∧ h.sentDown = [helloFrame]) ∨
    (h.serverDone = true ∧ (so.password = [] → h.sentDown = [helloFrame]) ∧
      (so.password ≠ [] → h.sentDown = [helloFrame, .ok])) := by
  have hat := hi.server.stands hopen
  cases hpc : h.server.pc with
  | sendHello | sendOk | sendErr | failAuth | returned => simp [Server.jump, hpc] at hj
  | hello =>
    rw [hpc] at hat
    exact .inl hat
  | auth =>
    rw [hpc] at hat
    exact .inr (.inl ⟨hat.1, hat.2.1, hat.2.2.2⟩)
  | reader =>
    rw [hpc] at hat
    exact .inr (.inr ⟨hi.server.reading hpc, hat.2.1, fun hne => (hat.2.2 hne).2⟩)
  | finished =>
    rw [hpc] at hat
    exact hat.elim

/-- **Neither side waits for ever.** With one password on both sides, a quiescent state in
which no link has failed is one in which both sides have finished. -/
theorem both_done (hi : Inv co so h) (heq : co.password = so.password) (hh : Healthy h)
    (hq : h.Quiescent) : h.clientDone = true ∧ h.serverDone = true := by
  obtain ⟨hup, hdown⟩ := all_read hh hq
  have hclient := hi.client_waits hh.1 hq.clientWaits
  have hserver := hi.server_waits hh.2 hq.serverWaits
  rw [hup, heq] at hclient
  rw [hdown] at hserver
  -- a side that still waits has read less than the other has sent, unless both are done
  rcases hclient with ⟨hcr, hsr⟩ | ⟨hne, hcr, hsr⟩ | ⟨hdone, hnone, hsome⟩
  · rcases hserver with ⟨hsr', -⟩ | ⟨-, -, hcr'⟩ | ⟨-, hnone', hsome'⟩
    · simp [hsr] at hsr'
    · simp [hcr] at hcr'
    · by_cases hpw : so.password = []
      · simp [hcr] at hnone'
        exact absurd hpw hnone'
      · simp [hcr] at hsome'
        exact absurd hsome' hpw
  · rcases hserver with ⟨hsr', -⟩ | ⟨-, hsr', -⟩ | ⟨-, -, hsome'⟩
    · simp [hsr] at hsr'
    · simp [hsr] at hsr'
    · simp [hsome' hne] at hcr
  · rcases hserver with ⟨hsr', -⟩ | ⟨hne, hsr', -⟩ | ⟨hdone', -, -⟩
    · by_cases hpw : so.password = []
      · simp [hsr'] at hnone
        exact absurd hpw hnone
      · simp [hsr'] at hsome
        exact absurd hsome hpw
    · simp [hsome hne] at hsr'
    · exact ⟨hdone, hdone'⟩

/-! ## What `handshake_done_` says about the other side -/

/-- The HELLO that a server has read is the client's. -/
theorem fits_up_of_greeted (hi : Inv co so h) (hg : Greeted so.maxPayload h.serverRead) :
    Fits so.maxPayload helloFrame := by
  obtain ⟨version, modes, hhead, hfits⟩ := hg
  obtain ⟨more, hsent⟩ := hi.client.said
  cases hread : h.serverRead with
  | nil => simp [hread] at hhead
  | cons f rest =>
    have hf : f = helloFrame := by
      rw [sentUp, hread] at hsent
      exact (List.cons.inj hsent).1
    rw [hread] at hhead
    have hhello : helloFrame = .hello version modes := hf ▸ Option.some.inj hhead
    rwa [hhello]

/-- The HELLO that a client has read is the server's, who had read the client's. -/
theorem fits_of_clientDone (hi : Inv co so h) (hdone : h.clientDone = true) :
    Fits so.maxPayload helloFrame ∧ Fits co.maxPayload helloFrame := by
  obtain ⟨⟨version, modes, hhead, hfits⟩, -⟩ := hi.client.finished hdone
  cases hread : h.clientRead with
  | nil => simp [hread] at hhead
  | cons f rest =>
    have hfirst : h.sentDown.head? = some f := by
      rw [sentDown, hread]
      rfl
    rw [hread] at hhead
    have hf : f = .hello version modes := Option.some.inj hhead
    rcases hi.server.said with hs | ⟨hg, hs⟩
    · simp [hs] at hfirst
    · have hhello : helloFrame = f := by
        rcases hs with hs | ⟨hs, -⟩ | ⟨hs, -⟩ <;>
        · rw [hs] at hfirst
          exact Option.some.inj hfirst
      exact ⟨hi.fits_up_of_greeted hg, by rwa [hhello, hf]⟩

/-- A server that asks for a password has finished only with the client's. -/
theorem eq_of_authorised (hi : Inv co so h) (ha : Authorised so h.serverRead) :
    co.password = so.password ∧ Fits so.maxPayload (.auth co.password) := by
  have heq := hi.auth_eq ha.1
  exact ⟨heq.symm, heq ▸ ha.2⟩

/-- A client that sends a password has finished only if it was the server's. -/
theorem eq_of_clientDone (hi : Inv co so h) (hdone : h.clientDone = true)
    (hne : co.password ≠ []) :
    co.password = so.password ∧ Fits so.maxPayload (.auth co.password) := by
  have hok : ShineFrame.ok ∈ h.sentDown :=
    List.mem_append_left _ ((hi.client.finished hdone).2 hne)
  rcases hi.server.said with hs | ⟨-, hs | ⟨-, ha⟩ | ⟨hs, -⟩⟩
  · simp [hs] at hok
  · simp [hs, helloFrame] at hok
  · exact hi.eq_of_authorised ha
  · simp [hs, helloFrame, badPassword] at hok

end Inv

/-! ## The two sides that do not wait for each other -/

/-- The client's HELLO, then the server's turn. -/
def serverFinishes : List Event :=
  [.clientRuns, .clientWrites, .serverReads, .serverRuns, .serverRuns]

/-- The HELLOs in both directions, then the client's turn. -/
def clientFinishes : List Event :=
  [.clientRuns, .clientWrites, .serverReads, .serverRuns, .serverWrites, .clientReads,
    .clientRuns]

theorem received_hello {limit : Nat} (h : Fits limit helloFrame) (l : Link)
    (hl : l.opts.maxPayload = limit) :
    received l (.hello (ascii "1") (ascii "mux,flow"))
      = .frame (encode helloFrame).length (.hello (ascii "1") (ascii "mux,flow")) :=
  Inv.received_of_fits (f := helloFrame) (hl ▸ h)

/-- A server without a password is done after the client's HELLO. -/
theorem server_finishes {co so : LinkOptions} (handler : Bool)
    (hup : Fits so.maxPayload helloFrame) (hps : so.password = []) :
    ∃ h, system.Reach Lts.Free (.start co so handler) h ∧ h.serverDone = true := by
  have hexec : ∃ h, system.exec Lts.Free (.start co so handler) serverFinishes = some h ∧
      h.serverDone = true := by
    simp [serverFinishes, Lts.exec, Lts.Free, system, step, start, pop, Link.new,
      Link.enqueueFrame, Client.start, Client.jump, Server.start, Server.decoding, Server.take,
      Server.onHello, Server.jump, helloFrame, received_hello hup, hps]
  obtain ⟨h, hrun, hdone⟩ := hexec
  exact ⟨h, Lts.reach_of_exec _ hrun, hdone⟩

/-- A client without a password is done after the server's HELLO. -/
theorem client_finishes {co so : LinkOptions} (handler : Bool)
    (hup : Fits so.maxPayload helloFrame) (hdown : Fits co.maxPayload helloFrame)
    (hpc : co.password = []) :
    ∃ h, system.Reach Lts.Free (.start co so handler) h ∧ h.clientDone = true := by
  have hexec : ∃ h, system.exec Lts.Free (.start co so handler) clientFinishes = some h ∧
      h.clientDone = true := by
    simp [clientFinishes, Lts.exec, Lts.Free, system, step, start, pop, Link.new,
      Link.enqueueFrame, Client.start, Client.jump, Client.decoding, Client.take,
      Client.onHello, Server.start, Server.decoding, Server.take, Server.onHello, Server.jump,
      helloFrame, received_hello hup, received_hello hdown, hpc]
  obtain ⟨h, hrun, hdone⟩ := hexec
  exact ⟨h, Lts.reach_of_exec _ hrun, hdone⟩

/-! ## Agreement -/

/-- The two sides agree: either both have set `handshake_done_` or neither has, and both
have exactly if `same` holds. -/
def Agreed (h : Handshake) (same : Prop) : Prop :=
  (h.clientDone = true ↔ h.serverDone = true) ∧
    (h.clientDone = true ∧ h.serverDone = true ↔ same)

/-- Every quiescent state of every run is one of agreement. -/
def Agrees (co so : LinkOptions) (handler : Bool) : Prop :=
  ∀ h, system.Reach Lts.Free (.start co so handler) h → h.Quiescent →
    h.Agreed (co.password = so.password)

/-- With the same password, and frames that pass, both sides finish. -/
theorem both_done_of_eq {co so : LinkOptions} {handler : Bool} {h : Handshake}
    (hr : system.Reach Lts.Free (.start co so handler) h) (hq : h.Quiescent)
    (heq : co.password = so.password) (hcarries : Carries co so) :
    h.clientDone = true ∧ h.serverDone = true := by
  have hboth : Inv co so h ∧ Inv.Healthy h := by
    refine hr.invariant (P := fun h => Inv co so h ∧ Inv.Healthy h)
      ⟨.start co so handler, rfl, rfl⟩ ?_
    rintro s e t ⟨hi, hh⟩ - hs
    exact ⟨(hi.step hs).1, hi.healthy_step heq hcarries hh hs⟩
  exact hboth.1.both_done heq hboth.2 hq

/-- **Handshake agreement.** The two sides agree in every quiescent state of every run
exactly if no side is done without the other: a server without a password that can read
the client's HELLO has a client without one, a client without a password that can exchange
HELLOs has a server without one, and where the passwords are the same the frames of the
handshake are within the limits. -/
theorem handshake_agreement (co so : LinkOptions) (handler : Bool) :
    Agrees co so handler ↔
      (Fits so.maxPayload helloFrame → so.password = [] → co.password = []) ∧
      (Fits so.maxPayload helloFrame → Fits co.maxPayload helloFrame →
        co.password = [] → so.password = []) ∧
      (co.password = so.password → Carries co so) := by
  constructor
  · intro hagrees
    refine ⟨fun hup hps => ?_, fun hup hdown hpc => ?_, fun heq => ?_⟩
    · obtain ⟨h, hr, hdone⟩ := @server_finishes co so handler hup hps
      obtain ⟨h', hr', hq, -, hkeep⟩ := exists_quiescent hr
      obtain ⟨hiff, hsame⟩ := hagrees h' hr' hq
      have hserver := hkeep hdone
      rw [hsame.mp ⟨hiff.mpr hserver, hserver⟩, hps]
    · obtain ⟨h, hr, hdone⟩ := client_finishes handler hup hdown hpc
      obtain ⟨h', hr', hq, hkeep, -⟩ := exists_quiescent hr
      obtain ⟨hiff, hsame⟩ := hagrees h' hr' hq
      have hclient := hkeep hdone
      rw [← hsame.mp ⟨hclient, hiff.mp hclient⟩, hpc]
    · -- some run ends; both sides are done there, so every frame has passed
      obtain ⟨h, hr, hq, -⟩ := @exists_quiescent co so handler _ .refl
      have hi := Inv.reach hr
      obtain ⟨hclient, -⟩ := (hagrees h hr hq).2.mpr heq
      obtain ⟨hup, hdown⟩ := hi.fits_of_clientDone hclient
      refine ⟨hup, hdown, ?_⟩
      by_cases hpw : co.password = []
      · rw [hpw]
        exact (fits_of_hello hup).2
      · exact (hi.eq_of_clientDone hclient hpw).2
  · rintro ⟨hserver, hclient, hsame⟩ h hr hq
    have hi := Inv.reach hr
    by_cases heq : co.password = so.password
    · obtain ⟨hc, hs⟩ := both_done_of_eq hr hq heq (hsame heq)
      exact ⟨⟨fun _ => hs, fun _ => hc⟩, ⟨fun _ => heq, fun _ => ⟨hc, hs⟩⟩⟩
    · have hnoClient : ¬ h.clientDone = true := by
        intro hdone
        by_cases hpw : co.password = []
        · obtain ⟨hup, hdown⟩ := hi.fits_of_clientDone hdone
          exact heq (hpw.trans (hclient hup hdown hpw).symm)
        · exact heq (hi.eq_of_clientDone hdone hpw).1
      have hnoServer : ¬ h.serverDone = true := by
        intro hdone
        obtain ⟨hg, ha⟩ := hi.server.finished hdone
        by_cases hpw : so.password = []
        · exact heq ((hserver (hi.fits_up_of_greeted hg) hpw).trans hpw.symm)
        · exact heq (hi.eq_of_authorised (ha hpw)).1
      exact ⟨iff_of_false hnoClient hnoServer,
        iff_of_false (fun h => hnoClient h.1) heq⟩

/-- A client without a password. -/
def openClient : LinkOptions where
  password := []
  initWindow := 65536
  maxPayload := 1048576
  maxDataFrame := 16384
  isServer := false

/-- A server that asks for one. -/
def guardedServer : LinkOptions := { openClient with password := ascii "secret", isServer := true }

/-- The client without a password is done while the server still waits for its AUTH. -/
theorem handshake_agreement_fails_without_password :
    ∃ h, system.Reach Lts.Free (.start openClient guardedServer true) h ∧ h.Quiescent ∧
      h.clientDone = true ∧ openClient.password ≠ guardedServer.password ∧
      ¬ h.Agreed (openClient.password = guardedServer.password) := by
  have hne : openClient.password ≠ guardedServer.password := by decide
  obtain ⟨h, hr, hdone⟩ :=
    @client_finishes openClient guardedServer true (by decide) (by decide) rfl
  obtain ⟨h', hr', hq, hkeep, -⟩ := exists_quiescent hr
  have hclient := hkeep hdone
  refine ⟨h', hr', hq, hclient, hne, ?_⟩
  rintro ⟨hiff, hsame⟩
  exact hne (hsame.mp ⟨hclient, hiff.mp hclient⟩)

end Handshake

end Shine
