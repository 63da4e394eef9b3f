import Shine.Transport.Server

/-!
# No session without authentication

The server coroutine of `Transport.Server` runs next to a detached handshake timer,
a writer and a heartbeat, which all may call `failLink`, and to `closeNow` from
another thread; its reads may fail at any time. They communicate only through
`closed_`. `connSystem` interleaves them in any order over any byte stream.

- `Traced`: every session of the link was opened by a frame that the reader has
  dispatched;
- `ConnInv`: what the coroutine has accepted and dispatched are the first frames of
  the bytes received, and where it stands tells which handshake frames it has seen;
- `session_needs_auth`: with a password set, a session exists only after HELLO and
  the right AUTH.
-/

namespace Shine

/-- The frame opens a session with this sid. -/
def Opens (sid : UInt64) : ShineFrame → Prop
  | .new sid' _ _ => sid' = sid
  | .newUdp sid' => sid' = sid
  | _ => False

/-! ## Sessions come from dispatched frames -/

/-- Every session object was opened by one of the frames `fs`, and the table and the
calls of `on_new_session_` name objects only. -/
structure Traced (l : Link) (fs : List ShineFrame) : Prop where
  objects : ∀ p s, l.heap p = some s → ∃ f ∈ fs, Opens s.sid f
  stored : ∀ sid p, l.sessions sid = some p → ∃ s, l.heap p = some s
  handed : ∀ e ∈ l.handed, ∃ s, l.heap e.1 = some s

namespace Traced

variable {l : Link} {fs : List ShineFrame}

/-- A step that renames no object, and neither stores nor hands over a new one. -/
theorem of_keep (h : Traced l fs) {l' : Link}
    (hback : ∀ p s', l'.heap p = some s' → ∃ s, l.heap p = some s ∧ s.sid = s'.sid)
    (hkeep : ∀ p s, l.heap p = some s → ∃ s', l'.heap p = some s')
    (htab : ∀ sid p, l'.sessions sid = some p → l.sessions sid = some p)
    (hhanded : l'.handed = l.handed) : Traced l' fs where
  objects p s' hp := by
    obtain ⟨s, hs, hsid⟩ := hback p s' hp
    rw [← hsid]
    exact h.objects p s hs
  stored sid p hp := by
    obtain ⟨s, hs⟩ := h.stored sid p (htab sid p hp)
    exact hkeep p s hs
  handed e he := by
    rw [hhanded] at he
    obtain ⟨s, hs⟩ := h.handed e he
    exact hkeep e.1 s hs

theorem congr (h : Traced l fs) {l' : Link} (hheap : l'.heap = l.heap)
    (htab : l'.sessions = l.sessions) (hhanded : l'.handed = l.handed) : Traced l' fs :=
  h.of_keep (fun p s' hp => ⟨s', by rw [← hheap]; exact hp, rfl⟩)
    (fun p s hp => ⟨s, by rw [hheap]; exact hp⟩) (fun sid p hp => by rw [← htab]; exact hp) hhanded

theorem enqueueFrame (h : Traced l fs) (f : ShineFrame) : Traced (l.enqueueFrame f) fs :=
  h.congr (by simp) (by simp) (by unfold Link.enqueueFrame; split_ifs <;> rfl)

theorem modify (h : Traced l fs) (p : Nat) (g : Session → Session)
    (hsid : ∀ s, (g s).sid = s.sid) : Traced (l.modify p g) fs := by
  refine h.of_keep (fun q s' hq => ?_) (fun q s hq => ?_) (fun _ _ hq => hq) rfl
  · rw [Link.modify_heap] at hq
    split_ifs at hq with hqp
    · obtain ⟨s, hs, rfl⟩ := Option.map_eq_some_iff.mp hq
      exact ⟨s, by rw [hqp, hs], (hsid s).symm⟩
    · exact ⟨s', hq, rfl⟩
  · rw [Link.modify_heap]
    split_ifs with hqp
    · exact ⟨g s, by rw [← hqp, hq]; rfl⟩
    · exact ⟨s, hq⟩

theorem eraseSession (h : Traced l fs) (sid : UInt64) : Traced (l.eraseSession sid) fs := by
  refine h.of_keep (fun p s hp => ⟨s, hp, rfl⟩) (fun p s hp => ⟨s, hp⟩) (fun sid' p hp => ?_) rfl
  rw [Link.eraseSession_sessions] at hp
  split_ifs at hp
  exact hp

theorem failLink (h : Traced l fs) : Traced l.failLink fs := by
  unfold Link.failLink Link.resetAll
  split_ifs
  · exact h
  · refine h.of_keep (fun p s' hp => ?_) (fun p s hp => ?_) nofun rfl
    · obtain ⟨s, hs, rfl⟩ := Option.map_eq_some_iff.mp hp
      refine ⟨s, hs, ?_⟩
      split_ifs <;> rfl
    · exact ⟨_, congrArg (Option.map _) hp⟩

theorem mono (h : Traced l fs) {gs : List ShineFrame} (hsub : ∀ f ∈ fs, f ∈ gs) : Traced l gs where
  objects p s hp := by
    obtain ⟨f, hf, ho⟩ := h.objects p s hp
    exact ⟨f, hsub f hf, ho⟩
  stored := h.stored
  handed := h.handed

/-- Accepting a session that a frame of `fs` opens. -/
theorem accept (h : Traced l fs) {sid : UInt64} (hopen : ∃ f ∈ fs, Opens sid f)
    (target : Address) (win : UInt32) (protocol : Protocol) :
    Traced (l.accept sid target win protocol) fs := by
  have hheap : (l.accept sid target win protocol).heap = Function.update l.heap l.next
      (some (.new sid target win l.opts.initWindow protocol)) := by
    simp [Link.accept, Link.emplace]
  have hhanded : (l.accept sid target win protocol).handed = l.handed ++ [(l.next, target)] := by
    simp only [Link.accept, Link.enqueueFrame]
    split_ifs <;> rfl
  have hnew : ∃ s, (l.accept sid target win protocol).heap l.next = some s :=
    ⟨_, by rw [hheap, Function.update_self]⟩
  have hkeep : ∀ p s, l.heap p = some s →
      ∃ s', (l.accept sid target win protocol).heap p = some s' := by
    intro p s hp
    rw [hheap, Function.update_apply]
    split_ifs
    · exact ⟨_, rfl⟩
    · exact ⟨s, hp⟩
  refine ⟨fun p s hp => ?_, fun sid' p hp => ?_, fun e he => ?_⟩
  · rw [hheap, Function.update_apply] at hp
    split_ifs at hp
    · cases hp
      exact hopen
    · exact h.objects p s hp
  · simp only [Link.accept, Link.enqueueFrame_sessions] at hp
    rcases Link.emplace_sessions_cases hp with hp | rfl
    · obtain ⟨s, hs⟩ := h.stored sid' p hp
      exact hkeep p s hs
    · exact hnew
  · rw [hhanded, List.mem_append, List.mem_singleton] at he
    rcases he with he | rfl
    · obtain ⟨s, hs⟩ := h.handed e he
      exact hkeep e.1 s hs
    · exact hnew

/-- Dispatching a frame opens sessions for that frame only. -/
theorem dispatchFrame (h : Traced l fs) (now : UInt64) (f : ShineFrame) :
    Traced (l.dispatchFrame now f) (fs ++ [f]) := by
  have hmono : Traced l (fs ++ [f]) := h.mono fun g hg => List.mem_append_left _ hg
  have hlast : ∀ {sid}, Opens sid f → ∃ g ∈ fs ++ [f], Opens sid g :=
    fun ho => ⟨f, List.mem_append_right _ (List.mem_singleton_self f), ho⟩
  cases f with
  | data sid _ | window sid _ =>
    simp only [Link.dispatchFrame]
    split
    · exact hmono
    · exact hmono.modify _ _ (by simp)
  | udpData sid _ _ =>
    simp only [Link.dispatchFrame]
    split
    · exact hmono
    · split
      · exact hmono
      · exact hmono.modify _ _ (by simp)
  | new sid _ _ =>
    simp only [Link.dispatchFrame]
    split_ifs
    · exact hmono
    · split
      · exact hmono.enqueueFrame _
      · exact hmono.accept (hlast rfl) _ _ _
  | newUdp sid =>
    simp only [Link.dispatchFrame]
    split_ifs
    · exact hmono
    · exact hmono.accept (hlast rfl) _ _ _
  | close sid _ =>
    simp only [Link.dispatchFrame]
    split
    · exact hmono
    · split_ifs
      · exact (hmono.modify _ _ (by simp)).eraseSession _
      · exact hmono.modify _ _ (by simp)
  | reset sid =>
    simp only [Link.dispatchFrame]
    split
    · exact hmono
    · exact (hmono.modify _ _ (by simp)).eraseSession _
  | ping _ => exact hmono.enqueueFrame _
  | pong _ =>
    simp only [Link.dispatchFrame]
    split_ifs
    · exact hmono.congr rfl rfl rfl
    · exact hmono
  | ack _ | hello _ _ | auth _ | ok | err _ _ => exact hmono

end Traced

/-! ## The connection -/

/-- A server link, its read buffer and all bytes that it has read from the socket. -/
structure Conn where
  server : Server
  rb : ReadBuffer
  received : Bytes

/-- What can happen on a server link. -/
inductive ConnEvent where
  /-- The server coroutine runs a piece. -/
  | turn (now : UInt64)
  /-- A read of the server coroutine completes with these bytes. -/
  | recv (bs : Bytes)
  /-- A read of the server coroutine fails or hits the end of the stream. -/
  | readError
  /-- The handshake timer expires. -/
  | timer
  /-- The writer or the heartbeat fails the link. -/
  | failLink
  | closeNow

namespace Conn

/-- A connection that has just been accepted. -/
def start (opts : LinkOptions) (handler : Bool) (now : UInt64) (initial : Nat) : Conn where
  server := .start opts handler now
  rb := .new initial
  received := []

/-- Something other than the server coroutine closes the link. -/
def closeWith (c : Conn) (g : Link → Link) : Conn :=
  { c with server := { c.server with link := g c.server.link } }

end Conn

/-- The server coroutine interleaved with everything else that touches the link. -/
def connSystem (maxBulk : Nat) : Lts Conn ConnEvent where
  step c
    | .turn now => (c.server.turn maxBulk now c.rb).map fun r =>
        { c with server := r.1, rb := r.2 }
    | .recv bs =>
      if c.server.decoding ∧ (c.rb.readSome c.server.want bs).2 = [] then
        some { c with
          rb := (c.rb.readSome c.server.want bs).1
          received := c.received ++ bs }
      else none
    | .readError =>
      if c.server.decoding then
        some { c with server := c.server.fail (if c.server.pc = .reader then .finished else .returned) }
      else none
    | .timer => some (c.closeWith Link.failLink)
    | .failLink => some (c.closeWith Link.failLink)
    | .closeNow => some (c.closeWith Link.closeNow)

/-- The handshake has accepted HELLO and the right AUTH. -/
def Server.Authenticated (s : Server) (password : Bytes) : Prop :=
  ∃ version modes, s.accepted = [.hello version modes, .auth password]

/-- What the place of the coroutine says about the frames it has taken. -/
def Server.Place (s : Server) (password : Bytes) : Prop :=
  match s.pc with
  | .hello => s.accepted = [] ∧ s.dispatched = []
  | .sendHello | .auth | .sendErr | .failAuth =>
    (∃ version modes, s.accepted = [.hello version modes]) ∧ s.dispatched = []
  | .sendOk => s.Authenticated password ∧ s.dispatched = []
  | .returned => (s.link.closed = false → s.Authenticated password) ∧ s.dispatched = []
  | .reader => s.Authenticated password
  | .finished => s.dispatched ≠ [] → s.Authenticated password

/-- The coroutine may still take frames, and none has been refused. -/
def Server.Live (s : Server) : Prop :=
  match s.pc with
  | .hello | .sendHello | .auth | .sendOk | .reader => True
  | .returned => s.link.closed = false
  | .sendErr | .failAuth | .finished => False

/-- The frames that the coroutine has accepted and dispatched. -/
def Server.taken (s : Server) : List ShineFrame := s.accepted ++ s.dispatched

/-- The invariant of a server connection. -/
structure ConnInv (opts : LinkOptions) (s : Server) (view received : Bytes) : Prop where
  opts_eq : s.link.opts = opts
  traced : Traced s.link s.dispatched
  place : s.Place opts.password
  /-- What was taken are the first frames of the stream, whatever comes next. -/
  heard : ∀ x, s.taken <+: framesOf opts.maxPayload (received ++ x)
  /-- The rest of the stream decodes from what is in the buffer. -/
  live : s.Live → ∀ x, framesOf opts.maxPayload (received ++ x)
    = s.taken ++ framesOf opts.maxPayload (view ++ x)

namespace ConnInv

variable {opts : LinkOptions} {s : Server} {view received : Bytes}

theorem start (opts : LinkOptions) (handler : Bool) (now : UInt64) :
    ConnInv opts (.start opts handler now) [] [] where
  opts_eq := rfl
  traced := ⟨nofun, nofun, nofun⟩
  place := ⟨rfl, rfl⟩
  heard _ := List.nil_prefix
  live _ _ := rfl

/-- Closing the link from outside the coroutine. -/
theorem closeWith (h : ConnInv opts s view received) {l : Link} (hopts : l.opts = s.link.opts)
    (htraced : Traced l s.dispatched) (hclosed : l.closed = true) :
    ConnInv opts { s with link := l } view received where
  opts_eq := hopts.trans h.opts_eq
  traced := htraced
  place := by
    have hplace := h.place
    unfold Server.Place at hplace ⊢
    cases hpc : s.pc <;> simp only [hpc, hclosed] at hplace ⊢
    case returned => exact ⟨nofun, hplace.2⟩
    all_goals exact hplace
  heard := h.heard
  live := by
    intro hlive
    apply h.live
    unfold Server.Live at hlive ⊢
    cases hpc : s.pc <;> simp_all

/-- `failLink` from inside the coroutine, on the way out. -/
theorem fail (h : ConnInv opts s view received) {pc : ServerPc}
    (hpc : pc = .returned ∧ s.dispatched = [] ∨
      pc = .finished ∧ (s.dispatched ≠ [] → s.Authenticated opts.password)) (view' : Bytes) :
    ConnInv opts (s.fail pc) view' received where
  opts_eq := (Link.failLink_opts _).trans h.opts_eq
  traced := h.traced.failLink
  place := by
    rcases hpc with ⟨rfl, hd⟩ | ⟨rfl, ha⟩
    · refine ⟨fun hopen => ?_, hd⟩
      rw [Server.fail, Link.failLink_closed] at hopen
      cases hopen
    · exact ha
  heard := h.heard
  live := by
    intro hlive
    rcases hpc with ⟨rfl, -⟩ | ⟨rfl, -⟩
    · have hopen : s.link.failLink.closed = false := hlive
      rw [Link.failLink_closed] at hopen
      cases hopen
    · cases hlive

/-- A piece that does not look at the buffer. -/
theorem jump (h : ConnInv opts s view received) (hpw : opts.password ≠ []) {s' : Server}
    (hj : s.jump = some s') : ConnInv opts s' view received := by
  have hplace := h.place
  have hlive := h.live
  unfold Server.Place at hplace
  unfold Server.Live at hlive
  unfold Server.jump at hj
  cases hpc : s.pc with
  | hello | auth | finished => simp [hpc] at hj
  | sendHello =>
    simp only [hpc] at hj hplace hlive
    cases hj
    refine ⟨by simpa using h.opts_eq, h.traced.enqueueFrame _, ?_, h.heard, fun _ => hlive trivial⟩
    have hne : s.link.opts.password ≠ [] := by rw [h.opts_eq]; exact hpw
    simpa [Server.Place, hne] using hplace
  | sendOk =>
    simp only [hpc] at hj hplace hlive
    cases hj
    exact ⟨by simpa using h.opts_eq, h.traced.enqueueFrame _, ⟨fun _ => hplace.1, hplace.2⟩,
      h.heard, fun _ => hlive trivial⟩
  | sendErr =>
    simp only [hpc] at hj hplace
    cases hj
    exact ⟨by simpa using h.opts_eq, h.traced.enqueueFrame _, hplace, h.heard, nofun⟩
  | failAuth =>
    simp only [hpc] at hj hplace
    cases hj
    exact h.fail (.inl ⟨rfl, hplace.2⟩) view
  | returned =>
    simp only [hpc] at hj hplace hlive
    cases hj
    refine ⟨h.opts_eq, h.traced, ?_, h.heard, ?_⟩
    · cases hclosed : s.link.closed with
      | true => exact fun hd => absurd hplace.2 hd
      | false => exact hplace.1 hclosed
    · cases hclosed : s.link.closed with
      | true => exact nofun
      | false => exact fun _ => hlive hclosed
  | reader =>
    simp only [hpc] at hj hplace
    split_ifs at hj
    cases hj
    exact ⟨h.opts_eq, h.traced, fun _ => hplace, h.heard, nofun⟩

/-- A frame that the coroutine takes is the next one of the stream. -/
theorem next_frame (s' : Server) {n : Nat} {f : ShineFrame}
    (hstream : ∀ x, framesOf opts.maxPayload (received ++ x)
      = s.taken ++ framesOf opts.maxPayload (view ++ x))
    (ha : attempt opts.maxPayload view = .frame n f) (htaken : s'.taken = s.taken ++ [f]) :
    (∀ x, s'.taken <+: framesOf opts.maxPayload (received ++ x)) ∧
      ∀ x, framesOf opts.maxPayload (received ++ x)
        = s'.taken ++ framesOf opts.maxPayload (view.drop n ++ x) := by
  have hnext : ∀ x, framesOf opts.maxPayload (received ++ x)
      = s'.taken ++ framesOf opts.maxPayload (view.drop n ++ x) := by
    intro x
    rw [hstream, framesOf_append_of_frame ha, htaken, List.append_assoc, List.singleton_append]
  exact ⟨fun x => ⟨_, (hnext x).symm⟩, hnext⟩

/-- The coroutine decodes a frame or runs into an error. -/
theorem take (h : ConnInv opts s view received) (hd : s.decoding = true) (now : UInt64)
    {a : Attempt} (ha : attempt opts.maxPayload view = a) :
    ConnInv opts (s.take now a) (view.drop a.taken) received := by
  have hplace := h.place
  have hlive := h.live
  unfold Server.Place at hplace
  unfold Server.Live at hlive
  cases hpc : s.pc with
  | hello =>
    simp only [hpc] at hplace hlive
    simp only [Server.take, hpc]
    unfold Server.onHello
    split
    · rename_i n version modes
      obtain ⟨hheard, hnext⟩ := next_frame
        { s with pc := .sendHello, accepted := s.accepted ++ [.hello version modes] }
        (hlive trivial) ha (by simp [Server.taken, hplace])
      exact ⟨h.opts_eq, h.traced, ⟨⟨version, modes, by simp [hplace]⟩, hplace.2⟩, hheard,
        fun _ => hnext⟩
    · exact h.fail (.inl ⟨rfl, hplace.2⟩) _
  | auth =>
    simp only [hpc] at hplace hlive
    obtain ⟨⟨version, modes, haccepted⟩, hdispatched⟩ := hplace
    simp only [Server.take, hpc]
    unfold Server.onAuth
    split
    · rename_i n password
      split_ifs with hbad
      · exact ⟨h.opts_eq, h.traced, ⟨⟨version, modes, haccepted⟩, hdispatched⟩, h.heard,
          False.elim⟩
      · obtain ⟨hheard, hnext⟩ := next_frame
          { s with pc := .sendOk, accepted := s.accepted ++ [.auth password] }
          (hlive trivial) ha (by simp [Server.taken, hdispatched])
        refine ⟨h.opts_eq, h.traced, ⟨⟨version, modes, ?_⟩, hdispatched⟩, hheard, fun _ => hnext⟩
        rw [ne_eq, not_not, h.opts_eq] at hbad
        simp [haccepted, hbad]
    · exact h.fail (.inl ⟨rfl, hdispatched⟩) _
  | reader =>
    simp only [hpc] at hplace hlive
    simp only [Server.take, hpc]
    unfold Server.onFrame
    split
    · rename_i n f
      obtain ⟨hheard, hnext⟩ := next_frame
        { s with link := s.link.dispatchFrame now f, dispatched := s.dispatched ++ [f] }
        (hlive trivial) ha (by simp [Server.taken])
      refine ⟨?_, h.traced.dispatchFrame now f, ?_, hheard, fun _ => hnext⟩
      · exact (Link.dispatchFrame_opts _ _ _).trans h.opts_eq
      · simp only [Server.Place, hpc]
        exact hplace
    · exact h.fail (.inr ⟨rfl, fun _ => hplace⟩) _
  | _ => simp [Server.decoding, hpc] at hd

/-- More bytes arrive. -/
theorem recv (h : ConnInv opts s view received) (bs : Bytes) :
    ConnInv opts s (view ++ bs) (received ++ bs) where
  opts_eq := h.opts_eq
  traced := h.traced
  place := h.place
  heard x := by
    rw [List.append_assoc]
    exact h.heard (bs ++ x)
  live hlive x := by
    rw [List.append_assoc, List.append_assoc]
    exact h.live hlive (bs ++ x)

/-- **Every event keeps the invariant.** -/
theorem step {c c' : Conn} {e : ConnEvent} (h : ConnInv opts c.server c.rb.view c.received)
    (hpw : opts.password ≠ []) (hstep : (connSystem opts.maxPayload).step c e = some c') :
    ConnInv opts c'.server c'.rb.view c'.received := by
  cases e with
  | turn now =>
    obtain ⟨⟨s', rb'⟩, hturn, rfl⟩ := Option.map_eq_some_iff.mp hstep
    have hfollows := c.server.turn_follows opts.maxPayload now c.rb
    rw [hturn] at hfollows
    obtain ⟨n, hn, hview⟩ := hfollows
    simp only [hview]
    -- the piece either leaves the buffer alone or takes what `attempt` finds there
    cases hj : c.server.jump with
    | some s'' =>
      rw [(serverLoop now).step_of_jump _ hj] at hn
      cases hn
      exact h.jump hpw hj
    | none =>
      cases hd : c.server.decoding with
      | false =>
        rw [(serverLoop now).step_of_ended _ hj hd] at hn
        cases hn
      | true =>
        rw [(serverLoop now).step_of_decoding _ hj hd] at hn
        obtain ⟨-, rfl, rfl⟩ := (serverLoop now).react_some hn
        exact h.take hd now rfl
  | recv bs =>
    simp only [connSystem] at hstep
    split_ifs at hstep with hok
    cases hstep
    have hread := c.rb.readSome_append c.server.want bs
    rw [hok.2, List.append_nil] at hread
    simp only [hread]
    exact h.recv bs
  | readError =>
    simp only [connSystem] at hstep
    split_ifs at hstep with hd hpc
    · cases hstep
      have hplace := h.place
      simp only [Server.Place, hpc] at hplace
      exact h.fail (.inr ⟨rfl, fun _ => hplace⟩) _
    · cases hstep
      refine h.fail (.inl ⟨rfl, ?_⟩) _
      have hplace := h.place
      unfold Server.Place at hplace
      cases hpc' : c.server.pc <;> simp_all [Server.decoding]
  | timer | failLink =>
    cases hstep
    exact h.closeWith (Link.failLink_opts _) h.traced.failLink (Link.failLink_closed _)
  | closeNow =>
    cases hstep
    exact h.closeWith rfl (h.traced.congr rfl rfl rfl) rfl

end ConnInv

/-- **No session without authentication.** On a server link with a password, after
any interleaving of the peer's bytes in any segmentation with the handshake timer,
socket errors and `closeNow`: for every session object there is — and every object
in the table or handed to `on_new_session_` is one — the stream decodes to HELLO,
then AUTH with exactly the configured password, and only then the NEW or NEW_UDP
that opened the session. -/
theorem session_needs_auth (opts : LinkOptions) (handler : Bool) (now : UInt64) (initial : Nat)
    (hpw : opts.password ≠ []) {c : Conn}
    (h : (connSystem opts.maxPayload).Reach Lts.Free (.start opts handler now initial) c) :
    (∀ sid p, c.server.link.sessions sid = some p → ∃ s, c.server.link.heap p = some s) ∧
    (∀ e ∈ c.server.link.handed, ∃ s, c.server.link.heap e.1 = some s) ∧
    ∀ p s, c.server.link.heap p = some s → ∀ x, ∃ version modes before f after,
      framesOf opts.maxPayload (c.received ++ x)
        = .hello version modes :: .auth opts.password :: (before ++ f :: after) ∧
      Opens s.sid f := by
  have hinv : ConnInv opts c.server c.rb.view c.received := by
    refine h.invariant (P := fun c => ConnInv opts c.server c.rb.view c.received) ?_
      fun c e c' hc _ hstep => hc.step hpw hstep
    have hview : (ReadBuffer.new initial).view = [] := ReadBuffer.view_new initial
    simp only [Conn.start, hview]
    exact .start opts handler now
  refine ⟨hinv.traced.stored, hinv.traced.handed, fun p s hp x => ?_⟩
  obtain ⟨f, hf, hopens⟩ := hinv.traced.objects p s hp
  obtain ⟨before, after, hdispatched⟩ := List.append_of_mem hf
  -- frames are dispatched only where the handshake is complete
  have hne : c.server.dispatched ≠ [] := List.ne_nil_of_mem hf
  obtain ⟨version, modes, haccepted⟩ : c.server.Authenticated opts.password := by
    have hplace := hinv.place
    unfold Server.Place at hplace
    cases hpc : c.server.pc <;> simp_all
  obtain ⟨rest, hrest⟩ := hinv.heard x
  refine ⟨version, modes, before, f, after ++ rest, ?_, hopens⟩
  rw [← hrest, Server.taken, haccepted, hdispatched]
  simp

/-- At most `k` pieces of the coroutine, on the readable bytes. -/
def Server.steps (maxBulk : Nat) (now : UInt64) : Nat → Server → Bytes → Server
  | 0, s, _ => s
  | k + 1, s, b =>
    match (serverLoop now).step maxBulk s b with
    | none => s
    | some (n, s') => steps maxBulk now k s' (b.drop n)

/-- Running the coroutine alone is a run of the connection. -/
theorem reach_steps (maxBulk : Nat) (now : UInt64) (received : Bytes) (k : Nat) :
    ∀ (s : Server) (rb : ReadBuffer), ∃ rb', (connSystem maxBulk).Reach Lts.Free
      ⟨s, rb, received⟩ ⟨s.steps maxBulk now k rb.view, rb', received⟩ := by
  induction k with
  | zero => exact fun s rb => ⟨rb, .refl⟩
  | succ k ih =>
    intro s rb
    have hfollows := s.turn_follows maxBulk now rb
    cases hturn : s.turn maxBulk now rb with
    | none =>
      rw [hturn] at hfollows
      rw [Server.steps, hfollows]
      exact ⟨rb, .refl⟩
    | some r =>
      rw [hturn] at hfollows
      obtain ⟨n, hstep, hview⟩ := hfollows
      obtain ⟨rb', hreach⟩ := ih r.1 r.2
      rw [hview] at hreach
      rw [Server.steps, hstep]
      have hone : (connSystem maxBulk).step ⟨s, rb, received⟩ (.turn now)
          = some ⟨r.1, r.2, received⟩ := by simp [connSystem, hturn]
      exact ⟨rb', (Lts.Reach.refl.tail trivial hone).trans hreach⟩

/-- The bytes of a peer that authenticates and opens a session. -/
def sampleStream : Bytes :=
  encode (.hello [49] []) ++ encode (.auth (ascii "secret")) ++ encode (.newUdp 9)

/-- A new connection receives a segment that fits in its buffer. -/
theorem start_recv (maxBulk : Nat) (opts : LinkOptions) (handler : Bool) (now : UInt64)
    {initial : Nat} (hinitial : 8192 ≤ initial) {bs : Bytes} (hbs : bs.length ≤ initial) :
    ∃ rb, rb.view = bs ∧ (connSystem maxBulk).Reach Lts.Free (.start opts handler now initial)
      ⟨.start opts handler now, rb, bs⟩ := by
  obtain ⟨hrest, hview⟩ := ReadBuffer.readSome_new hinitial hbs
  refine ⟨_, hview, Lts.Reach.refl.tail (e := .recv bs) trivial ?_⟩
  exact if_pos ⟨rfl, hrest⟩

/-- A connection on which a session has been opened. -/
theorem sample_reach :
    ∃ c, (connSystem 64).Reach Lts.Free (.start Link.sampleOpts true 0 8192) c ∧
      (c.server.link.heap 0).map (·.sid) = some 9 := by
  obtain ⟨rb, hview, hrecv⟩ := start_recv 64 Link.sampleOpts true 0 (Nat.le_refl 8192)
    (show sampleStream.length ≤ 8192 by decide)
  obtain ⟨rb', hreach⟩ := reach_steps 64 0 sampleStream 6 (.start Link.sampleOpts true 0) rb
  rw [hview] at hreach
  have hsid : ((Server.steps 64 0 6 (.start Link.sampleOpts true 0) sampleStream).link.heap 0).map
      (·.sid) = some 9 := by decide
  exact ⟨_, hrecv.trans hreach, hsid⟩

theorem session_needs_auth_newUdp :
    ∃ c : Conn, (c.server.link.heap 0).map (·.sid) = some 9 ∧
      ∀ p s, c.server.link.heap p = some s → ∀ x, ∃ version modes before f after,
        framesOf 64 (c.received ++ x)
          = .hello version modes :: .auth (ascii "secret") :: (before ++ f :: after) ∧
        Opens s.sid f := by
  obtain ⟨c, hreach, hsid⟩ := sample_reach
  exact ⟨c, hsid, (session_needs_auth Link.sampleOpts true 0 8192 (by decide) hreach).2.2⟩

end Shine
