import Shine.Transport.Handshake
import Shine.Lib.Lts

/-!
# What each side of a handshake has read and sent

Each side is described by what it has read and sent where it stands (`ClientInv`,
`ServerInv`). One step of a side keeps its description; every frame is in exactly one of
three places, so what a side has read is the beginning of what the other has sent.
`Inv.step`: one step of the whole keeps both descriptions and brings the two sides closer
to their ends.
-/

namespace Shine

/-- The frames that a reader ignores. -/
def ShineFrame.Handshaking : ShineFrame → Prop
  | .hello .. | .auth .. | .ok | .err .. => True
  | _ => False

theorem Link.dispatchFrame_handshaking (l : Link) (now : UInt64) {f : ShineFrame}
    (h : f.Handshaking) : l.dispatchFrame now f = l := by
  cases f with
  | hello _ _ | auth _ | ok | err _ _ => rfl
  | _ => exact h.elim

namespace Handshake

/-- A frame arrives as itself, or is refused for its size. -/
theorem received_cases (l : Link) (f : ShineFrame) :
    (Fits l.opts.maxPayload f ∧ received l f = .frame (encode f).length f) ∨
      (¬ Fits l.opts.maxPayload f ∧ ∃ e, received l f = .refused e) :=
  attempt_encode_cases l.opts.maxPayload f

/-- The first frame read was a HELLO within the limit. -/
def Greeted (limit : Nat) (read : List ShineFrame) : Prop :=
  ∃ version modes, read.head? = some (.hello version modes) ∧ Fits limit (.hello version modes)

theorem Greeted.append {limit : Nat} {read : List ShineFrame} (h : Greeted limit read)
    (more : List ShineFrame) : Greeted limit (read ++ more) := by
  obtain ⟨version, modes, hhead, hfits⟩ := h
  exact ⟨version, modes, by rw [List.head?_append, hhead]; rfl, hfits⟩

/-! ## Either side -/

/-- A side of the handshake: what it has read and sent where it stands with an open link,
what it may have sent, and what `handshake_done_` stands for. -/
structure Role (Pc : Type) where
  At (read sent : List ShineFrame) : Pc → Prop
  Said (read sent : List ShineFrame) : Prop
  Done (read : List ShineFrame) : Prop
  returned : Pc
  reader : Pc
  finished : Pc
  said_append {read sent : List ShineFrame} (h : Said read sent) (more : List ShineFrame) :
    Said (read ++ more) sent
  done_append {read : List ShineFrame} (h : Done read) (more : List ShineFrame) :
    Done (read ++ more)
  at_reader {read sent : List ShineFrame} (h : At read sent returned) :
    At read sent reader ∧ Done read
  reader_ne : reader ≠ returned ∧ reader ≠ finished

/-- A side with its link, the place of its coroutine, and all that it has read and sent. -/
structure SideInv {Pc : Type} (R : Role Pc) (opts : LinkOptions) (l : Link) (pc : Pc)
    (done : Bool) (read sent : List ShineFrame) : Prop where
  opts_eq : l.opts = opts
  said : R.Said read sent
  stands : l.closed = false → R.At read sent pc
  ended : l.closed = true → pc = R.returned ∨ pc = R.finished
  finished : done = true → R.Done read
  reading : pc = R.reader → done = true

namespace SideInv

variable {Pc : Type} {R : Role Pc} {opts : LinkOptions} {l : Link} {pc pc' : Pc} {done : Bool}
  {read sent : List ShineFrame} {f : ShineFrame}

theorem closed_eq_false (h : SideInv R opts l pc done read sent) (hr : pc ≠ R.returned)
    (hf : pc ≠ R.finished) : l.closed = false := by
  cases hc : l.closed with
  | false => rfl
  | true =>
    rcases h.ended hc with hpc | hpc
    · exact absurd hpc hr
    · exact absurd hpc hf

/-- Failing the link: nothing more is sent, and what has been achieved stays. -/
theorem fail (h : SideInv R opts l pc done read sent) (more : List ShineFrame)
    (hpc : pc' = R.returned ∨ pc' = R.finished) :
    SideInv R opts l.failLink pc' done (read ++ more) sent where
  opts_eq := (Link.failLink_opts _).trans h.opts_eq
  said := R.said_append h.said more
  stands hopen := by simp at hopen
  ended _ := hpc
  finished hdone := R.done_append (h.finished hdone) more
  reading hreader := by
    subst hreader
    exact (hpc.elim R.reader_ne.1 R.reader_ne.2).elim

/-- A closed side is not touched by what its socket drops. -/
theorem drop (h : SideInv R opts l pc done read sent) (hc : l.closed = true) (f : ShineFrame) :
    SideInv R opts l pc done (read ++ [f]) sent where
  opts_eq := h.opts_eq
  said := R.said_append h.said _
  stands hopen := by simp [hc] at hopen
  ended := h.ended
  finished hdone := R.done_append (h.finished hdone) _
  reading := h.reading

/-- A frame that takes an open side to another place. -/
theorem goes (h : SideInv R opts l pc done read sent) (hopen : l.closed = false)
    (hpc : pc' = R.reader → pc = R.reader) (hat : R.At (read ++ [f]) sent pc') :
    SideInv R opts l pc' done (read ++ [f]) sent where
  opts_eq := h.opts_eq
  said := R.said_append h.said _
  stands _ := hat
  ended hc := by simp [hopen] at hc
  finished hdone := R.done_append (h.finished hdone) _
  reading hr := h.reading (hpc hr)

variable [DecidableEq Pc]

/-- The pieces that enqueue one frame on an open link and go on to another place. -/
theorem enqueue (h : SideInv R opts l pc done read sent) (hopen : l.closed = false)
    (hpc : pc' ≠ R.reader) (hsaid : R.Said read (sent ++ [f]))
    (hat : R.At read (sent ++ [f]) pc') :
    SideInv R opts (l.enqueueFrame f) pc' (done || decide (pc' = R.reader)) read
      (sent ++ [f]) where
  opts_eq := (Link.enqueueFrame_opts _ _).trans h.opts_eq
  said := hsaid
  stands _ := hat
  ended hc := by simp [hopen] at hc
  finished hdone := h.finished (by simpa [hpc] using hdone)
  reading hr := absurd hr hpc

/-- `start` goes on to the reader if the link is open. -/
theorem leave (h : SideInv R opts l pc done read sent) (hpc : pc = R.returned)
    (hpc' : pc' = if l.closed then R.finished else R.reader) :
    SideInv R opts l pc' (done || decide (pc' = R.reader)) read sent := by
  subst hpc
  cases hc : l.closed with
  | true =>
    obtain rfl : pc' = R.finished := by simpa [hc] using hpc'
    exact
      { opts_eq := h.opts_eq
        said := h.said
        stands := fun hopen => by simp [hc] at hopen
        ended := fun _ => .inr rfl
        finished := fun hdone => h.finished (by simpa [R.reader_ne.2.symm] using hdone)
        reading := fun hr => absurd hr R.reader_ne.2.symm }
  | false =>
    obtain rfl : pc' = R.reader := by simpa [hc] using hpc'
    obtain ⟨hat, hdone⟩ := R.at_reader (h.stands hc)
    exact
      { opts_eq := h.opts_eq
        said := h.said
        stands := fun _ => hat
        ended := fun hclosed => by simp [hc] at hclosed
        finished := fun _ => hdone
        reading := fun _ => by simp }

end SideInv

/-! ## The client's side -/

/-- What an open client has read and sent where it stands. -/
def ClientAt (opts : LinkOptions) (read sent : List ShineFrame) : ClientPc → Prop
  | .sendHello => read = [] ∧ sent = []
  | .hello => read = [] ∧ sent = [helloFrame]
  | .sendAuth =>
    opts.password ≠ [] ∧ read.length = 1 ∧ Greeted opts.maxPayload read ∧ sent = [helloFrame]
  | .reply =>
    opts.password ≠ [] ∧ read.length = 1 ∧ Greeted opts.maxPayload read ∧
      sent = [helloFrame, .auth opts.password]
  | .returned | .reader =>
    Greeted opts.maxPayload read ∧ (opts.password = [] → sent = [helloFrame]) ∧
      (opts.password ≠ [] → .ok ∈ read ∧ sent = [helloFrame, .auth opts.password])
  | .finished => False

/-- The client. -/
def clientRole (opts : LinkOptions) : Role ClientPc where
  At := ClientAt opts
  Said _ sent := sent <+: [helloFrame, .auth opts.password]
  Done read := Greeted opts.maxPayload read ∧ (opts.password ≠ [] → .ok ∈ read)
  returned := .returned
  reader := .reader
  finished := .finished
  said_append h _ := h
  done_append h more := ⟨h.1.append more, fun hne => List.mem_append_left _ (h.2 hne)⟩
  at_reader h := ⟨h, h.1, fun hne => (h.2.2 hne).1⟩
  reader_ne := by decide

/-- The client, with all that it has read and sent. -/
abbrev ClientInv (opts : LinkOptions) (c : Client) (done : Bool)
    (read sent : List ShineFrame) : Prop :=
  SideInv (clientRole opts) opts c.link c.pc done read sent

/-- How far the client is from its end. -/
def clientRank (c : Client) : Nat :=
  match c.pc with
  | .sendHello => 6
  | .hello => 5
  | .sendAuth => 4
  | .reply => 3
  | .returned => 2
  | .reader => 1
  | .finished => 0

namespace ClientInv

variable {opts : LinkOptions} {c c' : Client} {done : Bool} {read sent : List ShineFrame}

theorem start (opts : LinkOptions) : ClientInv opts (.start opts 0) false [] [] where
  opts_eq := rfl
  said := List.nil_prefix
  stands _ := ⟨rfl, rfl⟩
  ended h := by cases h
  finished h := by cases h
  reading h := by cases h

/-- A client that neither has returned nor has ended stands where its link is open. -/
theorem stands_open (h : ClientInv opts c done read sent) (hr : c.pc ≠ .returned)
    (hf : c.pc ≠ .finished) : c.link.closed = false ∧ ClientAt opts read sent c.pc :=
  have hopen := h.closed_eq_false hr hf
  ⟨hopen, h.stands hopen⟩

/-- **A client that runs** puts at most one frame in its queue and comes closer to its
end. -/
theorem jump (h : ClientInv opts c done read sent) (hj : c.jump = some c') :
    ∃ out, c'.link.writeChan = c.link.writeChan ++ out ∧ out.length ≤ 1 ∧
      clientRank c' < clientRank c ∧
      ClientInv opts c' (done || decide (c'.pc = .reader)) read (sent ++ out) := by
  unfold Client.jump at hj
  cases hpc : c.pc with
  | hello | reply | finished => simp [hpc] at hj
  | sendHello =>
    obtain ⟨hopen, hat⟩ := h.stands_open (by simp [hpc]) (by simp [hpc])
    rw [hpc] at hat
    obtain ⟨rfl, rfl⟩ := hat
    simp only [hpc, Option.some.injEq] at hj
    subst hj
    exact ⟨[helloFrame], by simp [Link.enqueueFrame_writeChan, hopen], le_rfl,
      by simp [clientRank, hpc],
      h.enqueue hopen (by rintro ⟨⟩) ⟨[.auth opts.password], rfl⟩ ⟨rfl, rfl⟩⟩
  | sendAuth =>
    obtain ⟨hopen, hat⟩ := h.stands_open (by simp [hpc]) (by simp [hpc])
    rw [hpc] at hat
    obtain ⟨hne, hlen, hgreeted, rfl⟩ := hat
    simp only [hpc, h.opts_eq, Option.some.injEq] at hj
    subst hj
    exact ⟨[.auth opts.password], by simp [Link.enqueueFrame_writeChan, hopen], le_rfl,
      by simp [clientRank, hpc],
      h.enqueue hopen (by rintro ⟨⟩) List.prefix_rfl ⟨hne, hlen, hgreeted, rfl⟩⟩
  | returned =>
    simp only [hpc, Option.some.injEq] at hj
    subst hj
    refine ⟨[], by simp, Nat.zero_le _, by simp only [clientRank, hpc]; split_ifs <;> decide, ?_⟩
    rw [List.append_nil]
    exact h.leave hpc rfl
  | reader =>
    obtain ⟨hopen, -⟩ := h.stands_open (by simp [hpc]) (by simp [hpc])
    simp [hpc, hopen] at hj

/-- What a step on a frame has to keep. -/
def Keeps (opts : LinkOptions) (c c' : Client) (done : Bool) (read sent : List ShineFrame) :
    Prop :=
  c'.link.writeChan = c.link.writeChan ∧ clientRank c' ≤ clientRank c ∧
    ClientInv opts c' done read sent

/-- A frame that fails the handshake. -/
theorem keeps_fail (h : ClientInv opts c done read sent) (more : List ShineFrame)
    (hpc : c.pc = .hello ∨ c.pc = .reply) :
    Keeps opts c (c.fail .returned) done (read ++ more) sent := by
  refine ⟨Link.failLink_writeChan _, ?_, h.fail more (.inl rfl)⟩
  rcases hpc with hpc | hpc <;> simp [clientRank, Client.fail, hpc]

theorem onHello (h : ClientInv opts c done read sent) (hpc : c.pc = .hello) (f : ShineFrame) :
    Keeps opts c (c.onHello (received c.link f)) done (read ++ [f]) sent := by
  obtain ⟨hopen, hat⟩ := h.stands_open (by simp [hpc]) (by simp [hpc])
  rw [hpc] at hat
  obtain ⟨rfl, hsent⟩ := hat
  rcases received_cases c.link f with ⟨hfits, hrec⟩ | ⟨-, e, hrec⟩
  · cases f with
    | hello version modes =>
      rw [hrec]
      have hgreeted : Greeted opts.maxPayload [.hello version modes] :=
        ⟨version, modes, rfl, h.opts_eq ▸ hfits⟩
      simp only [Client.onHello, h.opts_eq]
      split_ifs with hpw
      · exact ⟨rfl, by simp [clientRank, hpc], h.goes hopen (by rintro ⟨⟩)
          ⟨hgreeted, fun _ => hsent, fun hne => absurd hpw hne⟩⟩
      · exact ⟨rfl, by simp [clientRank, hpc], h.goes hopen (by rintro ⟨⟩)
          ⟨hpw, rfl, hgreeted, hsent⟩⟩
    | _ => rw [hrec]; exact h.keeps_fail _ (.inl hpc)
  · rw [hrec]
    exact h.keeps_fail _ (.inl hpc)

theorem onReply (h : ClientInv opts c done read sent) (hpc : c.pc = .reply) (f : ShineFrame) :
    Keeps opts c (c.onReply (received c.link f)) done (read ++ [f]) sent := by
  obtain ⟨hopen, hat⟩ := h.stands_open (by simp [hpc]) (by simp [hpc])
  rw [hpc] at hat
  obtain ⟨hne, -, hgreeted, hsent⟩ := hat
  rcases received_cases c.link f with ⟨-, hrec⟩ | ⟨-, e, hrec⟩
  · cases f with
    | ok =>
      rw [hrec]
      exact ⟨rfl, by simp [Client.onReply, clientRank, hpc],
        h.goes hopen (by rintro ⟨⟩) ⟨hgreeted.append _, fun hpw => absurd hpw hne,
          fun _ => ⟨by simp, hsent⟩⟩⟩
    | _ => rw [hrec]; exact h.keeps_fail _ (.inr hpc)
  · rw [hrec]
    exact h.keeps_fail _ (.inr hpc)

theorem onFrame (h : ClientInv opts c done read sent) (hpc : c.pc = .reader) {f : ShineFrame}
    (hf : f.Handshaking) :
    Keeps opts c (c.onFrame 0 (received c.link f)) done (read ++ [f]) sent := by
  obtain ⟨hopen, hat⟩ := h.stands_open (by simp [hpc]) (by simp [hpc])
  rw [hpc] at hat
  obtain ⟨hgreeted, hsent, hok⟩ := hat
  rcases received_cases c.link f with ⟨-, hrec⟩ | ⟨-, e, hrec⟩
  · rw [hrec, Client.onFrame, Link.dispatchFrame_handshaking _ _ hf]
    refine ⟨rfl, le_rfl, h.goes hopen id ?_⟩
    rw [hpc]
    exact ⟨hgreeted.append _, hsent, fun hne => ⟨List.mem_append_left _ (hok hne).1, (hok hne).2⟩⟩
  · rw [hrec]
    exact ⟨Link.failLink_writeChan _, by simp [Client.onFrame, clientRank, Client.fail, hpc],
      h.fail [f] (.inr rfl)⟩

/-- **A client that reads** a handshake frame sends nothing, and comes no further from its
end. -/
theorem take (h : ClientInv opts c done read sent) (hd : c.decoding = true)
    {f : ShineFrame} (hf : f.Handshaking) :
    Keeps opts c (c.take 0 (received c.link f)) done (read ++ [f]) sent := by
  unfold Client.take
  cases hpc : c.pc with
  | hello => exact h.onHello hpc f
  | reply => exact h.onReply hpc f
  | reader => exact h.onFrame hpc hf
  | _ => simp [Client.decoding, hpc] at hd

/-- **A client that sees the end of the stream** fails its link. -/
theorem eof (h : ClientInv opts c done read sent) (hd : c.decoding = true) :
    (c.take 0 eof).link.writeChan = c.link.writeChan ∧
      clientRank (c.take 0 eof) < clientRank c ∧
      ClientInv opts (c.take 0 eof) done read sent := by
  have hfail : ∀ pc, pc = .returned ∨ pc = .finished →
      ClientInv opts (c.fail pc) done read sent := by
    intro pc hpc
    have := h.fail [] hpc
    rwa [List.append_nil] at this
  cases hpc : c.pc with
  | sendHello | sendAuth | returned | finished => simp [Client.decoding, hpc] at hd
  | hello | reply =>
    have htake : c.take 0 Handshake.eof = c.fail .returned := by
      simp only [Client.take, hpc]
      rfl
    rw [htake]
    exact ⟨Link.failLink_writeChan _, by simp [clientRank, Client.fail, hpc], hfail _ (.inl rfl)⟩
  | reader =>
    have htake : c.take 0 Handshake.eof = c.fail .finished := by
      simp only [Client.take, hpc]
      rfl
    rw [htake]
    exact ⟨Link.failLink_writeChan _, by simp [clientRank, Client.fail, hpc], hfail _ (.inr rfl)⟩

end ClientInv

/-! ## The server's side -/

/-- An AUTH with the server's password has been read. -/
def Authorised (opts : LinkOptions) (read : List ShineFrame) : Prop :=
  .auth opts.password ∈ read ∧ Fits opts.maxPayload (.auth opts.password)

/-- An AUTH with another password has been read. -/
def Rejected (opts : LinkOptions) (read : List ShineFrame) : Prop :=
  ∃ password, password ≠ opts.password ∧ .auth password ∈ read

theorem Authorised.append {opts : LinkOptions} {read : List ShineFrame}
    (h : Authorised opts read) (more : List ShineFrame) : Authorised opts (read ++ more) :=
  ⟨List.mem_append_left _ h.1, h.2⟩

theorem Rejected.append {opts : LinkOptions} {read : List ShineFrame}
    (h : Rejected opts read) (more : List ShineFrame) : Rejected opts (read ++ more) := by
  obtain ⟨password, hne, hmem⟩ := h
  exact ⟨password, hne, List.mem_append_left _ hmem⟩

/-- What an open server has read and sent where it stands. -/
def ServerAt (opts : LinkOptions) (read sent : List ShineFrame) : ServerPc → Prop
  | .hello => read = [] ∧ sent = []
  | .sendHello => read.length = 1 ∧ Greeted opts.maxPayload read ∧ sent = []
  | .auth =>
    opts.password ≠ [] ∧ read.length = 1 ∧ Greeted opts.maxPayload read ∧ sent = [helloFrame]
  | .sendOk =>
    opts.password ≠ [] ∧ Greeted opts.maxPayload read ∧ Authorised opts read ∧
      sent = [helloFrame]
  | .sendErr => Greeted opts.maxPayload read ∧ Rejected opts read ∧ sent = [helloFrame]
  | .failAuth => Rejected opts read ∧ sent = [helloFrame, badPassword]
  | .returned | .reader =>
    Greeted opts.maxPayload read ∧ (opts.password = [] → sent = [helloFrame]) ∧
      (opts.password ≠ [] → Authorised opts read ∧ sent = [helloFrame, .ok])
  | .finished => False

/-- What a server may have sent, after what it has read. -/
def Said (opts : LinkOptions) (read sent : List ShineFrame) : Prop :=
  sent = [] ∨ Greeted opts.maxPayload read ∧
    (sent = [helloFrame] ∨ (sent = [helloFrame, .ok] ∧ Authorised opts read) ∨
      (sent = [helloFrame, badPassword] ∧ Rejected opts read))

theorem Said.append {opts : LinkOptions} {read sent : List ShineFrame} (h : Said opts read sent)
    (more : List ShineFrame) : Said opts (read ++ more) sent := by
  rcases h with h | ⟨hg, h | ⟨h, ha⟩ | ⟨h, hr⟩⟩
  · exact .inl h
  · exact .inr ⟨hg.append more, .inl h⟩
  · exact .inr ⟨hg.append more, .inr (.inl ⟨h, ha.append more⟩)⟩
  · exact .inr ⟨hg.append more, .inr (.inr ⟨h, hr.append more⟩)⟩

/-- The server. -/
def serverRole (opts : LinkOptions) : Role ServerPc where
  At := ServerAt opts
  Said := Said opts
  Done read := Greeted opts.maxPayload read ∧ (opts.password ≠ [] → Authorised opts read)
  returned := .returned
  reader := .reader
  finished := .finished
  said_append h more := h.append more
  done_append h more := ⟨h.1.append more, fun hne => (h.2 hne).append more⟩
  at_reader h := ⟨h, h.1, fun hne => (h.2.2 hne).1⟩
  reader_ne := by decide

/-- The server, with all that it has read and sent. -/
abbrev ServerInv (opts : LinkOptions) (s : Server) (done : Bool)
    (read sent : List ShineFrame) : Prop :=
  SideInv (serverRole opts) opts s.link s.pc done read sent

namespace ServerInv

variable {opts : LinkOptions} {s s' : Server} {done : Bool} {read sent : List ShineFrame}

theorem start (opts : LinkOptions) (handler : Bool) :
    ServerInv opts (.start opts handler 0) false [] [] where
  opts_eq := rfl
  said := .inl rfl
  stands _ := ⟨rfl, rfl⟩
  ended h := by cases h
  finished h := by cases h
  reading h := by cases h

/-- A server that neither has returned nor has ended stands where its link is open. -/
theorem stands_open (h : ServerInv opts s done read sent) (hr : s.pc ≠ .returned)
    (hf : s.pc ≠ .finished) : s.link.closed = false ∧ ServerAt opts read sent s.pc :=
  have hopen := h.closed_eq_false hr hf
  ⟨hopen, h.stands hopen⟩

/-- **A server that runs** puts at most one frame in its queue and comes closer to its
end. -/
theorem jump (h : ServerInv opts s done read sent) (hj : s.jump = some s') :
    ∃ out, s'.link.writeChan = s.link.writeChan ++ out ∧ out.length ≤ 1 ∧
      s'.rank < s.rank ∧
      ServerInv opts s' (done || decide (s'.pc = .reader)) read (sent ++ out) := by
  have hrank : s'.rank < s.rank := (serverLoop 0).jump_rank hj
  unfold Server.jump at hj
  cases hpc : s.pc with
  | hello | auth | finished => simp [hpc] at hj
  | sendHello =>
    obtain ⟨hopen, hat⟩ := h.stands_open (by simp [hpc]) (by simp [hpc])
    rw [hpc] at hat
    obtain ⟨hlen, hgreeted, rfl⟩ := hat
    simp only [hpc, h.opts_eq, Option.some.injEq] at hj
    subst hj
    refine ⟨[helloFrame], by simp [Link.enqueueFrame_writeChan, hopen, helloFrame], le_rfl,
      hrank, h.enqueue hopen ?_ (.inr ⟨hgreeted, .inl rfl⟩) ?_⟩
    · split_ifs <;> rintro ⟨⟩
    · split_ifs with hpw
      · exact ⟨hgreeted, fun _ => rfl, fun hne => absurd hpw hne⟩
      · exact ⟨hpw, hlen, hgreeted, rfl⟩
  | sendOk =>
    obtain ⟨hopen, hat⟩ := h.stands_open (by simp [hpc]) (by simp [hpc])
    rw [hpc] at hat
    obtain ⟨hne, hgreeted, hauth, rfl⟩ := hat
    simp only [hpc, Option.some.injEq] at hj
    subst hj
    exact ⟨[.ok], by simp [Link.enqueueFrame_writeChan, hopen], le_rfl, hrank,
      h.enqueue hopen (by rintro ⟨⟩) (.inr ⟨hgreeted, .inr (.inl ⟨rfl, hauth⟩)⟩)
        ⟨hgreeted, fun hpw => absurd hpw hne, fun _ => ⟨hauth, rfl⟩⟩⟩
  | sendErr =>
    obtain ⟨hopen, hat⟩ := h.stands_open (by simp [hpc]) (by simp [hpc])
    rw [hpc] at hat
    obtain ⟨hgreeted, hrejected, rfl⟩ := hat
    simp only [hpc, Option.some.injEq] at hj
    subst hj
    exact ⟨[badPassword], by simp [Link.enqueueFrame_writeChan, hopen, badPassword], le_rfl,
      hrank, h.enqueue hopen (by rintro ⟨⟩) (.inr ⟨hgreeted, .inr (.inr ⟨rfl, hrejected⟩)⟩)
        ⟨hrejected, rfl⟩⟩
  | failAuth =>
    simp only [hpc, Option.some.injEq] at hj
    subst hj
    have hfailed : ServerInv opts (s.fail .returned) done (read ++ []) sent :=
      h.fail [] (.inl rfl)
    rw [List.append_nil] at hfailed
    refine ⟨[], by simp [Server.fail], Nat.zero_le _, hrank, ?_⟩
    simpa [Server.fail] using hfailed
  | returned =>
    simp only [hpc, Option.some.injEq] at hj
    subst hj
    refine ⟨[], by simp, Nat.zero_le _, hrank, ?_⟩
    rw [List.append_nil]
    exact h.leave hpc rfl
  | reader =>
    obtain ⟨hopen, -⟩ := h.stands_open (by simp [hpc]) (by simp [hpc])
    simp [hpc, hopen] at hj

/-- What a step on a frame has to keep. -/
def Keeps (opts : LinkOptions) (s s' : Server) (done : Bool) (read sent : List ShineFrame) :
    Prop :=
  s'.link.writeChan = s.link.writeChan ∧ s'.rank ≤ s.rank ∧ ServerInv opts s' done read sent

/-- A frame that fails the handshake. -/
theorem keeps_fail (h : ServerInv opts s done read sent) (more : List ShineFrame)
    (hpc : s.pc = .hello ∨ s.pc = .auth) :
    Keeps opts s (s.fail .returned) done (read ++ more) sent := by
  refine ⟨Link.failLink_writeChan _, ?_, h.fail more (.inl rfl)⟩
  rcases hpc with hpc | hpc <;> simp [Server.rank, Server.fail, hpc]

theorem onHello (h : ServerInv opts s done read sent) (hpc : s.pc = .hello) (f : ShineFrame) :
    Keeps opts s (s.onHello (received s.link f)) done (read ++ [f]) sent := by
  obtain ⟨hopen, hat⟩ := h.stands_open (by simp [hpc]) (by simp [hpc])
  rw [hpc] at hat
  obtain ⟨rfl, hsent⟩ := hat
  rcases received_cases s.link f with ⟨hfits, hrec⟩ | ⟨-, e, hrec⟩
  · cases f with
    | hello version modes =>
      rw [hrec]
      have hgreeted : Greeted opts.maxPayload [.hello version modes] :=
        ⟨version, modes, rfl, h.opts_eq ▸ hfits⟩
      exact ⟨rfl, by simp [Server.onHello, Server.rank, hpc],
        h.goes hopen (by rintro ⟨⟩) ⟨rfl, hgreeted, hsent⟩⟩
    | _ => rw [hrec]; exact h.keeps_fail _ (.inl hpc)
  · rw [hrec]
    exact h.keeps_fail _ (.inl hpc)

theorem onAuth (h : ServerInv opts s done read sent) (hpc : s.pc = .auth) (f : ShineFrame) :
    Keeps opts s (s.onAuth (received s.link f)) done (read ++ [f]) sent := by
  obtain ⟨hopen, hat⟩ := h.stands_open (by simp [hpc]) (by simp [hpc])
  rw [hpc] at hat
  obtain ⟨hne, -, hgreeted, hsent⟩ := hat
  rcases received_cases s.link f with ⟨hfits, hrec⟩ | ⟨-, e, hrec⟩
  · cases f with
    | auth password =>
      rw [hrec]
      simp only [Server.onAuth, h.opts_eq]
      split_ifs with hpw
      · have hrejected : Rejected opts (read ++ [.auth password]) := ⟨password, hpw, by simp⟩
        exact ⟨rfl, by simp [Server.rank, hpc],
          h.goes hopen (by rintro ⟨⟩) ⟨hgreeted.append _, hrejected, hsent⟩⟩
      · obtain rfl : password = opts.password := not_not.mp hpw
        have hauth : Authorised opts (read ++ [.auth opts.password]) :=
          ⟨by simp, h.opts_eq ▸ hfits⟩
        exact ⟨rfl, by simp [Server.rank, hpc],
          h.goes hopen (by rintro ⟨⟩) ⟨hne, hgreeted.append _, hauth, hsent⟩⟩
    | _ => rw [hrec]; exact h.keeps_fail _ (.inr hpc)
  · rw [hrec]
    exact h.keeps_fail _ (.inr hpc)

theorem onFrame (h : ServerInv opts s done read sent) (hpc : s.pc = .reader) {f : ShineFrame}
    (hf : f.Handshaking) :
    Keeps opts s (s.onFrame 0 (received s.link f)) done (read ++ [f]) sent := by
  obtain ⟨hopen, hat⟩ := h.stands_open (by simp [hpc]) (by simp [hpc])
  rw [hpc] at hat
  obtain ⟨hgreeted, hsent, hauth⟩ := hat
  rcases received_cases s.link f with ⟨-, hrec⟩ | ⟨-, e, hrec⟩
  · rw [hrec, Server.onFrame, Link.dispatchFrame_handshaking _ _ hf]
    refine ⟨rfl, le_rfl, h.goes hopen id ?_⟩
    rw [hpc]
    exact ⟨hgreeted.append _, hsent, fun hne => ⟨(hauth hne).1.append _, (hauth hne).2⟩⟩
  · rw [hrec]
    exact ⟨Link.failLink_writeChan _, by simp [Server.onFrame, Server.rank, Server.fail, hpc],
      h.fail [f] (.inr rfl)⟩

/-- **A server that reads** a handshake frame sends nothing, and comes no further from its
end. -/
theorem take (h : ServerInv opts s done read sent) (hd : s.decoding = true)
    {f : ShineFrame} (hf : f.Handshaking) :
    Keeps opts s (s.take 0 (received s.link f)) done (read ++ [f]) sent := by
  unfold Server.take
  cases hpc : s.pc with
  | hello => exact h.onHello hpc f
  | auth => exact h.onAuth hpc f
  | reader => exact h.onFrame hpc hf
  | _ => simp [Server.decoding, hpc] at hd

/-- **A server that sees the end of the stream** fails its link. -/
theorem eof (h : ServerInv opts s done read sent) (hd : s.decoding = true) :
    (s.take 0 eof).link.writeChan = s.link.writeChan ∧ (s.take 0 eof).rank < s.rank ∧
      ServerInv opts (s.take 0 eof) done read sent := by
  have hfail : ∀ pc, pc = .returned ∨ pc = .finished →
      ServerInv opts (s.fail pc) done read sent := by
    intro pc hpc
    have := h.fail [] hpc
    rwa [List.append_nil] at this
  have hrank := (serverLoop 0).error_rank hd (a := Handshake.eof) (by rintro ⟨⟩)
    (by rintro n f ⟨⟩)
  refine ⟨?_, hrank, ?_⟩ <;> unfold Server.take <;> cases hpc : s.pc with
  | hello | auth => first | exact Link.failLink_writeChan _ | exact hfail _ (.inl rfl)
  | reader => first | exact Link.failLink_writeChan _ | exact hfail _ (.inr rfl)
  | _ => simp [Server.decoding, hpc] at hd

end ServerInv

/-! ## Both sides -/

/-- All that the client has sent: read by the server, on the connection, or queued. -/
def sentUp (h : Handshake) : List ShineFrame :=
  h.serverRead ++ (h.toServer ++ h.client.link.writeChan)

/-- All that the server has sent. -/
def sentDown (h : Handshake) : List ShineFrame :=
  h.clientRead ++ (h.toClient ++ h.server.link.writeChan)

/-- Both sides stand where what they have read and sent puts them. -/
structure Inv (co so : LinkOptions) (h : Handshake) : Prop where
  client : ClientInv co h.client h.clientDone h.clientRead h.sentUp
  server : ServerInv so h.server h.serverDone h.serverRead h.sentDown

/-- How far both sides are from their ends; a frame counts until it is written and until
it is read. -/
def distance (h : Handshake) : Nat :=
  3 * clientRank h.client + 3 * h.server.rank + 2 * h.client.link.writeChan.length +
    2 * h.server.link.writeChan.length + h.toServer.length + h.toClient.length

/-- What a step has taken off a queue. -/
theorem popped {b : Prop} [Decidable b] {queue : List ShineFrame}
    {g : ShineFrame × List ShineFrame → Handshake} {h' : Handshake}
    (hs : (if b then (pop queue).map g else none) = some h') :
    b ∧ ∃ f rest, queue = f :: rest ∧ h' = g (f, rest) := by
  split_ifs at hs with hb
  cases queue with
  | nil => cases hs
  | cons f rest =>
    cases hs
    exact ⟨hb, f, rest, rfl, rfl⟩

namespace Inv

variable {co so : LinkOptions} {h h' : Handshake}

theorem start (co so : LinkOptions) (handler : Bool) : Inv co so (.start co so handler) :=
  ⟨.start co, .start so handler⟩

/-- Only handshake frames go up. -/
theorem handshaking_up (hi : Inv co so h) {f : ShineFrame} (hf : f ∈ h.sentUp) :
    f.Handshaking := by
  have hmem := hi.client.said.subset hf
  simp only [List.mem_cons, List.not_mem_nil, or_false] at hmem
  rcases hmem with rfl | rfl <;> exact trivial

/-- Only handshake frames come down. -/
theorem handshaking_down (hi : Inv co so h) {f : ShineFrame} (hf : f ∈ h.sentDown) :
    f.Handshaking := by
  have hmem : f = helloFrame ∨ f = .ok ∨ f = badPassword := by
    rcases hi.server.said with hs | ⟨-, hs | ⟨hs, -⟩ | ⟨hs, -⟩⟩ <;> rw [hs] at hf
    · cases hf
    all_goals
      simp only [List.mem_cons, List.not_mem_nil, or_false] at hf
      tauto
  rcases hmem with rfl | rfl | rfl <;> exact trivial

/-- A frame that is not yet taken off the connection is among those sent. -/
theorem mem_sentUp {f : ShineFrame} {rest : List ShineFrame} (hq : h.toServer = f :: rest) :
    f ∈ h.sentUp := by
  simp [sentUp, hq]

theorem mem_sentDown {f : ShineFrame} {rest : List ShineFrame} (hq : h.toClient = f :: rest) :
    f ∈ h.sentDown := by
  simp [sentDown, hq]

/-- **One step** keeps the description of both sides and brings them closer to their
ends. -/
theorem step (hi : Inv co so h) {e : Event} (hs : h.step e = some h') :
    Inv co so h' ∧ h'.distance < h.distance := by
  cases e with
  | clientRuns =>
    obtain ⟨c', hj, rfl⟩ := Option.map_eq_some_iff.mp hs
    obtain ⟨out, hchan, hlen, hrank, hc⟩ := hi.client.jump hj
    refine ⟨⟨?_, hi.server⟩, ?_⟩
    · simpa [sentUp, hchan, List.append_assoc] using hc
    · simp only [distance, hchan, List.length_append]
      omega
  | clientWrites =>
    rw [Handshake.step, ← ite_not] at hs
    obtain ⟨-, f, rest, hq, rfl⟩ := popped hs
    refine ⟨⟨?_, hi.server⟩, ?_⟩
    · -- the frame only moves on: all that was sent stays the same
      have hsent : h.sentUp = h.serverRead ++ ((h.toServer ++ [f]) ++ rest) := by
        simp [sentUp, hq]
      have hc := hi.client
      rw [hsent] at hc
      exact ⟨hc.opts_eq, hc.said, hc.stands, hc.ended, hc.finished, hc.reading⟩
    · simp only [distance, clientRank, hq, List.length_append, List.length_cons, List.length_nil]
      omega
  | clientReads =>
    obtain ⟨hd, f, rest, hq, rfl⟩ := popped hs
    obtain ⟨hchan, hrank, hc⟩ := hi.client.take hd (hi.handshaking_down (mem_sentDown hq))
    refine ⟨⟨?_, ?_⟩, ?_⟩
    · simpa [sentUp, hchan] using hc
    · simpa [sentDown, hq] using hi.server
    · simp only [distance, hchan, hq, List.length_cons]
      omega
  | clientEof =>
    simp only [Handshake.step] at hs
    split_ifs at hs with hd
    obtain ⟨hchan, hrank, hc⟩ := hi.client.eof hd.1
    cases hs
    refine ⟨⟨?_, hi.server⟩, ?_⟩
    · simpa [sentUp, hchan] using hc
    · simp only [distance, hchan]
      omega
  | clientDrops =>
    obtain ⟨hclosed, f, rest, hq, rfl⟩ := popped hs
    refine ⟨⟨hi.client.drop hclosed f, ?_⟩, ?_⟩
    · simpa [sentDown, hq] using hi.server
    · simp only [distance, hq, List.length_cons]
      omega
  | serverRuns =>
    obtain ⟨s', hj, rfl⟩ := Option.map_eq_some_iff.mp hs
    obtain ⟨out, hchan, hlen, hrank, hc⟩ := hi.server.jump hj
    refine ⟨⟨hi.client, ?_⟩, ?_⟩
    · simpa [sentDown, hchan, List.append_assoc] using hc
    · simp only [distance, hchan, List.length_append]
      omega
  | serverWrites =>
    rw [Handshake.step, ← ite_not] at hs
    obtain ⟨-, f, rest, hq, rfl⟩ := popped hs
    refine ⟨⟨hi.client, ?_⟩, ?_⟩
    · have hsent : h.sentDown = h.clientRead ++ ((h.toClient ++ [f]) ++ rest) := by
        simp [sentDown, hq]
      have hc := hi.server
      rw [hsent] at hc
      exact ⟨hc.opts_eq, hc.said, hc.stands, hc.ended, hc.finished, hc.reading⟩
    · simp only [distance, Server.rank, hq, List.length_append, List.length_cons,
        List.length_nil]
      omega
  | serverReads =>
    obtain ⟨hd, f, rest, hq, rfl⟩ := popped hs
    obtain ⟨hchan, hrank, hc⟩ := hi.server.take hd (hi.handshaking_up (mem_sentUp hq))
    refine ⟨⟨?_, ?_⟩, ?_⟩
    · simpa [sentUp, hq] using hi.client
    · simpa [sentDown, hchan] using hc
    · simp only [distance, hchan, hq, List.length_cons]
      omega
  | serverEof =>
    simp only [Handshake.step] at hs
    split_ifs at hs with hd
    obtain ⟨hchan, hrank, hc⟩ := hi.server.eof hd.1
    cases hs
    refine ⟨⟨hi.client, ?_⟩, ?_⟩
    · simpa [sentDown, hchan] using hc
    · simp only [distance, hchan]
      omega
  | serverDrops =>
    obtain ⟨hclosed, f, rest, hq, rfl⟩ := popped hs
    refine ⟨⟨?_, hi.server.drop hclosed f⟩, ?_⟩
    · simpa [sentUp, hq] using hi.client
    · simp only [distance, hq, List.length_cons]
      omega

/-- Every run. -/
theorem reach {handler : Bool} (hr : system.Reach Lts.Free (.start co so handler) h) :
    Inv co so h :=
  hr.invariant (start co so handler) fun _ _ _ hi _ hs => (hi.step hs).1

end Inv

end Handshake

end Shine
