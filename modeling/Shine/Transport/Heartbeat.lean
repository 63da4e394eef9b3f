import Shine.Lib.Lts
import Shine.Transport.Table

/-!
# The heartbeat of a link (`Link::heartbeatLoop`)

Once a second the loop looks at three fields: the nonce of the PING that is outstanding (zero
if there is none), when it was sent, and when the last PONG came. The reader writes two of
them too, in `dispatchFrame`. Both coroutines run on the strand, so that a tick and a frame are
single steps; anything else that the link does comes in between.

"Sent" is the stamp in `last_ping_sent_ns_`, which the loop writes before it calls `enqueueFrame`:
where `write_chan_` is full the loop is suspended behind the stamp, and the PING leaves later or
not at all.

A run keeps the PINGs that the link has sent, and which of them a PONG with their nonce has
come for. Nothing in the program reads this.

- `pong_counts_iff`: a PONG with nonce zero counts although no PING is outstanding. This is the
  only frame that counts without answering a PING.
- `heartbeat_fails_late`: the loop fails the link only for a PING that is overdue.
-/

namespace Shine

namespace Link

/-- What else a link does: calls by its sessions, by the handshake and the writer coroutine,
and by its owner. -/
inductive Use where
  | openSession (sid : UInt64) (target : Address) (isUdp : Bool)
  /-- A session object changes. -/
  | session (p : Nat) (f : Session → Session)
  | enqueue (f : ShineFrame)
  | shutdownWrite (p : Nat)
  | close (p : Nat)
  | runPosted
  /-- The writer coroutine takes a frame. -/
  | dequeue
  | failLink
  | closeNow

def use (l : Link) : Use → Option Link
  | .openSession sid target isUdp => some (l.openSession sid target isUdp)
  | .session p f => some (l.modify p f)
  | .enqueue f => some (l.enqueueFrame f)
  | .shutdownWrite p => some (l.shutdownWrite p)
  | .close p => some (l.close p)
  | .runPosted => l.runPosted
  | .dequeue => some { l with writeChan := l.writeChan.tail }
  | .failLink => some l.failLink
  | .closeNow => some l.closeNow

/-- The fields of the heartbeat: `pending_ping_nonce_` and `last_pong_ns_`. -/
def pingFields (l : Link) : UInt64 × UInt64 := (l.pendingPingNonce, l.lastPongNs)

section PingFields

variable (l : Link)

@[simp] theorem enqueueFrame_pingFields (f : ShineFrame) :
    (l.enqueueFrame f).pingFields = l.pingFields := by
  unfold enqueueFrame
  split_ifs <;> rfl

theorem openSession_pingFields (sid : UInt64) (target : Address) (isUdp : Bool) :
    (l.openSession sid target isUdp).pingFields = l.pingFields := by
  unfold openSession
  split_ifs
  · rfl
  · rw [enqueueFrame_pingFields]
    rfl

theorem shutdownWrite_pingFields (p : Nat) : (l.shutdownWrite p).pingFields = l.pingFields := by
  unfold shutdownWrite
  split
  · rfl
  · split_ifs
    · rfl
    · split
      · rw [enqueueFrame_pingFields]
        rfl
      · rw [enqueueFrame_pingFields]
        rfl
      · rfl

theorem close_pingFields (p : Nat) : (l.close p).pingFields = l.pingFields := by
  unfold close spawnEnqueue
  split
  · rfl
  · split_ifs <;> rfl

/-- No other call touches the fields of the heartbeat, and none opens a link again. -/
theorem use_pingFields {l' : Link} {c : Use} (h : l.use c = some l') :
    l'.pingFields = l.pingFields ∧ (l.closed = true → l'.closed = true) := by
  cases c with
  | openSession sid target isUdp =>
    cases h
    refine ⟨l.openSession_pingFields sid target isUdp, fun hclosed => ?_⟩
    rw [openSession, if_pos hclosed]
    exact hclosed
  | session p f =>
    cases h
    exact ⟨rfl, id⟩
  | enqueue f =>
    cases h
    exact ⟨l.enqueueFrame_pingFields f, by simp⟩
  | shutdownWrite p =>
    cases h
    exact ⟨l.shutdownWrite_pingFields p, by simp⟩
  | close p =>
    cases h
    exact ⟨l.close_pingFields p, by simp⟩
  | runPosted =>
    simp only [use, runPosted] at h
    split at h
    · cases h
    · cases h
      exact ⟨enqueueFrame_pingFields _ _, by simp⟩
  | dequeue =>
    cases h
    exact ⟨rfl, id⟩
  | failLink =>
    cases h
    refine ⟨?_, fun _ => failLink_closed l⟩
    unfold Link.failLink
    split_ifs <;> rfl
  | closeNow =>
    cases h
    exact ⟨rfl, fun _ => rfl⟩

theorem accept_pingFields (sid : UInt64) (target : Address) (win : UInt32) (protocol : Protocol) :
    (l.accept sid target win protocol).pingFields = l.pingFields :=
  enqueueFrame_pingFields (l.emplace (.new sid target win l.opts.initWindow protocol)) (.ack sid)

/-- Only a PONG touches the fields of the heartbeat. -/
theorem dispatchFrame_pingFields (now : UInt64) {f : ShineFrame} (hf : ∀ n, f ≠ .pong n) :
    (l.dispatchFrame now f).pingFields = l.pingFields := by
  cases f with
  | data _ _ | window _ _ | reset _ =>
    simp only [dispatchFrame]
    split <;> rfl
  | udpData _ _ _ =>
    simp only [dispatchFrame]
    split
    · rfl
    · split <;> rfl
  | new _ _ _ =>
    simp only [dispatchFrame]
    split_ifs
    · rfl
    · split
      · exact enqueueFrame_pingFields ..
      · exact accept_pingFields ..
  | newUdp _ =>
    simp only [dispatchFrame]
    split_ifs
    · rfl
    · exact accept_pingFields ..
  | close _ _ =>
    simp only [dispatchFrame]
    split
    · rfl
    · split_ifs <;> rfl
  | ping _ => exact enqueueFrame_pingFields ..
  | pong n => exact absurd rfl (hf n)
  | ack _ | hello _ _ | auth _ | ok | err _ _ => rfl

end PingFields

end Link

/-! ## The loop -/

/-- The part of `LinkOptions` that the heartbeat reads, in seconds. -/
structure HeartbeatOptions where
  pingInterval : Int64 := 15
  pongTimeout : Int64 := 10

/-- `static_cast<u64>(s.count()) * 1'000'000'000ull`. -/
def toNs (s : Int64) : UInt64 := s.toUInt64 * 1000000000

/-- A PING that has been sent. -/
structure SentPing where
  nonce : UInt64
  sentNs : UInt64
  /-- A PONG with its nonce has been dispatched since. -/
  answered : Bool
  deriving DecidableEq

/-- A link and its heartbeat. -/
structure Heartbeat where
  link : Link
  handshakeDone : Bool
  lastPingSentNs : UInt64
  /-- `heartbeatLoop` has not returned. -/
  beating : Bool
  /-- The PINGs sent, the latest first. -/
  pings : List SentPing
  /-- When the last step was. -/
  clock : UInt64

/-- What the loop does when its timer has expired. -/
inductive Beat where
  | idle
  | fail
  | ping (nonce : UInt64)
  deriving DecidableEq

namespace Heartbeat

/-- The decision of one round, with the number that `rng_` gives if it is asked. -/
def decideBeat (o : HeartbeatOptions) (s : Heartbeat) (now random : UInt64) : Beat :=
  if s.link.pendingPingNonce ≠ 0 ∧ now - s.lastPingSentNs > toNs o.pongTimeout then .fail
  else if s.link.pendingPingNonce = 0 ∧ now - s.link.lastPongNs > toNs o.pingInterval then
    .ping (if random = 0 then 1 else random)
  else .idle

/-- Send a PING. On a closed link it is not sent, but the fields are set all the same. -/
def sendPing (s : Heartbeat) (now nonce : UInt64) : Heartbeat :=
  { s with
    link := { s.link with pendingPingNonce := nonce }.enqueueFrame (.ping nonce)
    lastPingSentNs := now
    pings := if s.link.closed then s.pings else ⟨nonce, now, false⟩ :: s.pings }

/-- The condition of the loop. -/
def again (s : Heartbeat) : Heartbeat := { s with beating := s.beating && !s.link.closed }

/-- One round of the loop. -/
def round (o : HeartbeatOptions) (s : Heartbeat) (now random : UInt64) : Heartbeat :=
  if !s.handshakeDone then s.again
  else match s.decideBeat o now random with
    | .fail => { s with link := s.link.failLink, beating := false, clock := now }
    | .ping nonce => { s.sendPing now nonce with clock := now }.again
    | .idle => { s with clock := now }.again

/-- A PONG answers the PINGs with its nonce. -/
def answer (f : ShineFrame) (ping : SentPing) : SentPing :=
  if f = .pong ping.nonce then { ping with answered := true } else ping

/-- What can happen. -/
inductive Event where
  | handshakeDone
  /-- The timer of the loop expires. -/
  | tick (now random : UInt64)
  /-- The wait for the timer fails. -/
  | abort
  /-- The reader coroutine dispatches a frame. -/
  | frame (now : UInt64) (f : ShineFrame)
  | use (c : Link.Use)

def step (o : HeartbeatOptions) (s : Heartbeat) : Event → Option Heartbeat
  | .handshakeDone => if s.link.closed then none else some { s with handshakeDone := true }
  | .tick now random => if s.beating then some (s.round o now random) else none
  | .abort => some { s with beating := false }
  | .frame now f =>
    if s.handshakeDone ∧ !s.link.closed then
      some { s with
        link := s.link.dispatchFrame now f
        pings := s.pings.map (answer f)
        clock := now }
    else none
  | .use c => (s.link.use c).map fun l => { s with link := l }

/-- All runs. -/
def system (o : HeartbeatOptions) : Lts Heartbeat Event := ⟨step o⟩

/-- `Link::start`. -/
def start (opts : LinkOptions) (onNewSession : Bool) (now : UInt64) : Heartbeat where
  link := .new opts onNewSession now
  handshakeDone := false
  lastPingSentNs := 0
  beating := true
  pings := []
  clock := now

/-- The clock does not go back. -/
def Steady (s : Heartbeat) : Event → Prop
  | .tick now _ | .frame now _ => s.clock ≤ now
  | _ => True

instance (s : Heartbeat) : (e : Event) → Decidable (s.Steady e)
  | .tick now _ | .frame now _ => inferInstanceAs (Decidable (s.clock ≤ now))
  | .handshakeDone | .abort | .use _ => inferInstanceAs (Decidable True)

/-- The link has sent a PING with this nonce, and no PONG with it has come since. -/
def Outstanding (s : Heartbeat) (nonce : UInt64) : Prop :=
  ∃ ping ∈ s.pings, ping.nonce = nonce ∧ ping.answered = false

/-! ## What the fields say about the PINGs -/

/-- No PING is outstanding. -/
def Quiet (s : Heartbeat) : Prop :=
  s.link.pendingPingNonce = 0 ∧ ∀ ping ∈ s.pings, ping.answered = true

/-- The latest PING is outstanding, and the fields describe it. -/
def Waiting (s : Heartbeat) : Prop :=
  s.link.pendingPingNonce ≠ 0 ∧
    s.pings.head? = some ⟨s.link.pendingPingNonce, s.lastPingSentNs, false⟩

/-- What holds in every state. -/
structure Inv (s : Heartbeat) : Prop where
  nonzero : ∀ ping ∈ s.pings, ping.nonce ≠ 0
  earlier : ∀ ping ∈ s.pings.tail, ping.answered = true
  /-- The fields are right up to the round in which the loop finds the link closed. -/
  fields : s.link.closed = false ∨ s.beating = true → s.Quiet ∨ s.Waiting

section Inv

variable {s t : Heartbeat} {o : HeartbeatOptions}

theorem Inv.start (opts : LinkOptions) (onNewSession : Bool) (now : UInt64) :
    Inv (start opts onNewSession now) :=
  ⟨nofun, nofun, fun _ => .inl ⟨rfl, nofun⟩⟩

/-- Nothing happens to the fields and the PINGs. -/
theorem Inv.keep (h : Inv s) (hlink : t.link.pingFields = s.link.pingFields)
    (hsent : t.lastPingSentNs = s.lastPingSentNs) (hpings : t.pings = s.pings)
    (hclosed : s.link.closed = true → t.link.closed = true)
    (hbeating : t.beating = true → s.beating = true) : Inv t := by
  have hpending : t.link.pendingPingNonce = s.link.pendingPingNonce := congrArg Prod.fst hlink
  have hopen : t.link.closed = false → s.link.closed = false := by
    intro hopen
    by_contra hs
    rw [hclosed (by simpa using hs)] at hopen
    cases hopen
  refine ⟨by rw [hpings]; exact h.nonzero, by rw [hpings]; exact h.earlier, fun hlive => ?_⟩
  rw [Quiet, Waiting, hpending, hpings, hsent]
  exact h.fields (hlive.imp hopen hbeating)

theorem Inv.sendPing (h : Inv s) (hbeating : s.beating = true) {now nonce : UInt64}
    (hpending : s.link.pendingPingNonce = 0) (hnonce : nonce ≠ 0) :
    Inv { s.sendPing now nonce with clock := now }.again := by
  cases hclosed : s.link.closed with
  | true =>
    -- the PING is dropped, and the loop ends
    refine ⟨?_, ?_, fun hlive => ?_⟩
    · simpa [again, Heartbeat.sendPing, hclosed] using h.nonzero
    · simpa [again, Heartbeat.sendPing, hclosed] using h.earlier
    · simp [again, Heartbeat.sendPing, hclosed] at hlive
  | false =>
    have hquiet : s.Quiet := (h.fields (.inr hbeating)).resolve_right fun hw => hw.1 hpending
    refine ⟨?_, ?_, fun _ => .inr ⟨?_, ?_⟩⟩
    · simpa [again, Heartbeat.sendPing, hclosed, hnonce] using h.nonzero
    · simpa [again, Heartbeat.sendPing, hclosed] using hquiet.2
    · simpa [again, Heartbeat.sendPing, Link.enqueueFrame, hclosed] using hnonce
    · simp [again, Heartbeat.sendPing, Link.enqueueFrame, hclosed]

/-- What one round can do. -/
theorem round_cases (o : HeartbeatOptions) (s : Heartbeat) (now random : UInt64) :
    s.round o now random = s.again ∨
      s.round o now random = { s with link := s.link.failLink, beating := false, clock := now } ∨
      (∃ nonce, s.link.pendingPingNonce = 0 ∧ nonce ≠ 0 ∧
        s.round o now random = { s.sendPing now nonce with clock := now }.again) ∨
      s.round o now random = { s with clock := now }.again := by
  by_cases hdone : s.handshakeDone = true
  · cases hbeat : s.decideBeat o now random with
    | fail => simp [round, hdone, hbeat]
    | idle => simp [round, hdone, hbeat]
    | ping nonce =>
      refine .inr (.inr (.inl ⟨nonce, ?_, ?_, by simp [round, hdone, hbeat]⟩))
      · unfold decideBeat at hbeat
        split_ifs at hbeat with _ hidle
        all_goals exact hidle.1
      · unfold decideBeat at hbeat
        split_ifs at hbeat with _ _ hzero
        · cases hbeat
          decide
        · cases hbeat
          exact hzero
  · simp [round, hdone]

theorem Inv.round (h : Inv s) (hbeating : s.beating = true) (now random : UInt64) :
    Inv (s.round o now random) := by
  rcases round_cases o s now random with hr | hr | ⟨nonce, hpending, hnonce, hr⟩ | hr
  · rw [hr]
    exact h.keep rfl rfl rfl id fun _ => hbeating
  · rw [hr]
    exact h.keep (Link.use_pingFields s.link (c := .failLink) rfl).1 rfl rfl
      (fun _ => Link.failLink_closed _) fun _ => hbeating
  · rw [hr]
    exact h.sendPing hbeating hpending hnonce
  · rw [hr]
    exact h.keep rfl rfl rfl id fun _ => hbeating

@[simp] theorem answer_nonce (f : ShineFrame) (ping : SentPing) :
    (answer f ping).nonce = ping.nonce := by
  unfold answer
  split_ifs <;> rfl

theorem answer_of_answered (f : ShineFrame) {ping : SentPing} (h : ping.answered = true) :
    (answer f ping).answered = true := by
  unfold answer
  split_ifs
  · rfl
  · exact h

/-- A PONG clears the nonce if it is the one of the latest PING. -/
theorem Inv.pong (h : Inv s) (hopen : s.link.closed = false) (now n : UInt64) :
    Inv { s with
      link := s.link.dispatchFrame now (.pong n)
      pings := s.pings.map (answer (.pong n))
      clock := now } := by
  refine ⟨?_, ?_, fun _ => ?_⟩
  · intro ping hping
    obtain ⟨before, hmem, rfl⟩ := List.mem_map.mp hping
    rw [answer_nonce]
    exact h.nonzero before hmem
  · intro ping hping
    rw [← List.map_tail] at hping
    obtain ⟨before, hmem, rfl⟩ := List.mem_map.mp hping
    exact answer_of_answered _ (h.earlier before hmem)
  · rcases h.fields (.inl hopen) with ⟨hpending, hquiet⟩ | ⟨hpending, hhead⟩
    · refine .inl ⟨?_, fun ping hping => ?_⟩
      · simp only [Link.dispatchFrame]
        split_ifs
        · rfl
        · exact hpending
      · obtain ⟨before, hmem, rfl⟩ := List.mem_map.mp hping
        exact answer_of_answered _ (hquiet before hmem)
    · obtain ⟨rest, hpings⟩ := List.head?_eq_some_iff.mp hhead
      by_cases hn : s.link.pendingPingNonce = n
      · -- the answer: now all are answered
        refine .inl ⟨by simp [Link.dispatchFrame, hn], fun ping hping => ?_⟩
        simp only [hpings, List.map_cons] at hping
        rcases List.mem_cons.mp hping with rfl | hrest
        · simp [answer, hn]
        · obtain ⟨before, hmem, rfl⟩ := List.mem_map.mp hrest
          exact answer_of_answered _ (h.earlier before (by rwa [hpings]))
      · refine .inr ⟨?_, ?_⟩
        · simpa [Link.dispatchFrame, hn] using hpending
        · simp [Link.dispatchFrame, hn, hpings, answer, Ne.symm hn]

theorem Inv.frame (h : Inv s) (hopen : s.link.closed = false) (now : UInt64) (f : ShineFrame) :
    Inv { s with
      link := s.link.dispatchFrame now f
      pings := s.pings.map (answer f)
      clock := now } := by
  by_cases hf : ∃ n, f = .pong n
  · obtain ⟨n, rfl⟩ := hf
    exact h.pong hopen now n
  · have hanswer : s.pings.map (answer f) = s.pings := by
      refine List.map_id'' (fun ping => ?_) _
      rw [answer, if_neg fun hn => hf ⟨_, hn⟩]
    refine h.keep (Link.dispatchFrame_pingFields s.link now fun n hn => hf ⟨n, hn⟩) rfl hanswer
      (fun hclosed => ?_) id
    rw [hopen] at hclosed
    cases hclosed

/-- **Every step keeps the invariant.** -/
theorem Inv.step (h : Inv s) {e : Event} (hstep : s.step o e = some t) : Inv t := by
  cases e with
  | handshakeDone =>
    simp only [Heartbeat.step] at hstep
    split_ifs at hstep
    cases hstep
    exact h.keep rfl rfl rfl id id
  | tick now random =>
    simp only [Heartbeat.step] at hstep
    split_ifs at hstep with hbeating
    cases hstep
    exact h.round hbeating now random
  | abort =>
    cases hstep
    exact h.keep rfl rfl rfl id nofun
  | frame now f =>
    simp only [Heartbeat.step] at hstep
    split_ifs at hstep with hguard
    cases hstep
    exact h.frame (by simpa using hguard.2) now f
  | use c =>
    obtain ⟨l, hl, rfl⟩ := Option.map_eq_some_iff.mp hstep
    obtain ⟨hkeep, hclosed⟩ := Link.use_pingFields s.link hl
    exact h.keep hkeep rfl rfl hclosed id

end Inv

theorem inv_reach {ok : Heartbeat → Event → Prop} {o : HeartbeatOptions} {opts : LinkOptions}
    {onNewSession : Bool} {began : UInt64} {s : Heartbeat}
    (h : (system o).Reach ok (start opts onNewSession began) s) : Inv s :=
  h.invariant (.start ..) fun _ _ _ hinv _ hstep => hinv.step hstep

theorem Quiet.not_outstanding {s : Heartbeat} (h : s.Quiet) (n : UInt64) : ¬ s.Outstanding n := by
  rintro ⟨ping, hping, -, hanswered⟩
  rw [h.2 ping hping] at hanswered
  cases hanswered

theorem Waiting.outstanding {s : Heartbeat} (h : s.Waiting) :
    s.Outstanding s.link.pendingPingNonce :=
  ⟨_, List.mem_of_head? h.2, rfl, rfl⟩

/-- The frame counts only if it is a PONG that answers an outstanding PING; any other PONG
changes nothing. -/
def OnlyAnswersCount (s : Heartbeat) (f : ShineFrame) : Prop :=
  ∀ now, ((s.link.dispatchFrame now f).pingFields ≠ s.link.pingFields →
      ∃ n, f = .pong n ∧ s.Outstanding n) ∧
    ∀ n, f = .pong n → ¬ s.Outstanding n → s.link.dispatchFrame now f = s.link

/-- **Only a PONG with nonce zero counts without answering a PING**, and that whenever no PING
is outstanding: zero is what `pending_ping_nonce_` holds then. -/
theorem pong_counts_iff (o : HeartbeatOptions) (opts : LinkOptions) (onNewSession : Bool)
    (began : UInt64) (s : Heartbeat)
    (h : (system o).Reach Lts.Free (start opts onNewSession began) s)
    (hopen : s.link.closed = false) (f : ShineFrame) :
    s.OnlyAnswersCount f ↔ (f = .pong 0 → ∃ n, s.Outstanding n) := by
  have hfields := (inv_reach h).fields (.inl hopen)
  constructor
  · rintro honly rfl
    rcases hfields with hquiet | hwaiting
    · -- the time of the PONG is stored, whatever it is
      obtain ⟨n, -, hn⟩ := (honly (s.link.lastPongNs + 1)).1 (by
        simp [Link.dispatchFrame, hquiet.1, Link.pingFields])
      exact ⟨n, hn⟩
    · exact ⟨_, hwaiting.outstanding⟩
  · intro hzero now
    by_cases hf : ∃ n, f = .pong n
    · obtain ⟨n, rfl⟩ := hf
      by_cases hn : s.link.pendingPingNonce = n
      · have hout : s.Outstanding n := by
          rcases hfields with hquiet | hwaiting
          · obtain ⟨m, hm⟩ := hzero (by rw [← hn, hquiet.1])
            exact absurd hm (hquiet.not_outstanding m)
          · rw [← hn]
            exact hwaiting.outstanding
        refine ⟨fun _ => ⟨n, rfl, hout⟩, fun m hm hnot => ?_⟩
        cases hm
        exact absurd hout hnot
      · have hkeep : s.link.dispatchFrame now (.pong n) = s.link := by
          rw [Link.dispatchFrame, if_neg hn]
        exact ⟨fun hne => absurd (by rw [hkeep]) hne, fun _ _ _ => hkeep⟩
    · refine ⟨fun hne => ?_, fun n hn => absurd ⟨n, hn⟩ hf⟩
      exact absurd (Link.dispatchFrame_pingFields s.link now fun n hn => hf ⟨n, hn⟩) hne

/-- With a PING outstanding, every frame behaves. -/
theorem pong_counts_iff_waiting : ∃ s : Heartbeat,
    (system {}).Reach Lts.Free (start Link.sampleOpts true 0) s ∧ s.link.closed = false ∧
      s.Outstanding 7 ∧ ∀ f, s.OnlyAnswersCount f := by
  have hreach := @Lts.reach_of_exec _ _ (system {}) Lts.Free (start Link.sampleOpts true 0) _ _
    [.handshakeDone, .tick 16000000000 7] rfl
  refine ⟨_, hreach, rfl, ?_, fun f =>
    (pong_counts_iff {} Link.sampleOpts true 0 _ hreach rfl f).mpr fun _ => ⟨7, ?_⟩⟩
  all_goals exact ⟨⟨7, 16000000000, false⟩, List.mem_cons_self, rfl, rfl⟩

/-- Before the first PING, a PONG with nonce zero puts off the next one. -/
theorem pong_zero_counts : ∃ s : Heartbeat,
    (system {}).Reach Lts.Free (start Link.sampleOpts true 0) s ∧ s.link.closed = false ∧
      s.handshakeDone = true ∧ s.pings = [] ∧
      (s.link.dispatchFrame 9 (.pong 0)).lastPongNs = 9 ∧ s.link.lastPongNs = 0 ∧
      ¬ s.OnlyAnswersCount (.pong 0) := by
  refine ⟨_, Lts.reach_of_exec [.handshakeDone] rfl, rfl, rfl, rfl, rfl, rfl, fun honly => ?_⟩
  obtain ⟨n, -, ping, hping, -⟩ := (honly 9).1 (by decide)
  cases hping

/-! ## Overdue PINGs -/

/-- The times stored are not ahead of the clock. -/
structure Timely (s : Heartbeat) : Prop where
  pong : s.link.lastPongNs ≤ s.clock
  ping : s.lastPingSentNs ≤ s.clock

section Timely

variable {s t : Heartbeat} {o : HeartbeatOptions}

theorem Timely.keep (h : Timely s) (hlink : t.link.pingFields = s.link.pingFields)
    (hsent : t.lastPingSentNs = s.lastPingSentNs) (hclock : s.clock ≤ t.clock) : Timely t := by
  have hpong : t.link.lastPongNs = s.link.lastPongNs := congrArg Prod.snd hlink
  refine ⟨?_, ?_⟩
  · rw [hpong]
    exact UInt64.le_trans h.pong hclock
  · rw [hsent]
    exact UInt64.le_trans h.ping hclock

theorem Timely.step (h : Timely s) {e : Event} (hsteady : s.Steady e)
    (hstep : s.step o e = some t) : Timely t := by
  cases e with
  | handshakeDone =>
    simp only [Heartbeat.step] at hstep
    split_ifs at hstep
    cases hstep
    exact h.keep rfl rfl (UInt64.le_refl _)
  | tick now random =>
    simp only [Heartbeat.step] at hstep
    split_ifs at hstep
    cases hstep
    rcases round_cases o s now random with hr | hr | ⟨nonce, -, -, hr⟩ | hr
    · rw [hr]
      exact h.keep rfl rfl (UInt64.le_refl _)
    · rw [hr]
      exact h.keep (Link.use_pingFields s.link (c := .failLink) rfl).1 rfl hsteady
    · rw [hr]
      refine ⟨?_, UInt64.le_refl _⟩
      have hpong := congrArg Prod.snd
        (Link.enqueueFrame_pingFields { s.link with pendingPingNonce := nonce } (.ping nonce))
      exact UInt64.le_trans (UInt64.le_of_eq hpong) (UInt64.le_trans h.pong hsteady)
    · rw [hr]
      exact h.keep rfl rfl hsteady
  | abort =>
    cases hstep
    exact h.keep rfl rfl (UInt64.le_refl _)
  | frame now f =>
    simp only [Heartbeat.step] at hstep
    split_ifs at hstep
    cases hstep
    by_cases hf : ∃ n, f = .pong n
    · obtain ⟨n, rfl⟩ := hf
      refine ⟨?_, UInt64.le_trans h.ping hsteady⟩
      simp only [Link.dispatchFrame]
      split_ifs
      · exact UInt64.le_refl _
      · exact UInt64.le_trans h.pong hsteady
    · exact h.keep (Link.dispatchFrame_pingFields s.link now fun n hn => hf ⟨n, hn⟩) rfl hsteady
  | use c =>
    obtain ⟨l, hl, rfl⟩ := Option.map_eq_some_iff.mp hstep
    exact h.keep (Link.use_pingFields s.link hl).1 rfl (UInt64.le_refl _)

end Timely

/-- An interval that fits into nanoseconds, if it is not negative. -/
theorem toNat_toNs {d : Int64} (hnonneg : 0 ≤ d.toInt) (hd : d.toInt * 1000000000 < 2 ^ 64) :
    ((toNs d).toNat : Int) = d.toInt * 1000000000 := by
  have hcast : (d.toUInt64.toNat : Int) = d.toInt := by
    rw [Int64.toNat_toUInt64_of_le (Int64.le_iff_toInt_le.mpr hnonneg), Int64.toNatClampNeg]
    exact Int.toNat_of_nonneg hnonneg
  have hsmall : d.toUInt64.toNat * 1000000000 < 2 ^ 64 := by omega
  have hmul : (toNs d).toNat = d.toUInt64.toNat * 1000000000 :=
    (UInt64.toNat_mul ..).trans (Nat.mod_eq_of_lt hsmall)
  omega

/-- The comparison of the loop, over the integers. -/
theorem overdue_of_lt {d : Int64} (hd : d.toInt * 1000000000 < 2 ^ 64) {sent now : UInt64}
    (hsent : sent ≤ now) (hlate : toNs d < now - sent) :
    (sent.toNat : Int) + d.toInt * 1000000000 < now.toNat := by
  have hle : sent.toNat ≤ now.toNat := UInt64.le_iff_toNat_le.mp hsent
  by_cases hnonneg : 0 ≤ d.toInt
  · have hns := toNat_toNs hnonneg hd
    have hlt : (toNs d).toNat < now.toNat - sent.toNat := by
      rw [← UInt64.toNat_sub_of_le _ _ hsent]
      exact UInt64.lt_iff_toNat_lt.mp hlate
    omega
  · -- any PING is older than a negative time
    omega

/-- **The heartbeat fails a link only for an overdue PING.** In every run in which the clock
does not go back, at most one PING is unanswered; in every round the times subtracted from the
clock are not ahead of it; and a round that fails the link does so because the latest PING was
sent more than `pong_timeout` before and no PONG with its nonce has come since. -/
theorem heartbeat_fails_late (o : HeartbeatOptions) (ho : o.pongTimeout.toInt * 1000000000 < 2 ^ 64)
    (opts : LinkOptions) (onNewSession : Bool) (began : UInt64) (s : Heartbeat)
    (h : (system o).Reach Steady (start opts onNewSession began) s) :
    (s.pings.filter fun ping => !ping.answered).length ≤ 1 ∧
      ∀ now random, s.beating = true → s.clock ≤ now → s.link.lastPongNs ≤ now ∧
        (s.link.pendingPingNonce ≠ 0 → s.lastPingSentNs ≤ now) ∧
        (s.decideBeat o now random = .fail → ∃ ping rest, s.pings = ping :: rest ∧
          ping.answered = false ∧
          (ping.sentNs.toNat : Int) + o.pongTimeout.toInt * 1000000000 < now.toNat) := by
  have hinv := inv_reach h
  have htimely : Timely s :=
    h.invariant ⟨UInt64.le_refl _, UInt64.zero_le⟩ fun _ _ _ ht hsteady hstep =>
      ht.step hsteady hstep
  refine ⟨?_, fun now random hbeating hnow => ?_⟩
  · cases hpings : s.pings with
    | nil => simp
    | cons ping rest =>
      have hrest : rest.filter (fun ping => !ping.answered) = [] := by
        refine List.filter_eq_nil_iff.mpr fun earlier hmem => ?_
        simp [hinv.earlier earlier (by rwa [hpings])]
      rw [List.filter_cons, hrest]
      split_ifs <;> simp
  · have hsent : s.lastPingSentNs ≤ now := UInt64.le_trans htimely.ping hnow
    refine ⟨UInt64.le_trans htimely.pong hnow, fun _ => hsent, fun hfail => ?_⟩
    obtain ⟨hpending, hlate⟩ : s.link.pendingPingNonce ≠ 0 ∧
        toNs o.pongTimeout < now - s.lastPingSentNs := by
      unfold decideBeat at hfail
      split_ifs at hfail with hguard
      exact hguard
    have hwaiting : s.Waiting :=
      (hinv.fields (.inr hbeating)).resolve_left fun hquiet => hpending hquiet.1
    obtain ⟨rest, hpings⟩ := List.head?_eq_some_iff.mp hwaiting.2
    refine ⟨_, rest, hpings, rfl, ?_⟩
    exact overdue_of_lt ho hsent hlate

/-- A PING sent after 16 s and not answered fails the link after 27 s. -/
theorem heartbeat_fails_late_silent : ∃ s : Heartbeat,
    (system {}).Reach Steady (start Link.sampleOpts true 0) s ∧
      s.decideBeat {} 27000000000 0 = .fail ∧ ∃ ping rest, s.pings = ping :: rest ∧
        ping.answered = false ∧ (ping.sentNs.toNat : Int) + 10 * 1000000000 < 27000000000 := by
  have hreach := @Lts.reach_of_exec _ _ (system {}) Steady (start Link.sampleOpts true 0) _ _
    [.handshakeDone, .tick 16000000000 7] rfl
  have hround := (heartbeat_fails_late {} (by decide) Link.sampleOpts true 0 _ hreach).2
    27000000000 0 rfl (by decide)
  exact ⟨_, hreach, rfl, hround.2.2 rfl⟩

end Heartbeat

end Shine
