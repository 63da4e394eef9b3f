import Shine.Transport.Heartbeat

/-!
# How long a silent peer is kept (`Link::heartbeatLoop`)

The loop looks at the clock once a second, sends a PING when the last PONG is older than
`ping_interval`, and fails the link when a PING has been outstanding for longer than
`pong_timeout`. A run here has a clock, and in it a round of the loop comes at most `T`
nanoseconds after the one before. This is an assumption and not a property of the code: between
two rounds the loop may also be suspended in `enqueueFrame` with its PING, where `write_chan_` is
full, and no timer is armed then.

`last_pong_ns_` is set by a PONG that counts, and first of all by `Link::start`.

- `silence_bounded`: an open link whose handshake is done was started or has had a PONG that
  counts at most `ping_interval + pong_timeout + 2 * T` ago, or has completed its handshake at
  most `pong_timeout + 2 * T` ago.
-/

namespace Shine

/-- A link with its heartbeat, under a clock. -/
structure Watched where
  beat : Heartbeat
  now : UInt64
  /-- When the loop last went round, or was started. -/
  lastTick : UInt64
  /-- When `handshake_done_` was set. -/
  ready : UInt64

namespace Watched

/-- The time that an event reads from the clock. -/
def readClock : Heartbeat.Event → Option UInt64
  | .tick now _ | .frame now _ => some now
  | .handshakeDone | .abort | .use _ => none

def isTick : Heartbeat.Event → Bool
  | .tick .. => true
  | _ => false

/-- An event at a time. -/
def step (o : HeartbeatOptions) (s : Watched) (e : UInt64 × Heartbeat.Event) : Option Watched :=
  (s.beat.step o e.2).map fun b =>
    { beat := b
      now := e.1
      lastTick := if isTick e.2 then e.1 else s.lastTick
      ready := if s.beat.handshakeDone then s.ready else e.1 }

/-- All runs. -/
def system (o : HeartbeatOptions) : Lts Watched (UInt64 × Heartbeat.Event) := ⟨step o⟩

/-- `Link::start`. -/
def start (opts : LinkOptions) (onNewSession : Bool) (began : UInt64) : Watched :=
  ⟨.start opts onNewSession began, began, began, began⟩

/-- The clock does not go back, and while the loop runs its timer is never late by more than
what `T` allows; the wait for the timer does not fail. -/
structure Regular (T : Nat) (s : Watched) (e : UInt64 × Heartbeat.Event) : Prop where
  steady : s.now ≤ e.1
  read : ∀ now, readClock e.2 = some now → now = e.1
  prompt : s.beat.beating = true → e.1.toNat ≤ s.lastTick.toNat + T
  runs : e.2 ≠ .abort

theorem Regular.tick {T : Nat} {s : Watched} (now random : UInt64) (hnow : s.now ≤ now)
    (hprompt : now.toNat ≤ s.lastTick.toNat + T) : Regular T s (now, .tick now random) where
  steady := hnow
  read _ h := (Option.some.inj h).symm
  prompt _ := hprompt
  runs := nofun

/-- Up to when the loop may not have sent a PING. -/
def horizon (o : HeartbeatOptions) (s : Watched) : Nat :=
  max (s.beat.link.lastPongNs.toNat + (toNs o.pingInterval).toNat) s.ready.toNat

/-- What holds in every state. -/
structure Inv (o : HeartbeatOptions) (T : Nat) (s : Watched) : Prop where
  tick : s.lastTick.toNat ≤ s.now.toNat
  pong : s.beat.link.lastPongNs.toNat ≤ s.now.toNat
  sent : s.beat.lastPingSentNs.toNat ≤ s.now.toNat
  live : s.beat.link.closed = false → s.beat.beating = true
  prompt : s.beat.beating = true → s.now.toNat ≤ s.lastTick.toNat + T
  early : s.beat.handshakeDone = false → s.beat.link.pendingPingNonce = 0
  quiet : s.beat.beating = true → s.beat.handshakeDone = true →
    s.beat.link.pendingPingNonce = 0 → s.lastTick.toNat ≤ s.horizon o
  waiting : s.beat.beating = true → s.beat.handshakeDone = true →
    s.beat.link.pendingPingNonce ≠ 0 →
      s.beat.lastPingSentNs.toNat ≤ s.horizon o + T ∧
      s.lastTick.toNat ≤ s.beat.lastPingSentNs.toNat + (toNs o.pongTimeout).toNat

section Inv

variable {o : HeartbeatOptions} {T : Nat} {s : Watched}

theorem Inv.start (opts : LinkOptions) (onNewSession : Bool) (began : UInt64) :
    Inv o T (start opts onNewSession began) where
  tick := Nat.le_refl _
  pong := Nat.le_refl _
  sent := Nat.zero_le _
  live _ := rfl
  prompt _ := Nat.le_add_right ..
  early _ := rfl
  quiet _ := nofun
  waiting _ := nofun

/-- Time passes, and nothing happens to what the loop looks at. -/
theorem Inv.pass (h : Inv o T s) {b : Heartbeat} {now ready : UInt64} (hnow : s.now ≤ now)
    (hprompt : s.beat.beating = true → now.toNat ≤ s.lastTick.toNat + T)
    (hlink : b.link.pingFields = s.beat.link.pingFields)
    (hsent : b.lastPingSentNs = s.beat.lastPingSentNs)
    (hclosed : s.beat.link.closed = true → b.link.closed = true)
    (hbeating : b.beating = s.beat.beating) (hdone : b.handshakeDone = s.beat.handshakeDone)
    (hready : s.beat.handshakeDone = true → ready = s.ready) :
    Inv o T ⟨b, now, s.lastTick, ready⟩ := by
  have hpending : b.link.pendingPingNonce = s.beat.link.pendingPingNonce :=
    congrArg Prod.fst hlink
  have hpong : b.link.lastPongNs = s.beat.link.lastPongNs := congrArg Prod.snd hlink
  have hle : s.now.toNat ≤ now.toNat := UInt64.le_iff_toNat_le.mp hnow
  refine ⟨h.tick.trans hle, ?_, ?_, fun hopen => ?_, ?_, ?_, ?_, ?_⟩
  · rw [hpong]
    exact h.pong.trans hle
  · rw [hsent]
    exact h.sent.trans hle
  · rw [hbeating]
    refine h.live ?_
    by_contra hs
    rw [hclosed (Bool.not_eq_false _ ▸ hs)] at hopen
    cases hopen
  · rw [hbeating]
    exact hprompt
  · rw [hdone, hpending]
    exact h.early
  · rw [hbeating, hdone, hpending, horizon, hpong]
    intro hb hd
    rw [hready hd]
    exact h.quiet hb hd
  · rw [hbeating, hdone, hpending, horizon, hpong, hsent]
    intro hb hd
    rw [hready hd]
    exact h.waiting hb hd

/-- A difference of two times that the loop finds small. -/
theorem toNat_le_of_not_gt {now before d : UInt64} (hle : before.toNat ≤ now.toNat)
    (h : ¬ now - before > d) : now.toNat ≤ before.toNat + d.toNat := by
  have hsub : (now - before).toNat = now.toNat - before.toNat :=
    UInt64.toNat_sub_of_le _ _ (UInt64.le_iff_toNat_le.mpr hle)
  have hd : (now - before).toNat ≤ d.toNat := UInt64.le_iff_toNat_le.mp (UInt64.not_lt.mp h)
  omega

/-- The loop goes on where the link is open. -/
theorem again_beating {b : Heartbeat} (hbeating : b.beating = true)
    (hopen : b.again.link.closed = false) : b.again.beating = true :=
  Bool.and_eq_true_iff.mpr ⟨hbeating, (Bool.not_eq_true' _).mpr hopen⟩

/-- What a round finds if it does nothing: the last PONG, or the PING that is outstanding, is not
old. -/
theorem idle_of_decideBeat {b : Heartbeat} {now random : UInt64}
    (hidle : b.decideBeat o now random = .idle) :
    (b.link.pendingPingNonce = 0 → ¬ now - b.link.lastPongNs > toNs o.pingInterval) ∧
    (b.link.pendingPingNonce ≠ 0 → ¬ now - b.lastPingSentNs > toNs o.pongTimeout) := by
  unfold Heartbeat.decideBeat at hidle
  split_ifs at hidle with hfail hping
  exact ⟨fun hz hold => hping ⟨hz, hold⟩, fun hz hold => hfail ⟨hz, hold⟩⟩

/-- A round in which the loop does nothing. -/
theorem Inv.idle (h : Inv o T s) {now random : UInt64} (hnow : s.now ≤ now)
    (hidle : s.beat.decideBeat o now random = .idle) :
    Inv o T ⟨{ s.beat with clock := now }.again, now, now, s.ready⟩ := by
  have hle : s.now.toNat ≤ now.toNat := UInt64.le_iff_toNat_le.mp hnow
  have hpong := h.pong.trans hle
  have hsent := h.sent.trans hle
  obtain ⟨hquiet, hwaiting⟩ := idle_of_decideBeat hidle
  have hbeats : ({ s.beat with clock := now } : Heartbeat).again.beating = true →
      s.beat.beating = true := fun hb => (Bool.and_eq_true_iff.mp hb).1
  refine ⟨Nat.le_refl _, hpong, hsent, fun hopen => ?_, fun _ => Nat.le_add_right .., h.early,
    fun _ _ hz => ?_, fun hb hd hz => ⟨(h.waiting (hbeats hb) hd hz).1, ?_⟩⟩
  · exact again_beating (h.live hopen) hopen
  · exact (toNat_le_of_not_gt hpong (hquiet hz)).trans (Nat.le_max_left ..)
  · exact toNat_le_of_not_gt hsent (hwaiting hz)

/-- A round in which the loop sends a PING: the round before had found the last PONG recent, and
was at most `T` ago. -/
theorem Inv.ping (h : Inv o T s) {now nonce : UInt64} (hnow : s.now ≤ now)
    (hbeating : s.beat.beating = true) (hdone : s.beat.handshakeDone = true)
    (hprompt : now.toNat ≤ s.lastTick.toNat + T)
    (hpending : s.beat.link.pendingPingNonce = 0) (hnonce : nonce ≠ 0) :
    Inv o T ⟨{ s.beat.sendPing now nonce with clock := now }.again, now, now, s.ready⟩ := by
  have hle : s.now.toNat ≤ now.toNat := UInt64.le_iff_toNat_le.mp hnow
  have hfields := Link.enqueueFrame_pingFields
    { s.beat.link with pendingPingNonce := nonce } (.ping nonce)
  have hz : ({ s.beat.sendPing now nonce with clock := now } : Heartbeat).again.link.pendingPingNonce
      = nonce := congrArg Prod.fst hfields
  have hp : ({ s.beat.sendPing now nonce with clock := now } : Heartbeat).again.link.lastPongNs
      = s.beat.link.lastPongNs := congrArg Prod.snd hfields
  refine ⟨Nat.le_refl _, ?_, Nat.le_refl _, fun hopen => ?_, fun _ => Nat.le_add_right .., ?_,
    fun _ _ hzero => absurd (hz.symm.trans hzero) hnonce, fun _ _ _ => ⟨?_, Nat.le_add_right ..⟩⟩
  · rw [hp]
    exact h.pong.trans hle
  · exact again_beating hbeating hopen
  · intro hd
    have hd' : s.beat.handshakeDone = false := hd
    rw [hdone] at hd'
    cases hd'
  · have hhorizon := h.quiet hbeating hdone hpending
    simp only [horizon, hp]
    exact hprompt.trans (Nat.add_le_add_right hhorizon T)

/-- **One round of the loop.** -/
theorem Inv.round (h : Inv o T s) {now random : UInt64} (hnow : s.now ≤ now)
    (hbeating : s.beat.beating = true) (hprompt : now.toNat ≤ s.lastTick.toNat + T) :
    Inv o T ⟨s.beat.round o now random, now, now,
      if s.beat.handshakeDone then s.ready else now⟩ := by
  have hle : s.now.toNat ≤ now.toNat := UInt64.le_iff_toNat_le.mp hnow
  cases hdone : s.beat.handshakeDone with
  | false =>
    have hround : s.beat.round o now random = s.beat.again := by simp [Heartbeat.round, hdone]
    rw [hround]
    refine ⟨Nat.le_refl _, h.pong.trans hle, h.sent.trans hle, fun hopen => ?_,
      fun _ => Nat.le_add_right .., h.early, fun _ hd => ?_, fun _ hd => ?_⟩
    · exact again_beating hbeating hopen
    · exact absurd (hdone.symm.trans hd) Bool.false_ne_true
    · exact absurd (hdone.symm.trans hd) Bool.false_ne_true
  | true =>
    cases hbeat : s.beat.decideBeat o now random with
    | fail =>
      have hround : s.beat.round o now random =
          { s.beat with link := s.beat.link.failLink, beating := false, clock := now } := by
        simp [Heartbeat.round, hdone, hbeat]
      rw [hround]
      have hfields := (Link.use_pingFields s.beat.link (c := .failLink) rfl).1
      have hp : s.beat.link.failLink.lastPongNs = s.beat.link.lastPongNs :=
        congrArg Prod.snd hfields
      have hstops {P : Prop} (hbeats : false = true) : P := absurd hbeats Bool.false_ne_true
      refine ⟨Nat.le_refl _, ?_, h.sent.trans hle, fun hopen => ?_, hstops, fun hd => ?_, hstops,
        hstops⟩
      · exact hp ▸ h.pong.trans hle
      · exact absurd (hopen.symm.trans (Link.failLink_closed _)) Bool.false_ne_true
      · exact absurd (hdone.symm.trans hd).symm Bool.false_ne_true
    | idle =>
      have hround : s.beat.round o now random = { s.beat with clock := now }.again := by
        simp [Heartbeat.round, hdone, hbeat]
      rw [hround]
      exact h.idle hnow hbeat
    | ping nonce =>
      have hround : s.beat.round o now random
          = { s.beat.sendPing now nonce with clock := now }.again := by
        simp [Heartbeat.round, hdone, hbeat]
      rw [hround]
      have hfacts : s.beat.link.pendingPingNonce = 0 ∧ nonce ≠ 0 := by
        unfold Heartbeat.decideBeat at hbeat
        split_ifs at hbeat with _ hidle hzero <;> cases hbeat
        · exact ⟨hidle.1, by decide⟩
        · exact ⟨hidle.1, hzero⟩
      exact h.ping hnow hbeating hdone hprompt hfacts.1 hfacts.2

/-- A frame: only a PONG with the nonce that is outstanding is of any account. -/
theorem Inv.frame (h : Inv o T s) {now : UInt64} {f : ShineFrame} (hnow : s.now ≤ now)
    (hprompt : s.beat.beating = true → now.toNat ≤ s.lastTick.toNat + T) :
    Inv o T
      ⟨{ s.beat with
          link := s.beat.link.dispatchFrame now f
          pings := s.beat.pings.map (Heartbeat.answer f)
          clock := now }, now, s.lastTick, s.ready⟩ := by
  have hle : s.now.toNat ≤ now.toNat := UInt64.le_iff_toNat_le.mp hnow
  have hclosed := (s.beat.link.dispatchFrame_kept f now).2.2
  by_cases hf : (s.beat.link.dispatchFrame now f).pingFields = s.beat.link.pingFields
  · exact h.pass hnow hprompt hf rfl (fun hc => hclosed.trans hc) rfl rfl fun _ => rfl
  · obtain ⟨n, rfl, hn⟩ : ∃ n, f = .pong n ∧ s.beat.link.pendingPingNonce = n := by
      by_contra hnot
      refine hf ?_
      by_cases hpong : ∃ n, f = .pong n
      · obtain ⟨n, rfl⟩ := hpong
        rw [Link.dispatchFrame, if_neg fun hn => hnot ⟨n, rfl, hn⟩]
      · exact Link.dispatchFrame_pingFields _ _ fun n hn => hpong ⟨n, hn⟩
    have hdisp : s.beat.link.dispatchFrame now (.pong n)
        = { s.beat.link with lastPongNs := now, pendingPingNonce := 0 } := by
      rw [Link.dispatchFrame, if_pos hn]
    rw [hdisp]
    refine ⟨h.tick.trans hle, Nat.le_refl _, h.sent.trans hle, h.live, hprompt, fun _ => rfl,
      fun _ _ _ => ?_, fun _ _ hz => absurd rfl hz⟩
    exact ((h.tick.trans hle).trans (Nat.le_add_right ..)).trans (Nat.le_max_left ..)

/-- **Every step keeps the invariant.** -/
theorem Inv.step {e : UInt64 × Heartbeat.Event} {t : Watched} (h : Inv o T s)
    (hreg : Regular T s e) (hstep : s.step o e = some t) : Inv o T t := by
  obtain ⟨now, e⟩ := e
  obtain ⟨b, hb, rfl⟩ := Option.map_eq_some_iff.mp hstep
  cases e with
  | handshakeDone =>
    simp only [Heartbeat.step] at hb
    split_ifs at hb with hclosed
    cases hb
    have hle : s.now.toNat ≤ now.toNat := UInt64.le_iff_toNat_le.mp hreg.steady
    cases hdone : s.beat.handshakeDone with
    | true =>
      refine h.pass hreg.steady hreg.prompt rfl rfl id rfl hdone.symm fun _ => ?_
      exact if_pos rfl
    | false =>
      -- from here on the loop counts
      refine ⟨h.tick.trans hle, h.pong.trans hle, h.sent.trans hle, h.live, hreg.prompt,
        fun hd => absurd hd.symm Bool.false_ne_true, fun _ _ _ => ?_, fun _ _ hz => absurd (h.early hdone) hz⟩
      exact (h.tick.trans hle).trans (Nat.le_max_right ..)
  | tick t random =>
    obtain rfl := hreg.read t rfl
    simp only [Heartbeat.step] at hb
    split_ifs at hb with hbeating
    cases hb
    exact h.round hreg.steady hbeating (hreg.prompt hbeating)
  | abort => exact absurd rfl hreg.runs
  | frame t f =>
    obtain rfl := hreg.read t rfl
    simp only [Heartbeat.step] at hb
    split_ifs at hb with hguard
    cases hb
    rw [if_pos hguard.1]
    exact h.frame hreg.steady hreg.prompt
  | use c =>
    obtain ⟨l, hl, rfl⟩ := Option.map_eq_some_iff.mp hb
    obtain ⟨hkeep, hclosed⟩ := Link.use_pingFields s.beat.link hl
    exact h.pass hreg.steady hreg.prompt hkeep rfl hclosed rfl rfl fun hd => if_pos hd

end Inv

/-- **A silent peer is not kept.** In every run in which a round of the loop comes within `T`
nanoseconds of the one before, a link that is open and has completed its handshake was started,
has had a PONG that counts or has completed its handshake recently: the loop lets `ping_interval`
pass since the start or the last PONG, stamps a PING in its next round, and fails the link in the
first round after `pong_timeout`. -/
theorem silence_bounded {o : HeartbeatOptions} {T : Nat} {opts : LinkOptions}
    {onNewSession : Bool} {began : UInt64} {s : Watched}
    (h : (system o).Reach (Regular T) (start opts onNewSession began) s)
    (hopen : s.beat.link.closed = false) (hdone : s.beat.handshakeDone = true) :
    s.now.toNat ≤ max (s.beat.link.lastPongNs.toNat + (toNs o.pingInterval).toNat) s.ready.toNat
      + (toNs o.pongTimeout).toNat + 2 * T := by
  have hinv : Inv o T s := h.invariant (.start ..) fun _ _ _ hi hreg hstep => hi.step hreg hstep
  have hbeating := hinv.live hopen
  have hprompt := hinv.prompt hbeating
  have htick : s.lastTick.toNat ≤ s.horizon o + (toNs o.pongTimeout).toNat + T := by
    by_cases hz : s.beat.link.pendingPingNonce = 0
    · have := hinv.quiet hbeating hdone hz
      omega
    · obtain ⟨hsent, hlast⟩ := hinv.waiting hbeating hdone hz
      omega
  change _ ≤ s.horizon o + _ + _
  omega

/-- The loop has sent a PING, which has been outstanding for ten seconds. -/
theorem silence_bounded_outstanding : ∃ s : Watched,
    (system {}).Reach (Regular 20000000000) (start Link.sampleOpts true 0) s ∧
      s.beat.link.closed = false ∧ s.beat.link.pendingPingNonce = 7 ∧
      s.now.toNat = 26000000000 ∧ s.now.toNat ≤ 15000000000 + 10000000000 + 2 * 20000000000 := by
  have h0 : (system {}).Reach (Regular 20000000000) (start Link.sampleOpts true 0) _ := .refl
  have h1 := h0.tail (e := (0, .handshakeDone)) ⟨by decide, nofun, fun _ => by decide, nofun⟩ rfl
  have h2 := h1.tail (.tick 16000000000 7 (by decide) (by decide)) rfl
  have h3 := h2.tail (.tick 26000000000 9 (by decide) (by decide)) rfl
  exact ⟨_, h3, rfl, rfl, rfl, silence_bounded h3 rfl rfl⟩

end Watched

end Shine
