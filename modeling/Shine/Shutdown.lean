import Shine.Lib.Lts

/-!
# Shutting down (`main.cpp`, `core/signal.cpp`, `core/scheduler.cpp`)

SIGINT and SIGTERM are waited for twice: by a coroutine on the scheduler, which stops the
inbounds, gives the outbounds `graceful_timeout` to drain and stops them, and by a handler on
the main thread, which stops everything at once, the scheduler last. Every `signal_set` gets
the signal, so both run. What is left of the coroutine when the scheduler stops never runs.

The model has one step for each piece of the coroutine between two suspensions and one for
each call of the handler. Time passes by ticks; `Prompt` is the guard under which the main
thread does not sleep while it has something to do.

`shutdown_at_once` says what comes of the time to drain: the outbounds are stopped when the
signal comes, whatever the configuration says.
-/

namespace Shine

/-- What is stopped. -/
inductive Part where
  | inbounds
  | outbounds
  | exporter
  | scheduler
  deriving DecidableEq

/-- Where the coroutine stands that calls `waitForTermination`. -/
inductive GracefulPc where
  | waiting
  /-- It waits for its timer. -/
  | draining (expiry : Nat)
  | done
  deriving DecidableEq

/-- Where the main thread stands. -/
inductive HandlerPc where
  /-- It waits for the signal. -/
  | waiting
  /-- The handler is about to stop a part. -/
  | stop (part : Part)
  /-- It is in `sched.join`. -/
  | join
  /-- `main` has returned. -/
  | returned
  deriving DecidableEq

/-- What the handler does behind a call. -/
def Part.next : Part → HandlerPc
  | .inbounds => .stop .outbounds
  | .outbounds => .stop .exporter
  | .exporter => .stop .scheduler
  | .scheduler => .join

/-- A program that is being shut down. -/
structure Shutdown where
  now : Nat
  /-- When the signal came. -/
  signal : Option Nat
  graceful : GracefulPc
  handler : HandlerPc
  /-- When the parts were stopped first. -/
  stopped : Part → Option Nat

namespace Shutdown

/-- What can happen. -/
inductive Event where
  /-- Time passes. -/
  | tick
  /-- SIGINT or SIGTERM. -/
  | signal
  /-- The next piece of the coroutine. -/
  | graceful
  /-- The next call on the main thread. -/
  | handler
  deriving DecidableEq

/-- Stop a part. -/
def stop (s : Shutdown) (part : Part) : Shutdown :=
  { s with stopped := Function.update s.stopped part ((s.stopped part).or (some s.now)) }

/-- The coroutine, with the time that it gives to the outbounds. -/
def stepGraceful (timeout : Nat) (s : Shutdown) : Option Shutdown :=
  match s.graceful with
  | .waiting =>
    if s.signal.isSome then
      some { s.stop .inbounds with graceful := .draining (s.now + timeout) }
    else none
  | .draining expiry =>
    if expiry ≤ s.now then some { (s.stop .outbounds).stop .exporter with graceful := .done }
    else none
  | .done => none

/-- The main thread. -/
def stepHandler (s : Shutdown) : Option Shutdown :=
  match s.handler with
  | .waiting => if s.signal.isSome then some { s with handler := .stop .inbounds } else none
  | .stop part => some { s.stop part with handler := part.next }
  | .join => some { s with handler := .returned }
  | .returned => none

/-- One step. -/
def step (timeout : Nat) (s : Shutdown) : Event → Option Shutdown
  | .tick => some { s with now := s.now + 1 }
  | .signal => if s.signal.isSome then none else some { s with signal := some s.now }
  | .graceful => if (s.stopped .scheduler).isSome then none else s.stepGraceful timeout
  | .handler => s.stepHandler

/-- All runs. -/
def system (timeout : Nat) : Lts Shutdown Event := ⟨step timeout⟩

/-- The program runs. -/
def start : Shutdown := ⟨0, none, .waiting, .waiting, fun _ => none⟩

/-- The main thread has nothing to do. -/
def Idle (s : Shutdown) : Prop := s.signal = none ∨ s.handler = .returned

instance (s : Shutdown) : Decidable s.Idle := inferInstanceAs (Decidable (_ ∨ _))

/-- Time passes only while the main thread has nothing to do. -/
def Prompt (s : Shutdown) (e : Event) : Prop := e = .tick → s.Idle

instance : DecidableRel Prompt := fun _ _ => inferInstanceAs (Decidable (_ → _))

/-- What a step can do. -/
inductive Moves (timeout : Nat) (s : Shutdown) : Event → Shutdown → Prop where
  | tick : Moves timeout s .tick { s with now := s.now + 1 }
  | signal (hsignal : s.signal = none) : Moves timeout s .signal { s with signal := some s.now }
  | drain (hrunning : s.stopped .scheduler = none) (hsignal : s.signal ≠ none) :
    Moves timeout s .graceful { s.stop .inbounds with graceful := .draining (s.now + timeout) }
  | drained (hrunning : s.stopped .scheduler = none)
    (hbegun : ∃ expiry, s.graceful = .draining expiry) :
    Moves timeout s .graceful { (s.stop .outbounds).stop .exporter with graceful := .done }
  | handle (hsignal : s.signal ≠ none) (hpc : s.handler = .waiting) :
    Moves timeout s .handler { s with handler := .stop .inbounds }
  | call {part : Part} (hpc : s.handler = .stop part) :
    Moves timeout s .handler { s.stop part with handler := part.next }
  | join (hpc : s.handler = .join) : Moves timeout s .handler { s with handler := .returned }

theorem moves_of_step {timeout : Nat} {s t : Shutdown} {e : Event}
    (h : s.step timeout e = some t) : Moves timeout s e t := by
  cases e with
  | tick =>
    cases h
    exact .tick
  | signal =>
    simp only [step] at h
    split_ifs at h with hsignal
    cases h
    exact .signal (by simpa using hsignal)
  | graceful =>
    rw [step] at h
    by_cases hstopped : (s.stopped .scheduler).isSome = true
    · rw [if_pos hstopped] at h
      cases h
    rw [if_neg hstopped, stepGraceful] at h
    split at h
    · split_ifs at h with hsignal
      cases h
      exact .drain (by simpa using hstopped) (Option.isSome_iff_ne_none.mp hsignal)
    · next expiry hpc =>
      split_ifs at h
      cases h
      exact .drained (by simpa using hstopped) ⟨expiry, hpc⟩
    · cases h
  | handler =>
    rw [step, stepHandler] at h
    split at h
    · next hpc =>
      split_ifs at h with hsignal
      cases h
      exact .handle (Option.isSome_iff_ne_none.mp hsignal) hpc
    · next part hpc =>
      cases h
      exact .call hpc
    · next hpc =>
      cases h
      exact .join hpc
    · cases h

/-! ## What has been stopped -/

/-- The handler is past the call that stops the part. -/
def Past : HandlerPc → Part → Prop
  | .waiting, _ => False
  | .stop .inbounds, _ => False
  | .stop .outbounds, part => part = .inbounds
  | .stop .exporter, part => part = .inbounds ∨ part = .outbounds
  | .stop .scheduler, part => part ≠ .scheduler
  | .join, _ | .returned, _ => True

theorem past_next {part other : Part} (h : Past part.next other) :
    other = part ∨ Past (.stop part) other := by
  cases part with
  | inbounds => exact .inl h
  | outbounds => exact h.symm
  | exporter =>
    cases other with
    | inbounds => exact .inr (.inl rfl)
    | outbounds => exact .inr (.inr rfl)
    | exporter => exact .inl rfl
    | scheduler => exact absurd rfl h
  | scheduler =>
    by_cases hsched : other = .scheduler
    · exact .inl hsched
    · exact .inr hsched

section Stop

variable {s : Shutdown} {part other : Part}

theorem stopped_stop (s : Shutdown) (part other : Part) : (s.stop part).stopped other =
    if other = part then (s.stopped part).or (some s.now) else s.stopped other :=
  Function.update_apply ..

theorem stopped_stop_self (s : Shutdown) (part : Part) : (s.stop part).stopped part ≠ none := by
  rw [stopped_stop, if_pos rfl]
  cases s.stopped part <;> exact nofun

theorem stopped_stop_ne_none (h : s.stopped other ≠ none) :
    (s.stop part).stopped other ≠ none := by
  by_cases heq : other = part
  · exact heq ▸ stopped_stop_self s part
  · rwa [stopped_stop, if_neg heq]

/-- What is found stopped after a call was stopped before it, or by it. -/
theorem of_stopped_stop {time : Nat} (h : (s.stop part).stopped other = some time) :
    s.stopped other = some time ∨ time = s.now := by
  rw [stopped_stop] at h
  split_ifs at h with heq
  · cases hbefore : s.stopped part with
    | none =>
      rw [hbefore] at h
      exact .inr (Option.some.inj h).symm
    | some t =>
      rw [hbefore] at h
      exact .inl (heq ▸ hbefore.trans h)
  · exact .inl h

end Stop

/-- What the handler is past is stopped. -/
def Ordered (s : Shutdown) : Prop := ∀ part, Past s.handler part → s.stopped part ≠ none

/-- What is stopped was stopped when the signal came. -/
def AtSignal (s : Shutdown) : Prop := ∀ part time, s.stopped part = some time → s.signal = some time

/-- What holds if the main thread is prompt. -/
structure AtOnce (s : Shutdown) : Prop where
  ordered : s.Ordered
  /-- No time has passed since the signal while the handler is at work. -/
  fresh : ∀ time, s.signal = some time → s.handler ≠ .returned → s.now = time
  quiet : s.signal = none → s.graceful = .waiting ∧ s.handler = .waiting
  atSignal : s.AtSignal

section Invariants

variable {timeout : Nat} {s t : Shutdown} {e : Event}

theorem Ordered.step (h : s.Ordered) (hstep : s.step timeout e = some t) : t.Ordered := by
  cases moves_of_step hstep with
  | tick => exact h
  | signal => exact h
  | drain => exact fun part hpast => stopped_stop_ne_none (h part hpast)
  | drained => exact fun part hpast => stopped_stop_ne_none (stopped_stop_ne_none (h part hpast))
  | handle => exact fun part hpast => hpast.elim
  | @call part hpc =>
    intro other hpast
    rcases past_next hpast with rfl | hbefore
    · exact stopped_stop_self s other
    · exact stopped_stop_ne_none (h other (hpc ▸ hbefore))
  | join hpc => exact fun part _ => h part (by rw [hpc]; trivial)

theorem AtSignal.stop (h : s.AtSignal) (hnow : s.signal = some s.now) (part : Part) :
    (s.stop part).AtSignal := by
  intro other time htime
  rcases of_stopped_stop htime with hbefore | rfl
  · exact h other time hbefore
  · exact hnow

/-- While the handler is at work, the time is that of the signal. -/
theorem AtOnce.signal_eq_now (h : AtOnce s) (hpc : s.handler ≠ .returned)
    (hsignal : s.signal ≠ none) : s.signal = some s.now := by
  obtain ⟨time, htime⟩ := Option.ne_none_iff_exists'.mp hsignal
  rw [htime, h.fresh time htime hpc]

theorem AtOnce.signal_ne_none (h : AtOnce s)
    (hbegun : s.graceful ≠ .waiting ∨ s.handler ≠ .waiting) : s.signal ≠ none := fun hnone =>
  hbegun.elim (· (h.quiet hnone).1) (· (h.quiet hnone).2)

theorem AtOnce.not_returned (h : AtOnce s) (hrunning : s.stopped .scheduler = none) :
    s.handler ≠ .returned := fun hpc =>
  h.ordered .scheduler (by rw [hpc]; trivial) hrunning

theorem AtOnce.step (h : AtOnce s) (hprompt : Prompt s e) (hstep : s.step timeout e = some t) :
    AtOnce t := by
  have hordered := h.ordered.step hstep
  cases moves_of_step hstep with
  | tick =>
    refine ⟨hordered, fun time htime hpc => ?_, h.quiet, h.atSignal⟩
    rcases hprompt rfl with hnone | hreturned
    · rw [hnone] at htime
      cases htime
    · exact absurd hreturned hpc
  | signal hsignal =>
    refine ⟨hordered, fun time htime _ => Option.some.inj htime, nofun, fun part time htime => ?_⟩
    -- nothing is stopped before the signal
    rw [h.atSignal part time htime] at hsignal
    cases hsignal
  | drain hrunning hsignal =>
    have hnow := h.signal_eq_now (h.not_returned hrunning) hsignal
    exact ⟨hordered, h.fresh, fun hnone => absurd hnone hsignal, h.atSignal.stop hnow _⟩
  | drained hrunning hbegun =>
    obtain ⟨expiry, hpc⟩ := hbegun
    have hsignal := h.signal_ne_none (.inl (by rw [hpc]; exact nofun))
    have hnow := h.signal_eq_now (h.not_returned hrunning) hsignal
    exact ⟨hordered, h.fresh, fun hnone => absurd hnone hsignal,
      (h.atSignal.stop hnow .outbounds).stop hnow .exporter⟩
  | handle hsignal hpc =>
    exact ⟨hordered, fun time htime _ => h.fresh time htime (by rw [hpc]; exact nofun),
      fun hnone => absurd hnone hsignal, h.atSignal⟩
  | call hpc =>
    have hreturned : s.handler ≠ .returned := by
      rw [hpc]
      exact nofun
    have hsignal := h.signal_ne_none (.inr (by rw [hpc]; exact nofun))
    have hnow := h.signal_eq_now hreturned hsignal
    exact ⟨hordered, fun time htime _ => h.fresh time htime hreturned,
      fun hnone => absurd hnone hsignal, h.atSignal.stop hnow _⟩
  | join hpc =>
    have hsignal := h.signal_ne_none (.inr (by rw [hpc]; exact nofun))
    exact ⟨hordered, fun _ _ hne => absurd rfl hne, fun hnone => absurd hnone hsignal, h.atSignal⟩

end Invariants

section Runs

variable {timeout : Nat} {s : Shutdown}

theorem ordered_start : start.Ordered := fun _ hpast => False.elim hpast

theorem ordered_of_reach (h : (system timeout).Reach Lts.Free start s) : s.Ordered :=
  h.invariant ordered_start fun _ _ _ hord _ hstep => hord.step hstep

theorem atOnce_start : AtOnce start where
  ordered := ordered_start
  fresh _ htime := nomatch htime
  quiet _ := ⟨rfl, rfl⟩
  atSignal _ _ htime := nomatch htime

theorem atOnce_of_reach (h : (system timeout).Reach Prompt start s) : AtOnce s :=
  h.invariant atOnce_start fun _ _ _ hinv hprompt hstep => hinv.step hprompt hstep

end Runs

/-- The outbounds have had their time to drain when they are stopped. -/
def Drains (timeout : Nat) (s : Shutdown) : Prop :=
  ∀ signal time, s.signal = some signal → s.stopped .outbounds = some time →
    signal + timeout ≤ time

/-- **There is no time to drain.** `main` returns only when all is stopped, in whatever order
the two waiters run. But if the main thread is prompt, all is stopped when the signal comes, so
that the configured time to drain is kept only if it is zero. -/
theorem shutdown_at_once (timeout : Nat) :
    (∀ s, (system timeout).Reach Lts.Free start s → s.handler = .returned →
      ∀ part, s.stopped part ≠ none) ∧
    (∀ s, (system timeout).Reach Prompt start s → s.AtSignal) ∧
    ((∀ s, (system timeout).Reach Prompt start s → s.Drains timeout) ↔ timeout = 0) := by
  refine ⟨fun s hs hpc part => ordered_of_reach hs part (by rw [hpc]; trivial),
    fun s hs => (atOnce_of_reach hs).atSignal, ⟨fun h => ?_, fun hzero s hs => ?_⟩⟩
  · -- the handler runs before the timer of the coroutine
    have hs : (system timeout).Reach Prompt start _ :=
      Lts.reach_of_exec [.signal, .graceful, .handler, .handler, .handler] rfl
    exact Nat.le_zero.mp ((Nat.zero_add _).symm.le.trans (h _ hs 0 0 rfl rfl))
  · intro signal time hsignal htime
    have heq := (atOnce_of_reach hs).atSignal .outbounds time htime
    rw [hsignal] at heq
    rw [hzero, Option.some.inj heq, Nat.add_zero]

end Shutdown

end Shine
