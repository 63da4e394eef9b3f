import Shine.Lib.Lts
import Shine.Transport.Session

/-!
# `Session::write` access by access (`transport/session.cpp`)

One call of `write` on a TCP session, with everything that runs beside it: any number of
`onWindow` calls, the methods that change the state of the session or close its channels,
and the end of the link. Every access of `write` and `onWindow` to `send_credit_` and
`credit_signal_` is a step of its own.

- A writer that sleeps while there is credit is about to be woken (`wakeup_not_lost`).
- A writer that waits for credit on a session that has died goes round its loop for ever,
  unless the link is closed as well (`dead_write_returns`).
-/

namespace Shine

/-- Where a call of `write` stands. -/
inductive WritePc where
  /-- `link->isClosed()`, at the start. -/
  | checkLink
  /-- `state_.load`. -/
  | checkState
  /-- `remaining > 0`. -/
  | loop
  /-- `send_credit_.load`, in the condition of the inner loop. -/
  | loadCredit
  /-- The call of `async_receive`. -/
  | receive
  /-- `async_receive` has not completed. -/
  | suspended
  /-- `link->isClosed()`, behind `async_receive`. -/
  | woken
  /-- `send_credit_.load`, for the chunk. -/
  | loadChunk
  /-- `send_credit_.fetch_sub`. -/
  | takeCredit (chunk : Nat)
  /-- `enqueueFrame`. -/
  | enqueue (chunk : Nat)
  | returned (status : StatusOr Unit)
  deriving DecidableEq

/-- The call has found no credit and is about to sleep, or sleeps. -/
def WritePc.awaits : WritePc → Bool
  | .receive | .suspended => true
  | _ => false

/-- The call is past the checks at its start, and has not returned an error. -/
def WritePc.started : WritePc → Bool
  | .checkLink | .checkState | .returned (.error _) => false
  | _ => true

/-- A call of `write` and what it shares with others. `adding` counts the calls of `onWindow`
that have added their credit and not yet signalled it; `accepted` are the payloads of the
DATA frames that `write_chan_` has accepted. -/
structure WriteCall where
  credit : Int64
  signal : Chan Unit
  state : SessionState
  linkClosed : Bool
  adding : Nat
  pc : WritePc
  remaining : Bytes
  accepted : List Bytes
  deriving DecidableEq

namespace WriteCall

/-- What can happen next. -/
inductive Event where
  /-- A step of `write`. -/
  | write
  /-- `onWindow`: `send_credit_.fetch_add`. -/
  | addCredit (delta : UInt32)
  /-- `onWindow`: `credit_signal_->try_send`. -/
  | signal
  /-- Some method stores `state_`. -/
  | setState (state : SessionState)
  /-- `credit_signal_->close()`, by `close` and `onReset`. -/
  | closeSignal
  /-- The link is closed. -/
  | closeLink
  deriving DecidableEq

variable (w : WriteCall)

/-- Go on at `pc`. -/
def goto (pc : WritePc) : WriteCall := { w with pc }

/-- `std::min({remaining, max_data_frame, send_credit_})`. -/
def chunk (maxDataFrame : Nat) : Nat :=
  min (min w.remaining.length maxDataFrame) w.credit.toUInt64.toNat

/-- `credit_signal_->async_receive`: a token is taken if there is one, a closed channel
completes at once, and otherwise the writer is suspended. -/
def asyncReceive : WriteCall :=
  match w.signal.receive with
  | some (_, signal) => { w with signal, pc := .woken }
  | none => w.goto (if w.signal.closed then .woken else .suspended)

/-- One step of `Session::write`. -/
def own (maxDataFrame : Nat) : Option WriteCall :=
  match w.pc with
  | .checkLink =>
    some (w.goto (if w.linkClosed then .returned (.error (.unavailable (ascii "link closed")))
      else .checkState))
  | .checkState =>
    some (w.goto (if w.state = .closed ∨ w.state = .halfClosedLocal then
        .returned (.error (.failedPrecondition (ascii "session write side closed")))
      else .loop))
  | .loop => some (w.goto (if w.remaining = [] then .returned (.ok ()) else .loadCredit))
  | .loadCredit => some (w.goto (if w.credit ≤ 0 then .receive else .loadChunk))
  | .receive => some w.asyncReceive
  | .suspended => none
  | .woken =>
    some (w.goto (if w.linkClosed then .returned (.error (.unavailable (ascii "link closed")))
      else .loadCredit))
  | .loadChunk =>
    some (w.goto (if w.chunk maxDataFrame = 0 then .loop else .takeCredit (w.chunk maxDataFrame)))
  | .takeCredit chunk =>
    some { w with credit := w.credit - Int64.ofNat chunk, pc := .enqueue chunk }
  | .enqueue chunk =>
    some { w with
      accepted := if w.linkClosed then w.accepted else w.accepted ++ [w.remaining.take chunk]
      remaining := w.remaining.drop chunk
      pc := .loop }
  | .returned _ => none

/-- `credit_signal_->try_send`: a waiting receiver is served first, then a token is stored
if there is room. -/
def trySend : WriteCall :=
  if w.signal.closed then w
  else if w.pc = .suspended then w.goto .woken
  else { w with signal := w.signal.trySend () }

/-- `credit_signal_->close()` completes a waiting `async_receive`. -/
def closeSignal : WriteCall :=
  { w with signal := w.signal.close, pc := if w.pc = .suspended then .woken else w.pc }

/-- One step. -/
def step (maxDataFrame : Nat) : Event → Option WriteCall
  | .write => w.own maxDataFrame
  | .addCredit delta =>
    some { w with credit := w.credit + delta.toUInt64.toInt64, adding := w.adding + 1 }
  | .signal => if w.adding = 0 then none else some { w.trySend with adding := w.adding - 1 }
  | .setState state => some { w with state }
  | .closeSignal => some w.closeSignal
  | .closeLink => some { w with linkClosed := true }

/-- All interleavings. -/
def system (maxDataFrame : Nat) : Lts WriteCall Event := ⟨fun w => w.step maxDataFrame⟩

/-- A call of `write` on any session: whatever its credit, with or without a token left in
`credit_signal_`. -/
def Called : Prop := w.pc = .checkLink ∧ w.signal.cap = 1

/-! ## No wake-up is lost -/

/-- A writer sleeps on an open channel without a token. The credit that has come since it
found none is about to be signalled or has left its mark on the channel. -/
structure Inv : Prop where
  cap : w.signal.cap = 1
  asleep : w.pc = .suspended → w.signal.queue = [] ∧ w.signal.closed = false
  signalled : w.pc.awaits = true → ¬ w.credit ≤ 0 →
    0 < w.adding ∨ w.signal.queue ≠ [] ∨ w.signal.closed = true

variable {w} {w₀ w' : WriteCall} {maxDataFrame : Nat} {e : Event}

/-- In the other positions there is nothing to show. -/
theorem Inv.of_awake (hcap : w.signal.cap = 1) (hpc : w.pc.awaits = false) : w.Inv where
  cap := hcap
  asleep h := by
    rw [h] at hpc
    cases hpc
  signalled h := by
    rw [h] at hpc
    cases hpc

theorem Inv.asyncReceive (h : w.Inv) (hpc : w.pc = .receive) : w.asyncReceive.Inv := by
  unfold WriteCall.asyncReceive
  cases hq : w.signal.queue with
  | cons token rest =>
    simp only [Chan.receive, hq]
    exact .of_awake h.cap rfl
  | nil =>
    simp only [Chan.receive, hq]
    cases hclosed : w.signal.closed with
    | true => exact .of_awake h.cap rfl
    | false =>
      refine ⟨h.cap, fun _ => ⟨hq, hclosed⟩, fun _ hcredit => ?_⟩
      rcases h.signalled (by rw [hpc]; rfl) hcredit with hadding | htoken | hclosed'
      · exact .inl hadding
      · exact absurd hq htoken
      · rw [hclosed] at hclosed'
        cases hclosed'

theorem Inv.own (h : w.Inv) (hstep : w.own maxDataFrame = some w') : w'.Inv := by
  unfold WriteCall.own at hstep
  cases hpc : w.pc with
  | loadCredit =>
    simp only [hpc, Option.some.injEq] at hstep
    subst hstep
    by_cases hcredit : w.credit ≤ 0
    · rw [if_pos hcredit]
      exact ⟨h.cap, by rintro ⟨⟩, fun _ hpos => absurd hcredit hpos⟩
    · rw [if_neg hcredit]
      exact .of_awake h.cap rfl
  | receive =>
    simp only [hpc, Option.some.injEq] at hstep
    subst hstep
    exact h.asyncReceive hpc
  | suspended | returned status =>
    simp only [hpc] at hstep
    cases hstep
  | checkLink | checkState | loop | woken | loadChunk =>
    simp only [hpc, Option.some.injEq] at hstep
    subst hstep
    split
    · exact .of_awake h.cap rfl
    · exact .of_awake h.cap rfl
  | takeCredit chunk | enqueue chunk =>
    simp only [hpc, Option.some.injEq] at hstep
    subst hstep
    exact .of_awake h.cap rfl

/-- A signal wakes the writer or leaves a token. -/
theorem Inv.signal (h : w.Inv) : Inv { w.trySend with adding := w.adding - 1 } := by
  unfold trySend
  by_cases hclosed : w.signal.closed = true
  · rw [if_pos hclosed]
    exact ⟨h.cap, h.asleep, fun _ _ => .inr (.inr hclosed)⟩
  rw [if_neg hclosed]
  by_cases hpc : w.pc = .suspended
  · rw [if_pos hpc]
    exact .of_awake h.cap rfl
  · rw [if_neg hpc]
    have htoken : (w.signal.trySend ()).queue ≠ [] := by
      rw [Chan.trySend, h.cap]
      split_ifs with hfull
      · intro hnil
        rw [hnil] at hfull
        exact absurd (hfull.resolve_left hclosed) (by decide)
      · simp
    refine ⟨?_, fun hs => absurd hs hpc, fun _ _ => .inr (.inl htoken)⟩
    show (w.signal.trySend ()).cap = 1
    rw [Chan.trySend]
    split_ifs <;> exact h.cap

theorem Inv.closeSignal (h : w.Inv) : w.closeSignal.Inv where
  cap := h.cap
  asleep hpc := by
    unfold WriteCall.closeSignal at hpc
    by_cases hs : w.pc = .suspended
    · simp only [if_pos hs] at hpc
      cases hpc
    · simp only [if_neg hs] at hpc
      exact absurd hpc hs
  signalled _ _ := .inr (.inr rfl)

theorem Inv.step (h : w.Inv) (hstep : w.step maxDataFrame e = some w') : w'.Inv := by
  cases e with
  | write => exact h.own hstep
  | addCredit delta =>
    cases hstep
    exact ⟨h.cap, h.asleep, fun _ _ => .inl (Nat.succ_pos _)⟩
  | signal =>
    simp only [WriteCall.step] at hstep
    split_ifs at hstep
    cases hstep
    exact h.signal
  | setState state =>
    cases hstep
    exact ⟨h.cap, h.asleep, h.signalled⟩
  | closeSignal =>
    cases hstep
    exact h.closeSignal
  | closeLink =>
    cases hstep
    exact ⟨h.cap, h.asleep, h.signalled⟩

theorem Inv.reach (h₀ : w₀.Called) (h : (system maxDataFrame).Reach Lts.Free w₀ w) : w.Inv := by
  refine h.invariant ?_ fun s e t hs _ hstep => hs.step hstep
  refine .of_awake h₀.2 ?_
  rw [h₀.1]
  rfl

/-- **No wake-up is lost**: a writer that sleeps while no `onWindow` is about to signal
has no credit. -/
theorem wakeup_not_lost (h₀ : w₀.Called) (h : (system maxDataFrame).Reach Lts.Free w₀ w)
    (hpc : w.pc = .suspended) (hadding : w.adding = 0) : w.credit ≤ 0 := by
  have hinv := Inv.reach h₀ h
  by_contra hcredit
  obtain ⟨hqueue, hclosed⟩ := hinv.asleep hpc
  rcases hinv.signalled (by rw [hpc]; rfl) hcredit with hpos | htoken | hclosed'
  · omega
  · exact htoken hqueue
  · rw [hclosed] at hclosed'
    cases hclosed'

/-- A call with three bytes to write and no credit. -/
def sample : WriteCall := ⟨0, .new 1, .opened, false, 0, .checkLink, [1, 2, 3], []⟩

/-- Credit for two bytes comes between the load and `async_receive`, which then finds the
token; the third byte has to wait. -/
def sampleEvents : List Event :=
  List.replicate 4 .write ++ [.addCredit 2, .signal] ++ List.replicate 9 .write

theorem wakeup_not_lost_two_of_three :
    ∃ w, (system 16).Reach Lts.Free sample w ∧ w.pc = .suspended ∧ w.adding = 0 ∧ w.credit ≤ 0 := by
  have hrun : (system 16).exec Lts.Free sample sampleEvents
      = some { sample with pc := .suspended, remaining := [3], accepted := [[1, 2]] } := by decide
  have hreach := Lts.reach_of_exec _ hrun
  exact ⟨_, hreach, rfl, rfl, wakeup_not_lost ⟨rfl, rfl⟩ hreach rfl rfl⟩

/-! ## A writer on a session that has died -/

variable (w)

/-- The call is in the loop in which it waits for credit. -/
def Waiting : Prop := w.pc.awaits = true ∨ w.pc = .woken ∨ (w.pc = .loadCredit ∧ w.credit ≤ 0)

/-- The session has been reset or closed. -/
def Dead : Prop := w.state = .closed ∧ w.signal.closed = true

/-- The call alone takes `n` steps. -/
def advance (maxDataFrame : Nat) : Nat → WriteCall → WriteCall
  | 0, w => w
  | n + 1, w => advance maxDataFrame n ((w.own maxDataFrame).getD w)

/-- After finitely many of its steps the call has returned an error. -/
def ReturnsError (maxDataFrame : Nat) : Prop :=
  ∃ n e, (advance maxDataFrame n w).pc = .returned (.error e)

variable {w}

/-- With the link open there is no way to an error. -/
theorem own_started (hopen : w.linkClosed = false) (hpc : w.pc.started = true)
    (hstep : w.own maxDataFrame = some w') : w'.linkClosed = false ∧ w'.pc.started = true := by
  unfold own at hstep
  cases hw : w.pc with
  | checkLink | checkState =>
    rw [hw] at hpc
    cases hpc
  | loop | loadCredit | loadChunk =>
    simp only [hw, Option.some.injEq] at hstep
    subst hstep
    split
    · exact ⟨hopen, rfl⟩
    · exact ⟨hopen, rfl⟩
  | receive =>
    simp only [hw, Option.some.injEq] at hstep
    subst hstep
    unfold asyncReceive
    split
    · exact ⟨hopen, rfl⟩
    · split
      · exact ⟨hopen, rfl⟩
      · exact ⟨hopen, rfl⟩
  | woken =>
    simp only [hw, hopen, Option.some.injEq] at hstep
    subst hstep
    exact ⟨hopen, rfl⟩
  | takeCredit chunk | enqueue chunk =>
    simp only [hw, Option.some.injEq] at hstep
    subst hstep
    exact ⟨hopen, rfl⟩
  | suspended | returned status =>
    simp only [hw] at hstep
    cases hstep

theorem advance_started (hopen : w.linkClosed = false) (hpc : w.pc.started = true) (n : Nat) :
    (advance maxDataFrame n w).pc.started = true := by
  induction n generalizing w with
  | zero => exact hpc
  | succ n ih =>
    rw [advance]
    cases hstep : w.own maxDataFrame with
    | none => exact ih hopen hpc
    | some w' =>
      obtain ⟨hopen', hpc'⟩ := own_started hopen hpc hstep
      exact ih hopen' hpc'

theorem Waiting.started (h : w.Waiting) : w.pc.started = true := by
  rcases h with h | h | ⟨h, _⟩
  · cases hpc : w.pc with
    | receive | suspended => rfl
    | _ =>
      rw [hpc] at h
      cases h
  · rw [h]
    rfl
  · rw [h]
    rfl

theorem not_returnsError (hopen : w.linkClosed = false) (h : w.Waiting) :
    ¬ w.ReturnsError maxDataFrame := by
  rintro ⟨n, e, hn⟩
  have hstarted : (advance maxDataFrame n w).pc.started = true :=
    advance_started hopen h.started n
  rw [hn] at hstarted
  cases hstarted

/-- A step ahead of an error. -/
theorem ReturnsError.of_own (hstep : w.own maxDataFrame = some w')
    (h : w'.ReturnsError maxDataFrame) : w.ReturnsError maxDataFrame := by
  obtain ⟨n, e, hn⟩ := h
  refine ⟨n + 1, e, ?_⟩
  rwa [advance, hstep]

theorem returnsError_woken (hpc : w.pc = .woken) (hlink : w.linkClosed = true) :
    w.ReturnsError maxDataFrame :=
  ⟨1, _, by simp only [advance, own, hpc, hlink, if_true, Option.getD_some]; rfl⟩

/-- `async_receive` completes on a closed channel, with a token or with an error. -/
theorem asyncReceive_closed (hclosed : w.signal.closed = true) :
    w.asyncReceive.pc = .woken ∧ w.asyncReceive.linkClosed = w.linkClosed
      ∧ w.asyncReceive.credit = w.credit ∧ w.asyncReceive.signal.closed = true := by
  unfold asyncReceive Chan.receive
  cases w.signal.queue with
  | nil =>
    simp only [hclosed, if_true]
    exact ⟨rfl, rfl, rfl, hclosed⟩
  | cons token rest => exact ⟨rfl, rfl, rfl, hclosed⟩

theorem returnsError_receive (hpc : w.pc = .receive) (hlink : w.linkClosed = true)
    (hclosed : w.signal.closed = true) : w.ReturnsError maxDataFrame := by
  obtain ⟨hwoken, hlink', _, _⟩ := asyncReceive_closed hclosed
  have hstep : w.own maxDataFrame = some w.asyncReceive := by simp only [own, hpc]
  exact .of_own hstep (returnsError_woken hwoken (hlink'.trans hlink))

/-- **A write that waits for credit on a dead session returns an error exactly if the link
is closed too.** -/
theorem dead_write_returns (h₀ : w₀.Called) (h : (system maxDataFrame).Reach Lts.Free w₀ w)
    (hdead : w.Dead) (hwait : w.Waiting) :
    w.ReturnsError maxDataFrame ↔ w.linkClosed = true := by
  constructor
  · intro herr
    by_contra hlink
    exact not_returnsError (Bool.eq_false_of_not_eq_true hlink) hwait herr
  · intro hlink
    rcases hwait with hawait | hwoken | ⟨hload, hcredit⟩
    · cases hpc : w.pc with
      | receive => exact returnsError_receive hpc hlink hdead.2
      | suspended =>
        -- closing the channel has woken the writer
        have hopen := ((Inv.reach h₀ h).asleep hpc).2
        rw [hdead.2] at hopen
        cases hopen
      | _ =>
        rw [hpc] at hawait
        cases hawait
    · exact returnsError_woken hwoken hlink
    · have hstep : w.own maxDataFrame = some (w.goto .receive) := by
        simp only [own, hload, if_pos hcredit]
      exact .of_own hstep (returnsError_receive rfl hlink hdead.2)

/-- The call sleeps when the session is reset. -/
def sampleReset : List Event := List.replicate 5 .write ++ [.setState .closed, .closeSignal]

theorem dead_write_returns_after_closeLink :
    ∃ w, (system 16).Reach Lts.Free sample w ∧ w.Dead ∧ w.Waiting ∧ w.ReturnsError 16 := by
  have hrun : (system 16).exec Lts.Free sample (sampleReset ++ [.closeLink])
      = some { sample with
          signal := ⟨1, [], true⟩, state := .closed, linkClosed := true, pc := .woken } := by
    decide
  have hreach := Lts.reach_of_exec _ hrun
  have hwait : Waiting { sample with
      signal := ⟨1, [], true⟩, state := .closed, linkClosed := true, pc := .woken } :=
    .inr (.inl rfl)
  exact ⟨_, hreach, ⟨rfl, rfl⟩, hwait,
    (dead_write_returns ⟨rfl, rfl⟩ hreach ⟨rfl, rfl⟩ hwait).mpr rfl⟩

/-- With the link open it never does. -/
theorem dead_write_returns_fails_on_open_link :
    ¬ ∀ maxDataFrame w₀ w, w₀.Called → (system maxDataFrame).Reach Lts.Free w₀ w → w.Dead →
      w.Waiting → w.linkClosed = false → w.ReturnsError maxDataFrame := by
  intro h
  have hrun : (system 16).exec Lts.Free sample sampleReset
      = some { sample with signal := ⟨1, [], true⟩, state := .closed, pc := .woken } := by decide
  have hwait : Waiting { sample with signal := ⟨1, [], true⟩, state := .closed, pc := .woken } :=
    .inr (.inl rfl)
  exact not_returnsError rfl hwait
    (h 16 sample _ ⟨rfl, rfl⟩ (Lts.reach_of_exec _ hrun) ⟨rfl, rfl⟩ hwait rfl)

end WriteCall

end Shine
