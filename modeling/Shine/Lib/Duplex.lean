import Shine.Lib.Lts

/-!
# Two processes joined by a channel in each direction

A process receives from one channel and sends on another: `Proc` is the tree of what it
does next, with its result at the leaves. `write` and `readExact` are the usual loops over
single symbols, so a run can stop in the middle of either.

`Duplex` joins two processes. Its channels are unbounded and keep the order. Receiving and
sending by different processes commute, so every run ends in the same state
(`Reach.settles`); the rules at the end of the file compute that state by running one
process for a while and then the other.

`Proc.feed` runs one process alone, on everything that it will ever receive.
-/

namespace Shine

/-- A process over symbols `σ` with results in `α`. -/
inductive Proc (σ α : Type) where
  | done (result : α)
  | send (x : σ) (next : Proc σ α)
  | recv (next : σ → Proc σ α)

namespace Proc

variable {σ α : Type}

/-- Send a list of symbols. -/
def write : List σ → Proc σ α → Proc σ α
  | [], next => next
  | x :: xs, next => .send x (write xs next)

/-- Receive `n` symbols. -/
def readExact : Nat → (List σ → Proc σ α) → Proc σ α
  | 0, next => next []
  | n + 1, next => .recv fun x => readExact n fun xs => next (x :: xs)

/-- One step, on what waits to be received: how the process goes on, what is left, and
what it has sent. -/
def step : Proc σ α → List σ → Option (Proc σ α × List σ × List σ)
  | .done _, _ => none
  | .send x next, queue => some (next, queue, [x])
  | .recv _, [] => none
  | .recv next, x :: queue => some (next x, queue, [])

/-- Something can be received behind what waits already without changing the step. -/
theorem step_append {p p' : Proc σ α} {queue queue' out : List σ} (more : List σ)
    (h : p.step queue = some (p', queue', out)) :
    p.step (queue ++ more) = some (p', queue' ++ more, out) := by
  cases p with
  | done r => cases h
  | send x next =>
    cases h
    rfl
  | recv next =>
    cases queue with
    | nil => cases h
    | cons x queue =>
      cases h
      rfl

/-! ## A process on a given input -/

/-- The result of a process that receives `input` and then nothing more, with what it has
left of it; none where it waits for more. -/
def feed : Proc σ α → List σ → Option (α × List σ)
  | .done r, input => some (r, input)
  | .send _ next, input => next.feed input
  | .recv _, [] => none
  | .recv next, x :: input => (next x).feed input

variable {input : List σ} {out : α × List σ}


@[simp] theorem feed_write (xs : List σ) (p : Proc σ α) :
    (write xs p).feed input = p.feed input := by
  induction xs with
  | nil => rfl
  | cons x xs ih => exact ih

theorem feed_readExact_append {n : Nat} {xs : List σ} (hlen : xs.length = n)
    (next : List σ → Proc σ α) :
    (readExact n next).feed (xs ++ input) = (next xs).feed input := by
  induction n generalizing xs next with
  | zero =>
    rw [List.length_eq_zero_iff.mp hlen]
    rfl
  | succ n ih =>
    cases xs with
    | nil => cases hlen
    | cons x xs => exact ih (Nat.succ.inj hlen) fun ys => next (x :: ys)

theorem feed_readExact_short {n : Nat} (hlen : input.length < n) (next : List σ → Proc σ α) :
    (readExact n next).feed input = none := by
  induction n generalizing input next with
  | zero => exact absurd hlen (Nat.not_lt_zero _)
  | succ n ih =>
    cases input with
    | nil => rfl
    | cons x input => exact ih (Nat.lt_of_succ_lt_succ hlen) fun ys => next (x :: ys)

/-- A process that reads first gets to a result on the inputs that have enough symbols in
front, and goes on behind them. -/
theorem feed_readExact_iff {n : Nat} {next : List σ → Proc σ α} :
    (readExact n next).feed input = some out
      ↔ ∃ xs rest, input = xs ++ rest ∧ xs.length = n ∧ (next xs).feed rest = some out := by
  constructor
  · intro h
    by_cases hlen : input.length < n
    · rw [feed_readExact_short hlen] at h
      cases h
    · have htake : (input.take n).length = n := by
        rw [List.length_take]
        omega
      rw [← List.take_append_drop n input, feed_readExact_append htake] at h
      exact ⟨input.take n, input.drop n, (List.take_append_drop n input).symm, htake, h⟩
  · rintro ⟨xs, rest, rfl, hlen, h⟩
    rwa [feed_readExact_append hlen]

end Proc

/-- Whose step it is. -/
inductive Turn where
  | left
  | right
  deriving DecidableEq

/-- Two processes, what waits to be received by each, and all that the left one sent. -/
structure Duplex (σ α β : Type) where
  left : Proc σ α
  right : Proc σ β
  toLeft : List σ
  toRight : List σ
  sent : List σ

namespace Duplex

variable {σ α β : Type} {s t final : Duplex σ α β}

/-- Joined processes start with empty channels. -/
def start (left : Proc σ α) (right : Proc σ β) : Duplex σ α β := ⟨left, right, [], [], []⟩

/-- One process takes a step. -/
def step (s : Duplex σ α β) : Turn → Option (Duplex σ α β)
  | .left => (s.left.step s.toLeft).map fun (p, queue, out) =>
    { s with left := p, toLeft := queue, toRight := s.toRight ++ out, sent := s.sent ++ out }
  | .right => (s.right.step s.toRight).map fun (p, queue, out) =>
    { s with right := p, toRight := queue, toLeft := s.toLeft ++ out }

/-- Any order of steps. -/
def system (σ α β : Type) : Lts (Duplex σ α β) Turn := ⟨step⟩

/-- Both processes wait for something to be received, and nothing is on the way. -/
def Deadlock (s : Duplex σ α β) : Prop :=
  (∃ next, s.left = .recv next) ∧ (∃ next, s.right = .recv next)
    ∧ s.toLeft = [] ∧ s.toRight = []

theorem step_left_eq_some (h : s.step .left = some t) :
    ∃ p queue out, s.left.step s.toLeft = some (p, queue, out) ∧
      t = ⟨p, s.right, queue, s.toRight ++ out, s.sent ++ out⟩ := by
  obtain ⟨⟨p, queue, out⟩, hstep, rfl⟩ := Option.map_eq_some_iff.mp h
  exact ⟨p, queue, out, hstep, rfl⟩

theorem step_right_eq_some (h : s.step .right = some t) :
    ∃ p queue out, s.right.step s.toRight = some (p, queue, out) ∧
      t = ⟨s.left, p, s.toLeft ++ out, queue, s.sent⟩ := by
  obtain ⟨⟨p, queue, out⟩, hstep, rfl⟩ := Option.map_eq_some_iff.mp h
  exact ⟨p, queue, out, hstep, rfl⟩

/-- A step of each process, in either order. -/
theorem step_comm {a b : Duplex σ α β} (ha : s.step .left = some a) (hb : s.step .right = some b) :
    ∃ t, a.step .right = some t ∧ b.step .left = some t := by
  obtain ⟨p, pqueue, pout, hp, rfl⟩ := step_left_eq_some ha
  obtain ⟨r, rqueue, rout, hr, rfl⟩ := step_right_eq_some hb
  -- what one has sent waits behind what the other receives
  refine ⟨⟨p, r, pqueue ++ rout, rqueue ++ pout, s.sent ++ pout⟩, ?_, ?_⟩
  · simp only [step, Proc.step_append pout hr, Option.map_some]
  · simp only [step, Proc.step_append rout hp, Option.map_some]

theorem diamond : (system σ α β).Diamond := by
  intro s e e' a b ha hb
  cases e with
  | left =>
    cases e' with
    | left => exact .inl (Option.some.inj (ha.symm.trans hb))
    | right => exact .inr (step_comm ha hb)
  | right =>
    cases e' with
    | left =>
      obtain ⟨t, ht, ht'⟩ := step_comm hb ha
      exact .inr ⟨t, ht', ht⟩
    | right => exact .inl (Option.some.inj (ha.symm.trans hb))

/-- In a deadlock nothing can happen. -/
theorem Deadlock.stuck (h : s.Deadlock) : (system σ α β).Stuck s := by
  obtain ⟨⟨l, hl⟩, ⟨r, hr⟩, htl, htr⟩ := h
  intro e
  cases e with
  | left =>
    show Option.map _ (s.left.step s.toLeft) = none
    rw [hl, htl]
    rfl
  | right =>
    show Option.map _ (s.right.step s.toRight) = none
    rw [hr, htr]
    rfl

/-! ## What holds when the right process has its result -/

/-- The right process keeps its result and receives nothing more: what the left one
sends from then on waits for whoever takes the channel over. -/
theorem Reach.right_done {r : β} (h : (system σ α β).Reach Lts.Free s t) (hs : s.right = .done r) :
    t.right = .done r ∧ ∃ more, t.sent = s.sent ++ more ∧ t.toRight = s.toRight ++ more := by
  induction h with
  | refl => exact ⟨hs, [], by simp, by simp⟩
  | @tail s₁ t e _ _ hstep ih =>
    obtain ⟨hdone, more, hsent, hqueue⟩ := ih
    cases e with
    | left =>
      obtain ⟨p, queue, out, _, rfl⟩ := step_left_eq_some hstep
      exact ⟨hdone, more ++ out, by simp [hsent], by simp [hqueue]⟩
    | right =>
      obtain ⟨p, queue, out, hr, _⟩ := step_right_eq_some hstep
      rw [hdone] at hr
      cases hr

/-- **What one run to the end shows of every run**: if a run ends, with nothing left to
happen and the result `r` on the right, then no run deadlocks before the right process has
its result; that result is `r`; and when the process has it, it has received exactly what
it has received at the end. -/
theorem settled {r : β} {taken rest : List σ}
    (hend : (system σ α β).Reach Lts.Free s final) (hstuck : (system σ α β).Stuck final)
    (hfinal : final.right = .done r) (hsent : final.sent = taken ++ rest)
    (hrest : final.toRight = rest) (h : (system σ α β).Reach Lts.Free s t) :
    ¬ t.Deadlock ∧ ∀ r', t.right = .done r' → r' = r ∧ t.sent = taken ++ t.toRight := by
  have hahead := hend.settles diamond hstuck h
  constructor
  · intro hdead
    -- nothing happens in a deadlock, so it would be the end
    have heq := hdead.stuck.eq_of_reach hahead
    obtain ⟨_, ⟨next, hrecv⟩, _⟩ := hdead
    rw [heq, hrecv] at hfinal
    cases hfinal
  · intro r' hr'
    obtain ⟨hdone, more, hmore, hqueue⟩ := Reach.right_done hahead hr'
    rw [hfinal] at hdone
    refine ⟨(Proc.done.inj hdone).symm, ?_⟩
    rw [hsent, ← hrest, hqueue, ← List.append_assoc] at hmore
    exact (List.append_cancel_right hmore).symm

/-! ## Running one process for a while -/

section Rules

variable {p : Proc σ α} {r : Proc σ β} {q out sent : List σ} {next : List σ → Proc σ α}
  {rnext : List σ → Proc σ β} (xs : List σ)

theorem Reach.write_left :
    (system σ α β).Reach Lts.Free ⟨.write xs p, r, q, out, sent⟩
      ⟨p, r, q, out ++ xs, sent ++ xs⟩ := by
  induction xs generalizing out sent with
  | nil =>
    rw [List.append_nil, List.append_nil]
    exact .refl
  | cons x xs ih =>
    have hsend : (system σ α β).Reach Lts.Free ⟨.write (x :: xs) p, r, q, out, sent⟩
        ⟨.write xs p, r, q, out ++ [x], sent ++ [x]⟩ :=
      Lts.Reach.refl.tail (e := Turn.left) trivial rfl
    have hrest := @ih (out ++ [x]) (sent ++ [x])
    rw [List.append_assoc, List.append_assoc] at hrest
    exact hsend.trans hrest

theorem Reach.write_right :
    (system σ α β).Reach Lts.Free ⟨p, .write xs r, q, out, sent⟩ ⟨p, r, q ++ xs, out, sent⟩ := by
  induction xs generalizing q with
  | nil =>
    rw [List.append_nil]
    exact .refl
  | cons x xs ih =>
    have hsend : (system σ α β).Reach Lts.Free ⟨p, .write (x :: xs) r, q, out, sent⟩
        ⟨p, .write xs r, q ++ [x], out, sent⟩ :=
      Lts.Reach.refl.tail (e := Turn.right) trivial rfl
    have hrest := @ih (q ++ [x])
    rw [List.append_assoc] at hrest
    exact hsend.trans hrest

theorem Reach.read_left :
    (system σ α β).Reach Lts.Free ⟨.readExact xs.length next, r, xs ++ q, out, sent⟩
      ⟨next xs, r, q, out, sent⟩ := by
  induction xs generalizing next with
  | nil => exact .refl
  | cons x xs ih =>
    have hrecv : (system σ α β).Reach Lts.Free
        ⟨.readExact (xs.length + 1) next, r, x :: xs ++ q, out, sent⟩
        ⟨.readExact xs.length fun ys => next (x :: ys), r, xs ++ q, out, sent⟩ :=
      Lts.Reach.refl.tail (e := Turn.left) trivial (by simp [system, step, Proc.step, Proc.readExact])
    exact hrecv.trans ih

theorem Reach.read_right :
    (system σ α β).Reach Lts.Free ⟨p, .readExact xs.length rnext, q, xs ++ out, sent⟩
      ⟨p, rnext xs, q, out, sent⟩ := by
  induction xs generalizing rnext with
  | nil => exact .refl
  | cons x xs ih =>
    have hrecv : (system σ α β).Reach Lts.Free
        ⟨p, .readExact (xs.length + 1) rnext, q, x :: xs ++ out, sent⟩
        ⟨p, .readExact xs.length fun ys => rnext (x :: ys), q, xs ++ out, sent⟩ :=
      Lts.Reach.refl.tail (e := Turn.right) trivial (by simp [system, step, Proc.step, Proc.readExact])
    exact hrecv.trans ih

end Rules

end Duplex

end Shine
