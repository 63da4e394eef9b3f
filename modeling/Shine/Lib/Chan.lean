import Mathlib

/-!
# Bounded channels

A bounded FIFO channel between coroutines, with the documented behaviour of
Boost.Asio's `concurrent_channel`:

- a send on an open channel is queued; when the buffer is full the message waits
  with its sender behind the buffered ones, so the queue holds the buffered
  messages followed by those of suspended senders, and a sender is suspended
  exactly while its message lies beyond the capacity;
- a `try_send` never waits: it fails on a full or closed channel;
- closing refuses further sends, but what is queued can still be received; only
  a receive on a channel that is closed *and empty* fails.
-/

namespace Shine

universe u

/-- A bounded channel: the queued messages (those beyond `cap` belong to suspended
senders) and whether it has been closed. -/
structure Chan (α : Type u) where
  cap : Nat
  queue : List α
  closed : Bool
  deriving DecidableEq, Repr

namespace Chan

variable {α : Type u}

/-- A new channel. -/
def new (cap : Nat) : Chan α := ⟨cap, [], false⟩

/-- `async_send`: queue the message unless the channel is closed. -/
def send (c : Chan α) (x : α) : Chan α :=
  if c.closed then c else { c with queue := c.queue ++ [x] }

/-- `try_send`: queue the message if there is room. -/
def trySend (c : Chan α) (x : α) : Chan α :=
  if c.closed ∨ c.queue.length ≥ c.cap then c else { c with queue := c.queue ++ [x] }

/-- `close`. -/
def close (c : Chan α) : Chan α := { c with closed := true }

/-- The completion of `async_receive` with a message, when there is one. -/
def receive (c : Chan α) : Option (α × Chan α) :=
  match c.queue with
  | [] => none
  | x :: rest => some (x, { c with queue := rest })

/-- Some sender is suspended. -/
def sendBlocked (c : Chan α) : Bool := c.queue.length > c.cap

@[simp] theorem new_queue (cap : Nat) : (new cap : Chan α).queue = [] := rfl

@[simp] theorem new_closed (cap : Nat) : (new cap : Chan α).closed = false := rfl


@[simp] theorem close_closed (c : Chan α) : c.close.closed = true := rfl

theorem send_queue_of_open {c : Chan α} (h : c.closed = false) (x : α) :
    (c.send x).queue = c.queue ++ [x] := by
  simp [send, h]

theorem send_of_closed {c : Chan α} (h : c.closed = true) (x : α) : c.send x = c := by
  simp [send, h]

@[simp] theorem send_closed (c : Chan α) (x : α) : (c.send x).closed = c.closed := by
  unfold send
  split_ifs <;> rfl

@[simp] theorem trySend_closed (c : Chan α) (x : α) : (c.trySend x).closed = c.closed := by
  unfold trySend
  split_ifs <;> rfl

end Chan

end Shine
