import Shine.Core.Buffer
import Shine.Lib.Resumable

/-!
# Reading loops over a `ReadBuffer`

Every reader of the program has the same shape: work on the buffer until it needs
more bytes, make room with `ensure_writable`, read once from the socket, repeat.
`Reader` is that loop with its body left open, together with the `Resumable`
machine it implements on the readable bytes. `Reader.deliver` runs it on the
bytes of one TCP segment, which a full buffer may take in several reads.

The connection to the machine is `Reader.run_refines`: the loop ends in the state
in which the machine ends when it is given the concatenated segments at once.
-/

namespace Shine

/-- A reading loop: `turn` does one piece of work on the buffer (`none`: it needs
more bytes or has stopped), `want` is the argument of `ensure_writable`, `reading`
tells whether the loop still reads. On the readable bytes, `turn` is a step of
`machine`. -/
structure Reader (σ : Type) where
  turn : σ → ReadBuffer → Option (σ × ReadBuffer)
  want : σ → ReadBuffer → Bytes → Nat
  reading : σ → Bool
  machine : Resumable σ UInt8
  want_pos : ∀ s rb piece, 0 < want s rb piece
  turn_none : ∀ {s rb}, turn s rb = none → machine.step s rb.view = none
  turn_some : ∀ {s rb s' rb'}, turn s rb = some (s', rb') →
    ∃ n, machine.step s rb.view = some (n, s') ∧ rb'.view = rb.view.drop n
  stopped : ∀ {s} (b : Bytes), reading s = false → machine.step s b = none

namespace Reader

variable {σ : Type} (r : Reader σ)

/-- Work until more bytes are needed. -/
def settle (s : σ) (rb : ReadBuffer) : σ × ReadBuffer :=
  match _h : r.turn s rb with
  | none => (s, rb)
  | some (s', rb') => settle s' rb'
termination_by (rb.view.length, r.machine.rank s)
decreasing_by
  obtain ⟨n, hstep, hview⟩ := r.turn_some _h
  rw [hview]
  exact r.machine.step_decreases hstep

/-- Run the loop on the bytes of one segment. -/
def deliver (c : σ × ReadBuffer) (piece : Bytes) : σ × ReadBuffer :=
  if _h : piece = [] ∨ r.reading c.1 = false then c
  else
    deliver (r.settle c.1 (c.2.readSome (r.want c.1 c.2 piece) piece).1)
      (c.2.readSome (r.want c.1 c.2 piece) piece).2
termination_by piece.length
decreasing_by
  rw [not_or] at _h
  exact c.2.readSome_shrinks (r.want_pos ..) _h.1

/-- Run the loop on a sequence of segments. -/
def run (s : σ) (rb : ReadBuffer) (pieces : List Bytes) : σ × ReadBuffer :=
  pieces.foldl r.deliver (r.settle s rb)

/-- `settle` is `drain` on the readable bytes. -/
theorem settle_refines (s : σ) (rb : ReadBuffer) :
    r.machine.drain s rb.view = ((r.settle s rb).1, (r.settle s rb).2.view) := by
  induction s, rb using settle.induct r with
  | case1 s rb h =>
    have hs : r.settle s rb = (s, rb) := by
      rw [settle]
      split
      · rfl
      · next heq => exact absurd (h.symm.trans heq) (by simp)
    rw [hs, r.machine.drain_of_none (r.turn_none h)]
  | case2 s rb s' rb' h ih =>
    have hs : r.settle s rb = r.settle s' rb' := by
      rw [settle]
      split
      · next heq => exact absurd (h.symm.trans heq) (by simp)
      · next heq =>
        rw [h] at heq
        cases heq
        rfl
    obtain ⟨n, hstep, hview⟩ := r.turn_some h
    rw [hs, r.machine.drain_of_some hstep, ← hview, ih]

/-- What the loop has made of the bytes `b`: the machine, given `b` at once, ends
in the same state and has the same bytes left, up to bytes `unread` that the loop
no longer takes from the socket because it has stopped. -/
def Implements (s : σ) (b : Bytes) (c : σ × ReadBuffer) : Prop :=
  ∃ unread, r.machine.drain s b = (c.1, c.2.view ++ unread) ∧
    (r.reading c.1 = true → unread = [])

/-- Delivering a segment implements the machine on the bytes so far followed by
those of the segment. -/
theorem deliver_implements {s : σ} {b : Bytes} :
    ∀ {c : σ × ReadBuffer} (piece : Bytes),
      r.Implements s b c → r.Implements s (b ++ piece) (r.deliver c piece) := by
  intro c piece
  induction c, piece using deliver.induct r generalizing b with
  | case1 c piece h =>
    rintro ⟨unread, hdrain, hread⟩
    rw [deliver, dif_pos h]
    rcases h with rfl | hstop
    · exact ⟨unread, by rw [List.append_nil]; exact hdrain, hread⟩
    · -- the loop has stopped: the machine has too, and the piece stays unread
      refine ⟨unread ++ piece, ?_, fun hr => absurd hr (by rw [hstop]; simp)⟩
      rw [r.machine.drain_append, hdrain, r.machine.drain_of_none (r.stopped _ hstop),
        List.append_assoc]
  | case2 c piece h ih =>
    intro himpl
    have hdeliver : r.deliver c piece = r.deliver (r.settle c.1
        (c.2.readSome (r.want c.1 c.2 piece) piece).1)
        (c.2.readSome (r.want c.1 c.2 piece) piece).2 := by
      rw [deliver, dif_neg h]
    rw [hdeliver]
    generalize hread' : c.2.readSome (r.want c.1 c.2 piece) piece = read at ih ⊢
    obtain ⟨unread, hdrain, hread⟩ := himpl
    have hreading : r.reading c.1 = true := by
      rw [not_or] at h
      exact Bool.not_eq_false _ ▸ h.2
    rw [hread hreading, List.append_nil] at hdrain
    -- after this read the loop implements the machine on `b ++ taken`
    obtain ⟨taken, htaken⟩ : ∃ taken, read.1.view = c.2.view ++ taken := by
      rw [← hread']
      exact ⟨_, by rw [ReadBuffer.readSome, ReadBuffer.view_committed,
        ReadBuffer.view_ensureWritable]⟩
    have hpiece : piece = taken ++ read.2 := by
      have hmove := c.2.readSome_append (r.want c.1 c.2 piece) piece
      rw [hread', htaken, List.append_assoc] at hmove
      exact (List.append_cancel_left hmove).symm
    rw [hpiece, ← List.append_assoc]
    apply ih
    refine ⟨[], ?_, fun _ => rfl⟩
    rw [r.machine.drain_append, hdrain, ← htaken, r.settle_refines, List.append_nil]

/-- **The loop implements its machine**, however the bytes are cut into segments. -/
theorem run_refines (s : σ) (rb : ReadBuffer) (pieces : List Bytes) :
    r.Implements s (rb.view ++ pieces.flatten) (r.run s rb pieces) := by
  have key : ∀ (ps : List Bytes) (b : Bytes) (c : σ × ReadBuffer),
      r.Implements s b c → r.Implements s (b ++ ps.flatten) (ps.foldl r.deliver c) := by
    intro ps
    induction ps with
    | nil =>
      intro b c hc
      rw [List.flatten_nil, List.append_nil]
      exact hc
    | cons p ps ih =>
      intro b c hc
      rw [List.flatten_cons, List.foldl_cons, ← List.append_assoc]
      exact ih _ _ (r.deliver_implements p hc)
  refine key pieces rb.view _ ⟨[], ?_, fun _ => rfl⟩
  rw [r.settle_refines, List.append_nil]

/-- Two ways of cutting one byte string leave the loop in the same state. -/
theorem run_state_eq (s : σ) (rb : ReadBuffer) {ps qs : List Bytes}
    (h : ps.flatten = qs.flatten) : (r.run s rb ps).1 = (r.run s rb qs).1 := by
  obtain ⟨_, hp, -⟩ := r.run_refines s rb ps
  obtain ⟨_, hq, -⟩ := r.run_refines s rb qs
  rw [h, hq] at hp
  exact (congrArg Prod.fst hp).symm

end Reader

end Shine
