import Shine.Core.Pump
import Shine.Proto.ShineFrame

/-!
# Loops that decode frames from a `ReadBuffer`

The handshake, the reader of a link and the round-trip test of the codec all loop
`tryParse`, `decodeShineFrame`, `consume` and differ in what they do with a frame.
`FrameLoop` is what they have in common: between frames the loop may run pieces
that do not look at the buffer (`jump`), and a decoded frame or an error moves it
to another state (`take`). `FrameLoop.machine` runs it on the unconsumed bytes; the
restart of the parser at every segment boundary is absorbed by the stability of
`attempt`.

- `framesOf`: the frames a byte string decodes to, up to the first error;
- `framesOf_append_of_frame`: decoding a first frame is unaffected by what follows.
-/

namespace Shine

/-- A loop over the frames of a byte stream. In a state where `jump` is `some`, the
loop runs a piece of code that does not look at the buffer; where `decoding` holds
it tries to decode a frame; elsewhere it has ended. -/
structure FrameLoop (σ : Type) where
  jump : σ → Option σ
  decoding : σ → Bool
  take : σ → Attempt → σ
  rank : σ → Nat
  jump_rank : ∀ {s s'}, jump s = some s' → rank s' < rank s
  /-- An error ends the decoding. -/
  error_rank : ∀ {s a}, decoding s = true → a ≠ .more → (∀ n f, a ≠ .frame n f) →
    rank (take s a) < rank s

namespace FrameLoop

variable {σ : Type} (loop : FrameLoop σ) (maxBulk : Nat)

/-- The loop's reaction to an attempt in a decoding state; `none`: it waits. -/
def react (s : σ) (a : Attempt) : Option (Nat × σ) :=
  if a = .more then none else some (a.taken, loop.take s a)

/-- One step of the loop on the unconsumed bytes. -/
def step (s : σ) (b : Bytes) : Option (Nat × σ) :=
  match loop.jump s with
  | some s' => some (0, s')
  | none => if loop.decoding s then loop.react s (attempt maxBulk b) else none

theorem step_of_jump {s s' : σ} (h : loop.jump s = some s') (b : Bytes) :
    loop.step maxBulk s b = some (0, s') := by
  simp [step, h]

theorem step_of_decoding {s : σ} (h : loop.jump s = none) (hd : loop.decoding s = true)
    (b : Bytes) : loop.step maxBulk s b = loop.react s (attempt maxBulk b) := by
  simp [step, h, hd]

theorem step_of_ended {s : σ} (h : loop.jump s = none) (hd : loop.decoding s = false)
    (b : Bytes) : loop.step maxBulk s b = none := by
  simp [step, h, hd]

theorem react_some {s s' : σ} {a : Attempt} {n : Nat} (h : loop.react s a = some (n, s')) :
    a ≠ .more ∧ n = a.taken ∧ s' = loop.take s a := by
  unfold react at h
  split_ifs at h with hm
  cases h
  exact ⟨hm, rfl, rfl⟩

/-- The loop as a resumable machine. -/
def machine : Resumable σ UInt8 where
  step := loop.step maxBulk
  rank := loop.rank
  step_le {s b n s'} h := by
    unfold step at h
    split at h
    · cases h
      exact Nat.zero_le _
    · split_ifs at h
      obtain ⟨-, rfl, -⟩ := loop.react_some h
      exact attempt_taken_le maxBulk b
  step_progress {s b n s'} h := by
    unfold step at h
    split at h
    · rename_i hj
      cases h
      exact .inr (loop.jump_rank hj)
    · split_ifs at h with hd
      obtain ⟨hm, rfl, rfl⟩ := loop.react_some h
      cases ha : attempt maxBulk b with
      | frame k f => exact .inl (attempt_frame_pos ha)
      | more => exact absurd ha hm
      | refused e | undecodable k e => exact .inr (loop.error_rank hd (by simp) (by simp))
  step_append {s b r} x h := by
    unfold step at h ⊢
    split at h
    · exact h
    · split_ifs at h ⊢
      obtain ⟨hm, -, -⟩ := loop.react_some h
      rw [attempt_append x rfl hm]
      exact h

/-- One piece of the loop over a `ReadBuffer`. -/
def turn (s : σ) (rb : ReadBuffer) : Option (σ × ReadBuffer) :=
  match loop.jump s with
  | some s' => some (s', rb)
  | none =>
    if loop.decoding s then
      (loop.react s (readAttempt maxBulk rb)).map fun r => (r.2, rb.consume r.1)
    else none

theorem turn_none {s : σ} {rb : ReadBuffer} (h : loop.turn maxBulk s rb = none) :
    loop.step maxBulk s rb.view = none := by
  unfold turn at h
  unfold step
  split at h
  · cases h
  · split_ifs at h ⊢
    · rwa [Option.map_eq_none_iff, readAttempt_eq] at h
    · rfl

theorem turn_some {s s' : σ} {rb rb' : ReadBuffer} (h : loop.turn maxBulk s rb = some (s', rb')) :
    ∃ n, loop.step maxBulk s rb.view = some (n, s') ∧ rb'.view = rb.view.drop n := by
  unfold turn at h
  unfold step
  split at h
  · cases h
    exact ⟨0, rfl, List.drop_zero.symm⟩
  · split_ifs at h ⊢
    rw [readAttempt_eq] at h
    obtain ⟨⟨n, t⟩, hr, heq⟩ := Option.map_eq_some_iff.mp h
    cases heq
    refine ⟨n, hr, rb.view_consume ?_⟩
    obtain ⟨-, rfl, -⟩ := loop.react_some hr
    exact attempt_taken_le maxBulk rb.view

/-- The loop reading from a socket; `want` is the argument that it passes to
`ensure_writable` before each read. -/
def reader (want : σ → ReadBuffer → Bytes → Nat) (hwant : ∀ s rb piece, 0 < want s rb piece) :
    Reader σ where
  turn := loop.turn maxBulk
  want := want
  reading s := (loop.jump s).isSome || loop.decoding s
  machine := loop.machine maxBulk
  want_pos := hwant
  turn_none := loop.turn_none maxBulk
  turn_some := loop.turn_some maxBulk
  stopped {s} b h := by
    rw [Bool.or_eq_false_iff] at h
    exact loop.step_of_ended maxBulk (by simpa using h.1) h.2 b

end FrameLoop

/-! ## The frames in a byte string -/

/-- The frames a byte string decodes to, up to the first error or the first
incomplete frame. -/
def framesOf (maxBulk : Nat) (b : Bytes) : List ShineFrame :=
  match _h : attempt maxBulk b with
  | .frame n f => f :: framesOf maxBulk (b.drop n)
  | _ => []
termination_by b.length
decreasing_by
  have hpos := attempt_frame_pos _h
  have hle := attempt_taken_le maxBulk b
  rw [_h] at hle
  rw [List.length_drop]
  exact Nat.sub_lt_of_pos_le hpos hle

/-- Decoding a first frame is unaffected by what follows. -/
theorem framesOf_append_of_frame {maxBulk : Nat} {b : Bytes} {n : Nat} {f : ShineFrame}
    (h : attempt maxBulk b = .frame n f) (x : Bytes) :
    framesOf maxBulk (b ++ x) = f :: framesOf maxBulk (b.drop n ++ x) := by
  have hle : n ≤ b.length := by
    have := attempt_taken_le maxBulk b
    rwa [h] at this
  have hx := attempt_append x h (by simp)
  rw [framesOf]
  split
  · rename_i k g hk
    rw [hx] at hk
    cases hk
    rw [List.drop_append_of_le_length hle]
  · rename_i hne
    exact absurd hx (hne n f)

end Shine
