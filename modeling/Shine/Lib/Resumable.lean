import Mathlib

/-!
# Resumable machines: consumers of a byte stream that arrives in pieces

A reader over a stream transport sees its input in pieces whose boundaries it
does not choose. It looks at the items received and not yet consumed and either
takes a step — consuming some of them and changing state — or waits for more.

`Resumable σ α` packages such a reader together with the one law that makes the
piece boundaries unobservable: **a step, once enabled, is not changed by items
arriving behind it** (`step_append`). Everything else follows from it by a
well-founded induction on the items left and the rank of the state.

- `drain`: take steps until the machine waits;
- `drain_append`: draining `b ++ x` is draining `b`, then draining what is left
  of it followed by `x`, so two ways of cutting one stream end in the same state.
-/

namespace Shine

universe u v

/-- A reader over a stream that arrives in pieces: `step s b` is `none` when the
machine, in state `s` with `b` received and unconsumed, waits for more input (or
has stopped), and `some (n, s')` when it consumes the first `n` items and
continues in `s'`. A step may consume nothing as long as the rank decreases. -/
structure Resumable (σ : Type u) (α : Type v) where
  step : σ → List α → Option (Nat × σ)
  rank : σ → Nat
  step_le : ∀ {s b n s'}, step s b = some (n, s') → n ≤ b.length
  step_progress : ∀ {s b n s'}, step s b = some (n, s') → 0 < n ∨ rank s' < rank s
  step_append : ∀ {s b r} (x : List α), step s b = some r → step s (b ++ x) = some r

namespace Resumable

variable {σ : Type u} {α : Type v} (m : Resumable σ α)

/-- A step makes the pair (items left, rank) lexicographically smaller. -/
theorem step_decreases {s s' : σ} {b : List α} {n : Nat}
    (h : m.step s b = some (n, s')) :
    Prod.Lex (· < ·) (· < ·) ((b.drop n).length, m.rank s') (b.length, m.rank s) := by
  have hle := m.step_le h
  rw [Prod.lex_def, List.length_drop]
  rcases m.step_progress h with hn | hr
  · exact Or.inl (by simp only; omega)
  · rcases Nat.eq_zero_or_pos n with rfl | hn
    · exact Or.inr ⟨by simp, hr⟩
    · exact Or.inl (by simp only; omega)

/-- Take steps until the machine waits; the second component is what is left
unconsumed. -/
def drain (s : σ) (b : List α) : σ × List α :=
  match _h : m.step s b with
  | none => (s, b)
  | some (n, s') => drain s' (b.drop n)
termination_by (b.length, m.rank s)
decreasing_by exact m.step_decreases _h

theorem drain_of_none {s : σ} {b : List α} (h : m.step s b = none) :
    m.drain s b = (s, b) := by
  rw [drain]
  split
  · rfl
  · next heq =>
    rw [h] at heq
    cases heq

theorem drain_of_some {s s' : σ} {b : List α} {n : Nat}
    (h : m.step s b = some (n, s')) :
    m.drain s b = m.drain s' (b.drop n) := by
  rw [drain]
  split
  · next heq =>
    rw [h] at heq
    cases heq
  · next heq =>
    rw [h] at heq
    cases heq
    rfl

/-- Induction along the steps `drain` takes. -/
theorem drain_induction {P : σ → List α → Prop}
    (wait : ∀ s b, m.step s b = none → P s b)
    (move : ∀ s b n s', m.step s b = some (n, s') → P s' (b.drop n) → P s b)
    (s : σ) (b : List α) : P s b := by
  induction s, b using drain.induct m with
  | case1 s b h => exact wait s b h
  | case2 s b n s' h ih => exact move s b n s' h ih

/-- **Piece boundaries are unobservable**: draining `b ++ x` is draining `b` and
then draining its unconsumed rest followed by `x`. -/
theorem drain_append (s : σ) (b x : List α) :
    m.drain s (b ++ x) = m.drain (m.drain s b).1 ((m.drain s b).2 ++ x) := by
  induction s, b using m.drain_induction with
  | wait s b h => rw [m.drain_of_none h]
  | move s b n s' h ih =>
    rw [m.drain_of_some h, m.drain_of_some (m.step_append x h),
      List.drop_append_of_le_length (m.step_le h)]
    exact ih

end Resumable

end Shine
