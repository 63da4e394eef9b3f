import Mathlib

/-!
# Labelled transition systems with guarded runs

A system is given by its transition function on labels: `step s e` is the state
after the event `e`, or `none` where `e` cannot happen. `Reach ok s₀ s` says that
some run from `s₀` to `s` takes only steps that satisfy the guard `ok`; results
that need no guard use `Lts.Free`.

- `Reach.invariant`: what holds initially and is kept by every guarded step holds
  in every state reached.
- `Reach.mono`: a stronger guard reaches fewer states.
- `Reach.simulate`: runs of a system carry over along a forward simulation.
- `reach_of_exec`: a list of events whose execution succeeds is a run, so runs on
  concrete states can be computed.
- `exists_stuck`: where every step decreases a rank, some run goes on until nothing can
  happen.
- `Reach.settles`: where any two events that can happen commute, a state in which
  nothing can happen is ahead of every run if it is ahead of one.
-/

namespace Shine

universe u v u' v'

/-- A labelled transition system. -/
structure Lts (σ : Type u) (ε : Type v) where
  step : σ → ε → Option σ

namespace Lts

variable {σ : Type u} {ε : Type v}

/-- The guard that every step satisfies. -/
def Free (_ : σ) (_ : ε) : Prop := True

instance : DecidableRel (Free : σ → ε → Prop) := fun _ _ => .isTrue trivial

/-- The states that runs from `s₀` reach, where every step satisfies `ok`. -/
inductive Reach (M : Lts σ ε) (ok : σ → ε → Prop) (s₀ : σ) : σ → Prop where
  | refl : Reach M ok s₀ s₀
  | tail {s t : σ} {e : ε} : Reach M ok s₀ s → ok s e → M.step s e = some t → Reach M ok s₀ t

variable {M : Lts σ ε} {ok ok' : σ → ε → Prop} {s₀ s t : σ}

/-- **The invariant rule**: a property of the initial state that every guarded step
keeps holds in every state reached. -/
theorem Reach.invariant {P : σ → Prop} (init : P s₀)
    (keep : ∀ s e t, P s → ok s e → M.step s e = some t → P t)
    (h : M.Reach ok s₀ s) : P s := by
  induction h with
  | refl => exact init
  | tail _ hok hstep ih => exact keep _ _ _ ih hok hstep

/-- A run under a stronger guard is a run under a weaker one. -/
theorem Reach.mono (himp : ∀ s e, ok s e → ok' s e) (h : M.Reach ok s₀ s) :
    M.Reach ok' s₀ s := by
  induction h with
  | refl => exact .refl
  | tail _ hok hstep ih => exact ih.tail (himp _ _ hok) hstep

theorem Reach.trans (h : M.Reach ok s₀ s) (h' : M.Reach ok s t) : M.Reach ok s₀ t := by
  induction h' with
  | refl => exact h
  | tail _ hok hstep ih => exact ih.tail hok hstep

/-- **Forward simulation**: if every guarded step of `M` is matched by a guarded run of
`N` between related states, then what `M` reaches is related to something `N` reaches. -/
theorem Reach.simulate {τ : Type u'} {δ : Type v'} {N : Lts τ δ} {okN : τ → δ → Prop} {t₀ : τ}
    {R : σ → τ → Prop} (init : R s₀ t₀)
    (sim : ∀ s e s' t, R s t → ok s e → M.step s e = some s' → ∃ t', N.Reach okN t t' ∧ R s' t')
    (h : M.Reach ok s₀ s) : ∃ t, N.Reach okN t₀ t ∧ R s t := by
  induction h with
  | refl => exact ⟨t₀, .refl, init⟩
  | tail _ hok hstep ih =>
    obtain ⟨t, hreach, hr⟩ := ih
    obtain ⟨t', hreach', hr'⟩ := sim _ _ _ t hr hok hstep
    exact ⟨t', hreach.trans hreach', hr'⟩

/-- Execute a list of events, stopping where one cannot happen or violates the
guard. -/
def exec (M : Lts σ ε) (ok : σ → ε → Prop) [∀ s e, Decidable (ok s e)] (s : σ) :
    List ε → Option σ
  | [] => some s
  | e :: es => if ok s e then (M.step s e).bind fun t => exec M ok t es else none

/-- An execution that succeeds is a guarded run. -/
theorem reach_of_exec [∀ s e, Decidable (ok s e)] (es : List ε) (h : M.exec ok s es = some t) :
    M.Reach ok s t := by
  induction es generalizing s with
  | nil =>
    rw [exec] at h
    cases h
    exact .refl
  | cons e es ih =>
    rw [exec] at h
    split_ifs at h with hok
    obtain ⟨s', hstep, hrest⟩ := Option.bind_eq_some_iff.mp h
    exact (Reach.refl.tail hok hstep).trans (ih hrest)

/-! ## Systems whose events commute -/

/-- Nothing can happen. -/
def Stuck (M : Lts σ ε) (s : σ) : Prop := ∀ e, M.step s e = none

theorem Stuck.eq_of_reach (hs : M.Stuck s) (h : M.Reach ok s t) : t = s := by
  induction h with
  | refl => rfl
  | tail _ _ hstep ih =>
    rw [ih, hs _] at hstep
    cases hstep

/-- **Runs end**: where every step of a state in `P` decreases a rank and stays in `P`, some
run leads to a state where nothing can happen. -/
theorem exists_stuck {P : σ → Prop} (rank : σ → Nat)
    (keep : ∀ ⦃s e t⦄, P s → M.step s e = some t → P t ∧ rank t < rank s) (hs : P s) :
    ∃ t, M.Reach Free s t ∧ M.Stuck t := by
  induction hn : rank s using Nat.strong_induction_on generalizing s with
  | _ n ih =>
    by_cases hstuck : M.Stuck s
    · exact ⟨s, .refl, hstuck⟩
    · obtain ⟨e, he⟩ := not_forall.mp hstuck
      obtain ⟨t, ht⟩ := Option.ne_none_iff_exists'.mp he
      obtain ⟨hp, hlt⟩ := keep hs ht
      obtain ⟨final, hreach, hfinal⟩ := ih (rank t) (hn ▸ hlt) hp rfl
      exact ⟨final, (Reach.refl.tail trivial ht).trans hreach, hfinal⟩

/-- Two events that can happen lead to the same state, or can happen in either order. -/
def Diamond (M : Lts σ ε) : Prop :=
  ∀ ⦃s e e' a b⦄, M.step s e = some a → M.step s e' = some b →
    a = b ∨ ∃ t, M.step a e' = some t ∧ M.step b e = some t

theorem reach_iff_reflTransGen :
    M.Reach Free s t ↔ Relation.ReflTransGen (fun a b => ∃ e, M.step a e = some b) s t := by
  constructor
  · intro h
    induction h with
    | refl => exact .refl
    | tail _ _ hstep ih => exact ih.tail ⟨_, hstep⟩
  · intro h
    induction h with
    | refl => exact .refl
    | tail _ hstep ih => exact ih.tail trivial hstep.choose_spec

/-- **The run does not matter**: if some run ends in a state where nothing can happen,
every run can still go there. -/
theorem Reach.settles {final : σ} (hM : M.Diamond) (hfinal : M.Stuck final)
    (h : M.Reach Free s final) (h' : M.Reach Free s t) : M.Reach Free t final := by
  have hjoin := Relation.church_rosser (r := fun a b => ∃ e, M.step a e = some b) ?_
    (reach_iff_reflTransGen.mp h) (reach_iff_reflTransGen.mp h')
  · obtain ⟨d, hd, hd'⟩ := hjoin
    rw [← hfinal.eq_of_reach (reach_iff_reflTransGen.mpr hd)]
    exact reach_iff_reflTransGen.mpr hd'
  · rintro a b c ⟨e, he⟩ ⟨e', he'⟩
    rcases hM he he' with rfl | ⟨d, hd, hd'⟩
    · exact ⟨b, .refl, .refl⟩
    · exact ⟨d, .single ⟨e', hd⟩, .single ⟨e, hd'⟩⟩

end Lts

end Shine
