import Mathlib

/-!
# Coroutines and what they achieve under interference

A coroutine over operations `Op` is a tree of calls: it suspends at every call and
goes on with the answer. Besides sequencing there are loops that carry a state and
the parallel composition that awaits two coroutines. What the operations do to the
state of the world is a relation `exec`; between any two steps of the coroutine the
environment may move the world along a relation `env`.

- `Co`: the syntax, a monad; `Step` and `Run`: its steps, alone and with interference.
- `Meets exec env P c Q`: whenever `c` is started in a world that satisfies `P` and
  returns `a`, the world satisfies `Q a`.
- `Meets.ret`, `Meets.call`, `Meets.bind`, `Meets.both`: the rules. In the one for
  `both` each side has to tolerate every operation of the other.
- `Meets.keep`: what every operation and the environment keep, every coroutine keeps.
  Loops are handled by this rule.
-/

namespace Shine

/-- A coroutine that returns an `α`. -/
inductive Co (Op : Type) (Ans : Op → Type) : Type → Type 1 where
  | ret {α : Type} (a : α) : Co Op Ans α
  /-- Await an operation. -/
  | call {α : Type} (op : Op) (k : Ans op → Co Op Ans α) : Co Op Ans α
  /-- Repeat `body`, from the state `b`, until it returns a result. -/
  | iter {α β γ : Type} (body : β → Co Op Ans (β ⊕ γ)) (b : β) (k : γ → Co Op Ans α) :
    Co Op Ans α
  /-- Await two coroutines that run concurrently. -/
  | both {α : Type} (m n : Co Op Ans Unit) (k : Co Op Ans α) : Co Op Ans α

namespace Co

variable {Op : Type} {Ans : Op → Type} {α β γ : Type}

/-- Sequencing. -/
def bind {α β : Type} : Co Op Ans α → (α → Co Op Ans β) → Co Op Ans β
  | .ret a, f => f a
  | .call op k, f => .call op fun r => (k r).bind f
  | .iter body b k, f => .iter body b fun c => (k c).bind f
  | .both m n k, f => .both m n (k.bind f)

instance : Monad (Co Op Ans) where
  pure := .ret
  bind := .bind

/-- A single operation. -/
def await (op : Op) : Co Op Ans (Ans op) := .call op .ret

/-- A loop as a coroutine of its own. -/
def loop (body : β → Co Op Ans (β ⊕ γ)) (b : β) : Co Op Ans γ := .iter body b .ret

/-- `co_await (m && n)`. -/
def par (m n : Co Op Ans Unit) : Co Op Ans Unit := .both m n (.ret ())


theorem bind_assoc {δ : Type} (m : Co Op Ans α) (f : α → Co Op Ans β) (g : β → Co Op Ans δ) :
    (m.bind f).bind g = m.bind fun a => (f a).bind g := by
  induction m with
  | ret a => rfl
  | call op k ih => exact congrArg (Co.call op) (funext fun r => ih r f)
  | iter body b k _ ih => exact congrArg (Co.iter body b) (funext fun c => ih c f)
  | both m n k _ _ ih => exact congrArg (Co.both m n) (ih f)

/-- A sequence has returned when its second part has. -/
theorem bind_eq_ret {m : Co Op Ans α} {f : α → Co Op Ans β} {b : β} (h : m.bind f = .ret b) :
    ∃ a, m = .ret a ∧ f a = .ret b := by
  cases m with
  | ret a => exact ⟨a, rfl, h⟩
  | call _ _ | iter _ _ _ | both _ _ _ => nomatch h

/-! ## Steps and runs -/

variable {W : Type}

/-- The steps of a coroutine in the world. -/
inductive Step (exec : W → (op : Op) → Ans op → W → Prop) :
    {α : Type} → Co Op Ans α → W → Co Op Ans α → W → Prop where
  | call {α : Type} {op : Op} {k : Ans op → Co Op Ans α} {r : Ans op} {w w' : W} :
    exec w op r w' → Step exec (.call op k) w (k r) w'
  | iter {α β γ : Type} {body : β → Co Op Ans (β ⊕ γ)} {b : β} {k : γ → Co Op Ans α} {w : W} :
    Step exec (.iter body b k) w ((body b).bind (Sum.elim (.iter body · k) k)) w
  | left {α : Type} {m m' n : Co Op Ans Unit} {k : Co Op Ans α} {w w' : W} :
    Step exec m w m' w' → Step exec (.both m n k) w (.both m' n k) w'
  | right {α : Type} {m n n' : Co Op Ans Unit} {k : Co Op Ans α} {w w' : W} :
    Step exec n w n' w' → Step exec (.both m n k) w (.both m n' k) w'
  | joined {α : Type} {k : Co Op Ans α} {w : W} :
    Step exec (.both (.ret ()) (.ret ()) k) w k w

variable (exec : W → (op : Op) → Ans op → W → Prop) (env : W → W → Prop)

/-- The runs of a coroutine, its steps interleaved with those of the environment. -/
inductive Run (c : Co Op Ans α) (w : W) : Co Op Ans α → W → Prop where
  | refl : Run c w c w
  | own {c' c'' : Co Op Ans α} {w' w'' : W} :
    Run c w c' w' → Step exec c' w' c'' w'' → Run c w c'' w''
  | env {c' : Co Op Ans α} {w' w'' : W} : Run c w c' w' → env w' w'' → Run c w c' w''

/-- Some operation takes one world to the other. -/
def Acts (w w' : W) : Prop := ∃ op r, exec w op r w'

/-- The environment of one side of a parallel composition. -/
def Beside (w w' : W) : Prop := env w w' ∨ Acts exec w w'

variable {exec env}

/-- A step either changes nothing in the world or is an operation. -/
theorem Step.world {c c' : Co Op Ans α} {w w' : W} (h : Step exec c w c' w') :
    w' = w ∨ Acts exec w w' := by
  induction h with
  | call hexec => exact .inr ⟨_, _, hexec⟩
  | iter | joined => exact .inl rfl
  | left _ ih | right _ ih => exact ih

/-- The pending call of a run is answered. -/
theorem Run.call {c : Co Op Ans α} {op : Op} {k : Ans op → Co Op Ans α} {w w' w'' : W}
    (h : Run exec env c w (.call op k) w') (r : Ans op) (hexec : exec w' op r w'') :
    Run exec env c w (k r) w'' :=
  h.own (.call hexec)

theorem Run.trans {c c' c'' : Co Op Ans α} {w w' w'' : W} (h : Run exec env c w c' w')
    (h' : Run exec env c' w' c'' w'') : Run exec env c w c'' w'' := by
  induction h' with
  | refl => exact h
  | own _ hstep ih => exact ih.own hstep
  | env _ henv ih => exact ih.env henv

/-- A step of the first part is a step of the sequence. -/
theorem Step.bind {m m' : Co Op Ans α} {w w' : W} (h : Step exec m w m' w')
    (f : α → Co Op Ans β) : Step exec (m.bind f) w (m'.bind f) w' := by
  cases h with
  | call hexec => exact .call hexec
  | @iter _ _ _ body b k _ =>
    have hk : (fun r => (Sum.elim (.iter body · k) k r).bind f) =
        Sum.elim (.iter body · fun c => (k c).bind f) fun c => (k c).bind f := by
      funext r
      cases r <;> rfl
    rw [bind_assoc, hk]
    exact .iter
  | left hm => exact .left hm
  | right hn => exact .right hn
  | joined => exact .joined

theorem Run.bind {m m' : Co Op Ans α} {w w' : W} (h : Run exec env m w m' w')
    (f : α → Co Op Ans β) : Run exec env (m.bind f) w (m'.bind f) w' := by
  induction h with
  | refl => exact .refl
  | own _ hstep ih => exact ih.own (hstep.bind f)
  | env _ henv ih => exact ih.env henv

theorem Run.left {m m' n : Co Op Ans Unit} {k : Co Op Ans α} {w w' : W}
    (h : Run exec env m w m' w') : Run exec env (.both m n k) w (.both m' n k) w' := by
  induction h with
  | refl => exact .refl
  | own _ hstep ih => exact ih.own (.left hstep)
  | env _ henv ih => exact ih.env henv

/-- A step of a sequence is a step of its first part, unless that has returned. -/
theorem Step.bind_inv {m : Co Op Ans α} {f : α → Co Op Ans β} {c : Co Op Ans β} {w w' : W}
    (h : Step exec (m.bind f) w c w') :
    (∃ a, m = .ret a) ∨ ∃ m', Step exec m w m' w' ∧ c = m'.bind f := by
  cases m with
  | ret a => exact .inl ⟨a, rfl⟩
  | call op k =>
    cases h with
    | call hexec => exact .inr ⟨_, .call hexec, rfl⟩
  | iter body b k =>
    cases h with
    | iter =>
      refine .inr ⟨_, .iter, ?_⟩
      rw [bind_assoc]
      congr 1
      funext r
      cases r <;> rfl
  | both m n k =>
    cases h with
    | left hm => exact .inr ⟨_, .left hm, rfl⟩
    | right hn => exact .inr ⟨_, .right hn, rfl⟩
    | joined => exact .inr ⟨_, .joined, rfl⟩

/-- A run of a sequence is a run of its first part, or that has returned and its second
part runs. -/
theorem Run.bind_inv {m : Co Op Ans α} {f : α → Co Op Ans β} {c : Co Op Ans β} {w w' : W}
    (h : Run exec env (m.bind f) w c w') :
    (∃ m', Run exec env m w m' w' ∧ c = m'.bind f) ∨
      ∃ a w₁, Run exec env m w (.ret a) w₁ ∧ Run exec env (f a) w₁ c w' := by
  induction h with
  | refl => exact .inl ⟨m, .refl, rfl⟩
  | own _ hstep ih =>
    obtain ⟨m', hrun, rfl⟩ | ⟨a, w₁, hm, hf⟩ := ih
    · obtain ⟨a, rfl⟩ | ⟨m'', hstep', rfl⟩ := hstep.bind_inv
      · exact .inr ⟨a, _, hrun, .own .refl hstep⟩
      · exact .inl ⟨m'', hrun.own hstep', rfl⟩
    · exact .inr ⟨a, w₁, hm, hf.own hstep⟩
  | env _ henv ih =>
    obtain ⟨m', hrun, rfl⟩ | ⟨a, w₁, hm, hf⟩ := ih
    · exact .inl ⟨m', hrun.env henv, rfl⟩
    · exact .inr ⟨a, w₁, hm, hf.env henv⟩

/-! ## Pre- and postconditions -/

variable (exec env)

/-- Started in a world that satisfies `P`, whenever `c` has returned `a` the world
satisfies `Q a`. -/
def Meets (P : W → Prop) (c : Co Op Ans α) (Q : α → W → Prop) : Prop :=
  ∀ w, P w → ∀ a w', Run exec env c w (.ret a) w' → Q a w'

/-- The relation does not invalidate `P`. -/
def Stable (R : W → W → Prop) (P : W → Prop) : Prop := ∀ w w', P w → R w w' → P w'

variable {exec env} {P P' : W → Prop} {Q Q' : α → W → Prop}

theorem Stable.and {R : W → W → Prop} (h : Stable R P) (h' : Stable R P') :
    Stable R fun w => P w ∧ P' w :=
  fun w w' hw hr => ⟨h w w' hw.1 hr, h' w w' hw.2 hr⟩

theorem Meets.weaken {c : Co Op Ans α} (h : Meets exec env P c Q) (hpre : ∀ w, P' w → P w)
    (hpost : ∀ a w, Q a w → Q' a w) : Meets exec env P' c Q' :=
  fun w hw a w' hrun => hpost a w' (h w (hpre w hw) a w' hrun)

/-- **Frame rule**: what every operation and the environment keep, a coroutine keeps. -/
theorem Run.keep (hown : Stable (Acts exec) P) (henv : Stable env P) {c c' : Co Op Ans α}
    {w w' : W} (h : Run exec env c w c' w') (hw : P w) : P w' := by
  induction h with
  | refl => exact hw
  | own _ hstep ih =>
    obtain rfl | hact := hstep.world
    · exact ih
    · exact hown _ _ ih hact
  | env _ he ih => exact henv _ _ ih he

theorem Meets.keep (hown : Stable (Acts exec) P) (henv : Stable env P) (c : Co Op Ans α) :
    Meets exec env P c fun _ => P :=
  fun _ hw _ _ hrun => hrun.keep hown henv hw

/-- After a coroutine has returned only the environment moves. -/
theorem Meets.ret {a : α} (hpre : ∀ w, P w → Q a w) (henv : Stable env (Q a)) :
    Meets exec env P (.ret a) Q := by
  intro w hw b w' hrun
  have key : ∀ (c : Co Op Ans α) w', Run exec env (.ret a) w c w' → c = .ret a ∧ Q a w' := by
    intro c w' h
    induction h with
    | refl => exact ⟨rfl, hpre w hw⟩
    | own _ hstep ih =>
      rw [ih.1] at hstep
      nomatch hstep
    | env _ he ih => exact ⟨ih.1, henv _ _ ih.2 he⟩
  obtain ⟨heq, hq⟩ := key _ _ hrun
  cases heq
  exact hq

/-- While a call is pending the environment moves; then the operation takes effect. -/
theorem Meets.call {op : Op} {k : Ans op → Co Op Ans α} {R : Ans op → W → Prop}
    (henv : Stable env P) (hop : ∀ w r w', P w → exec w op r w' → R r w')
    (hk : ∀ r, Meets exec env (R r) (k r) Q) : Meets exec env P (.call op k) Q := by
  intro w hw a w' hrun
  have key : ∀ (c : Co Op Ans α) w', Run exec env (.call op k) w c w' →
      (c = .call op k ∧ P w') ∨ ∃ r w₁, R r w₁ ∧ Run exec env (k r) w₁ c w' := by
    intro c w' h
    induction h with
    | refl => exact .inl ⟨rfl, hw⟩
    | own _ hstep ih =>
      obtain ⟨rfl, hp⟩ | ⟨r, w₁, hr, hrun'⟩ := ih
      · cases hstep with
        | call hexec => exact .inr ⟨_, _, hop _ _ _ hp hexec, .refl⟩
      · exact .inr ⟨r, w₁, hr, hrun'.own hstep⟩
    | env _ he ih =>
      obtain ⟨rfl, hp⟩ | ⟨r, w₁, hr, hrun'⟩ := ih
      · exact .inl ⟨rfl, henv _ _ hp he⟩
      · exact .inr ⟨r, w₁, hr, hrun'.env he⟩
  obtain ⟨hc, -⟩ | ⟨r, w₁, hr, hrun'⟩ := key _ _ hrun
  · nomatch hc
  · exact hk r w₁ hr a w' hrun'

theorem Meets.bind {m : Co Op Ans β} {f : β → Co Op Ans α} {R : β → W → Prop}
    (hm : Meets exec env P m R) (hf : ∀ b, Meets exec env (R b) (f b) Q) :
    Meets exec env P (m.bind f) Q := by
  intro w hw a w' hrun
  obtain ⟨m', hrun', heq⟩ | ⟨b, w₁, hrunm, hrunf⟩ := hrun.bind_inv
  · obtain ⟨b, rfl, hb⟩ := bind_eq_ret heq.symm
    exact hf b w' (hm w hw b w' hrun') a w' (hb ▸ .refl)
  · exact hf b w₁ (hm w hw b w₁ hrunm) a w' hrunf

/-- The step of one side, seen from the other. -/
theorem Run.beside {c d d' d'' : Co Op Ans Unit} {w w' w'' : W}
    (h : Run exec (Beside exec env) c w d w') (hstep : Step exec d' w' d'' w'') :
    Run exec (Beside exec env) c w d w'' := by
  obtain rfl | hact := hstep.world
  · exact h
  · exact h.env (.inr hact)

/-- The rule for parallel composition. -/
theorem Meets.both {m n : Co Op Ans Unit} {k : Co Op Ans α} {M N : W → Prop}
    (hm : Meets exec (Beside exec env) P m fun _ => M)
    (hn : Meets exec (Beside exec env) P n fun _ => N)
    (hk : Meets exec env (fun w => M w ∧ N w) k Q) : Meets exec env P (.both m n k) Q := by
  intro w hw a w' hrun
  have key : ∀ (c : Co Op Ans α) w', Run exec env (.both m n k) w c w' →
      (∃ m' n', c = .both m' n' k ∧ Run exec (Beside exec env) m w m' w' ∧
        Run exec (Beside exec env) n w n' w') ∨
      ∃ w₁, (M w₁ ∧ N w₁) ∧ Run exec env k w₁ c w' := by
    intro c w' h
    induction h with
    | refl => exact .inl ⟨m, n, rfl, .refl, .refl⟩
    | own _ hstep ih =>
      obtain ⟨m', n', rfl, hrm, hrn⟩ | ⟨w₁, h₁, hrk⟩ := ih
      · cases hstep with
        | left hs => exact .inl ⟨_, n', rfl, hrm.own hs, hrn.beside hs⟩
        | right hs => exact .inl ⟨m', _, rfl, hrm.beside hs, hrn.own hs⟩
        | joined => exact .inr ⟨_, ⟨hm w hw () _ hrm, hn w hw () _ hrn⟩, .refl⟩
      · exact .inr ⟨w₁, h₁, hrk.own hstep⟩
    | env _ he ih =>
      obtain ⟨m', n', rfl, hrm, hrn⟩ | ⟨w₁, h₁, hrk⟩ := ih
      · exact .inl ⟨m', n', rfl, hrm.env (.inl he), hrn.env (.inl he)⟩
      · exact .inr ⟨w₁, h₁, hrk.env he⟩
  obtain ⟨m', n', hc, -⟩ | ⟨w₁, h₁, hrk⟩ := key _ _ hrun
  · nomatch hc
  · exact hk w₁ h₁ a w' hrk

end Co

end Shine
