import Shine.Lib.Coroutine

/-!
# Calls that a coroutine never makes

A coroutine is run with any answers to its calls. `Never bad c` says that it gets to no
point where it makes one of the `bad` calls. `Clean` is the condition on the text of the
coroutine that implies it: none of the calls in it is bad, whatever the answers before it.
It goes through sequences, loops and parallel composition (`Clean.bind`, `Clean.loop`,
`Clean.par`).
-/

namespace Shine

namespace Co

variable {Op : Type} {Ans : Op → Type} {α β γ : Type}

/-- A call may be answered in any way. -/
def anyAnswer (_ : Unit) (op : Op) (_ : Ans op) (_ : Unit) : Prop := True

/-- The coroutine gets from `c` to `c'`. -/
def Reaches (c c' : Co Op Ans α) : Prop := Run anyAnswer (fun _ _ => False) c () c' ()

/-- The calls that the coroutine is about to make. -/
inductive Awaits : {α : Type} → Co Op Ans α → Op → Prop where
  | call {α : Type} {op : Op} {k : Ans op → Co Op Ans α} : Awaits (.call op k) op
  | left {α : Type} {m n : Co Op Ans Unit} {k : Co Op Ans α} {op : Op} :
    Awaits m op → Awaits (.both m n k) op
  | right {α : Type} {m n : Co Op Ans Unit} {k : Co Op Ans α} {op : Op} :
    Awaits n op → Awaits (.both m n k) op

theorem Awaits.bind {c : Co Op Ans α} {op : Op} (h : Awaits c op) (f : α → Co Op Ans β) :
    Awaits (c.bind f) op := by
  cases h with
  | call => exact .call
  | left h => exact .left h
  | right h => exact .right h

/-- None of the bad calls is ever made. -/
def Never (bad : Op → Prop) (c : Co Op Ans α) : Prop :=
  ∀ c', Reaches c c' → ∀ op, Awaits c' op → ¬ bad op

/-- No call in the text of the coroutine is bad. -/
def Clean (bad : Op → Prop) : {α : Type} → Co Op Ans α → Prop
  | _, .ret _ => True
  | _, .call op k => ¬ bad op ∧ ∀ r, (k r).Clean bad
  | _, .iter body _ k => (∀ b, (body b).Clean bad) ∧ ∀ c, (k c).Clean bad
  | _, .both m n k => m.Clean bad ∧ n.Clean bad ∧ k.Clean bad

section Rules

variable {bad : Op → Prop}

theorem Clean.ret (a : α) : Clean bad (.ret a : Co Op Ans α) := trivial

theorem Clean.await {op : Op} (h : ¬ bad op) : Clean bad (Co.await op : Co Op Ans (Ans op)) :=
  ⟨h, fun _ => trivial⟩

theorem Clean.bind {m : Co Op Ans α} {f : α → Co Op Ans β} (hm : Clean bad m)
    (hf : ∀ a, Clean bad (f a)) : Clean bad (m.bind f) := by
  induction m with
  | ret a => exact hf a
  | call op k ih => exact ⟨hm.1, fun r => ih r (hm.2 r) hf⟩
  | iter body b k _ ih => exact ⟨hm.1, fun c => ih c (hm.2 c) hf⟩
  | both m n k _ _ ih => exact ⟨hm.1, hm.2.1, ih hm.2.2 hf⟩

theorem Clean.loop {body : β → Co Op Ans (β ⊕ γ)} {b : β} (h : ∀ b, Clean bad (body b)) :
    Clean bad (Co.loop body b) :=
  ⟨h, fun _ => trivial⟩

theorem Clean.par {m n : Co Op Ans Unit} (hm : Clean bad m) (hn : Clean bad n) :
    Clean bad (Co.par m n) :=
  ⟨hm, hn, trivial⟩

variable {W : Type} {exec : W → (op : Op) → Ans op → W → Prop} {env : W → W → Prop}

/-- What has been executed of a clean coroutine does not matter. -/
theorem Clean.step {c c' : Co Op Ans α} {w w' : W} (h : Clean bad c) (hstep : Step exec c w c' w') :
    Clean bad c' := by
  induction hstep with
  | call _ => exact h.2 _
  | @iter _ _ _ body b k _ =>
    refine (h.1 b).bind fun r => ?_
    cases r with
    | inl b => exact h
    | inr c => exact h.2 c
  | left _ ih => exact ⟨ih h.1, h.2⟩
  | right _ ih => exact ⟨h.1, ih h.2.1, h.2.2⟩
  | joined => exact h.2.2

theorem Clean.run {c c' : Co Op Ans α} {w w' : W} (h : Clean bad c)
    (hrun : Run exec env c w c' w') : Clean bad c' := by
  induction hrun with
  | refl => exact h
  | own _ hstep ih => exact ih.step hstep
  | env _ _ ih => exact ih

theorem Clean.awaits {c : Co Op Ans α} {op : Op} (h : Clean bad c) (hop : Awaits c op) :
    ¬ bad op := by
  induction hop with
  | call => exact h.1
  | left _ ih => exact ih h.1
  | right _ ih => exact ih h.2.1

/-- **A clean coroutine never makes a bad call.** -/
theorem Clean.never {c : Co Op Ans α} (h : Clean bad c) : Never bad c :=
  fun _ hreach _ hop => (h.run hreach).awaits hop

/-- A coroutine that has returned stays where it is. -/
theorem Run.eq_ret {a : α} {c : Co Op Ans α} {w w' : W} (h : Run exec env (.ret a) w c w') :
    c = .ret a := by
  induction h with
  | refl => rfl
  | own _ hstep ih =>
    subst ih
    cases hstep
  | env _ _ ih => exact ih

end Rules

end Co

end Shine
