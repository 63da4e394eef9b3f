import Shine.Lib.Calls

/-!
# Assertions at the calls of a coroutine

A coroutine runs alone. `Upholds exec Pre c Q w` is a condition on the text of `c`: started in
the world `w`, every call that it is about to make satisfies `Pre` in the world at that time,
and if it returns `a` then `Q a` holds. A loop has an invariant; of two parallel coroutines the
second makes passive calls only, which change nothing and are always right.

- `Upholds.bind`, `Upholds.mono`: the rules.
- `Upholds.awaits_run`: the calls of every run satisfy the assertion.
- `Returns`: for the converse, runs put together piece by piece (`Returns.bind`,
  `Returns.turn`).
-/

namespace Shine

namespace Co

variable {Op : Type} {Ans : Op → Type} {α β γ : Type} {W : Type}

/-- There is no interference. -/
def Alone (_ _ : W) : Prop := False

section Upholds

variable (exec : W → (op : Op) → Ans op → W → Prop) (Pre : W → Op → Prop)

/-- The call is right at any time, and changes nothing. -/
def Passive (op : Op) : Prop := ∀ w, Pre w op ∧ ∀ r w', exec w op r w' → w' = w

/-- Every call satisfies the assertion `Pre`, and what is returned the postcondition. -/
def Upholds : {α : Type} → Co Op Ans α → (α → W → Prop) → W → Prop
  | _, .ret a, Q, w => Q a w
  | _, .call op k, Q, w => Pre w op ∧ ∀ r w', exec w op r w' → Upholds (k r) Q w'
  | _, .iter body b k, Q, w => ∃ I : _ → W → Prop, I b w ∧ ∀ b w, I b w →
      Upholds (body b) (fun r w => Sum.elim (I · w) (fun c => Upholds (k c) Q w) r) w
  | _, .both m n k, Q, w => Clean (fun op => ¬ Passive exec Pre op) n ∧
      Upholds m (fun _ w => Upholds k Q w) w

variable {exec Pre} {Q Q' : α → W → Prop} {w w' : W}

theorem Upholds.mono {c : Co Op Ans α} (h : Upholds exec Pre c Q w)
    (hQ : ∀ a w, Q a w → Q' a w) : Upholds exec Pre c Q' w := by
  induction c generalizing w with
  | ret a => exact hQ a w h
  | call op k ih => exact ⟨h.1, fun r w' hexec => ih r (h.2 r w' hexec) hQ⟩
  | iter body b k ihbody ihk =>
    obtain ⟨I, hb, hbody⟩ := h
    refine ⟨I, hb, fun b w hI => ihbody b (hbody b w hI) fun r w hr => ?_⟩
    cases r with
    | inl b => exact hr
    | inr c => exact ihk c hr hQ
  | both m n k ihm _ ihk => exact ⟨h.1, ihm h.2 fun _ w hk => ihk hk hQ⟩

theorem Upholds.bind {m : Co Op Ans α} {f : α → Co Op Ans β} {Q : β → W → Prop}
    (h : Upholds exec Pre m (fun a w => Upholds exec Pre (f a) Q w) w) :
    Upholds exec Pre (m.bind f) Q w := by
  induction m generalizing w with
  | ret a => exact h
  | call op k ih => exact ⟨h.1, fun r w' hexec => ih r (h.2 r w' hexec)⟩
  | iter body b k _ ihk =>
    obtain ⟨I, hb, hbody⟩ := h
    refine ⟨I, hb, fun b w hI => (hbody b w hI).mono fun r w hr => ?_⟩
    cases r with
    | inl b => exact hr
    | inr c => exact ihk c hr
  | both m n k _ _ ihk => exact ⟨h.1, h.2.mono fun _ w hk => ihk hk⟩

theorem Upholds.await {op : Op} {Q : Ans op → W → Prop} (hpre : Pre w op)
    (h : ∀ r w', exec w op r w' → Q r w') : Upholds exec Pre (Co.await op) Q w :=
  ⟨hpre, h⟩

/-- The rule for a loop with the invariant `I`. -/
theorem Upholds.loop {body : β → Co Op Ans (β ⊕ γ)} {b : β} {Q : γ → W → Prop}
    (I : β → W → Prop) (hb : I b w)
    (hbody : ∀ b w, I b w → Upholds exec Pre (body b) (fun r w => Sum.elim (I · w) (Q · w) r) w) :
    Upholds exec Pre (Co.loop body b) Q w :=
  ⟨I, hb, hbody⟩

theorem Upholds.par {m n : Co Op Ans Unit} {Q : Unit → W → Prop}
    (hn : Clean (fun op => ¬ Passive exec Pre op) n) (hm : Upholds exec Pre m Q w) :
    Upholds exec Pre (Co.par m n) Q w :=
  ⟨hn, hm⟩

/-- Passive calls change nothing. -/
theorem Clean.passive_step {c c' : Co Op Ans α} (h : Clean (fun op => ¬ Passive exec Pre op) c)
    (hstep : Step exec c w c' w') : w' = w := by
  induction hstep with
  | call hexec => exact (not_not.mp h.1 _).2 _ _ hexec
  | iter => rfl
  | left _ ih => exact ih h.1
  | right _ ih => exact ih h.2.1
  | joined => rfl

theorem Upholds.step {c c' : Co Op Ans α} (h : Upholds exec Pre c Q w)
    (hstep : Step exec c w c' w') : Upholds exec Pre c' Q w' := by
  induction hstep with
  | call hexec => exact h.2 _ _ hexec
  | iter =>
    obtain ⟨I, hb, hbody⟩ := h
    refine .bind ((hbody _ _ hb).mono fun r w hr => ?_)
    cases r with
    | inl b => exact ⟨I, hr, hbody⟩
    | inr c => exact hr
  | left _ ih => exact ⟨h.1, ih h.2⟩
  | right hn _ =>
    rw [h.1.passive_step hn]
    exact ⟨h.1.step hn, h.2⟩
  | joined => exact h.2

theorem Upholds.run {c c' : Co Op Ans α} (h : Upholds exec Pre c Q w)
    (hrun : Run exec Alone c w c' w') : Upholds exec Pre c' Q w' := by
  induction hrun with
  | refl => exact h
  | own _ hstep ih => exact ih.step hstep
  | env _ henv _ => exact henv.elim

theorem Upholds.awaits {c : Co Op Ans α} {op : Op} (h : Upholds exec Pre c Q w)
    (hop : Awaits c op) : Pre w op := by
  induction hop with
  | call => exact h.1
  | left _ ih => exact ih h.2
  | right hn _ => exact (not_not.mp (h.1.awaits hn) w).1

/-- **Every call that a run is about to make satisfies the assertion.** -/
theorem Upholds.awaits_run {c c' : Co Op Ans α} {op : Op} (h : Upholds exec Pre c Q w)
    (hrun : Run exec Alone c w c' w') (hop : Awaits c' op) : Pre w' op :=
  (h.run hrun).awaits hop

end Upholds

/-! ## Runs, piece by piece -/

section Returns

variable {exec : W → (op : Op) → Ans op → W → Prop} {w w' w'' : W}

variable (exec) in
/-- Started in `w`, the coroutine can return `a` in `w'`. -/
def Returns (c : Co Op Ans α) (w : W) (a : α) (w' : W) : Prop := Run exec Alone c w (.ret a) w'

theorem Returns.await {op : Op} {r : Ans op} (h : exec w op r w') :
    Returns exec (Co.await op) w r w' :=
  .own .refl (.call h)

/-- The first part of a sequence returns, and the second goes on. -/
theorem Returns.run {m : Co Op Ans α} {f : α → Co Op Ans β} {a : α} {c : Co Op Ans β}
    (hm : Returns exec m w a w') (hf : Run exec Alone (f a) w' c w'') :
    Run exec Alone (m.bind f) w c w'' :=
  (Run.bind hm f).trans hf

theorem Returns.bind {m : Co Op Ans α} {f : α → Co Op Ans β} {a : α} {b : β}
    (hm : Returns exec m w a w') (hf : Returns exec (f a) w' b w'') :
    Returns exec (m.bind f) w b w'' :=
  hm.run hf

/-- One turn of a loop. -/
theorem Returns.turn {body : β → Co Op Ans (β ⊕ γ)} {b b' : β} {k : γ → Co Op Ans α}
    (h : Returns exec (body b) w (.inl b') w') :
    Run exec Alone (.iter body b k) w (.iter body b' k) w' :=
  (Run.own .refl .iter).trans (Run.bind h _)

end Returns

end Co

end Shine
