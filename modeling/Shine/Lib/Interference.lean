import Shine.Lib.Calls

/-!
# Assertions at the calls of coroutines that interfere

`Secures exec Pre R c Q w` is a condition on the text of `c`: started in the world `w`, while
others move the world along `R`, every call that `c` is about to make satisfies `Pre` at that
time, and if it returns `a` then `Q a` holds. What is asserted between two calls has to be
stable under `R`. For two parallel coroutines each names the calls it makes; it has to tolerate
those of the other, and may rely on their assertions.

- `Secures.bind`, `Secures.loop`, `Secures.par`: the rules; `Secures.call` for a call and what
  follows it.
- `Secures.awaits_run`: every call of every run satisfies the assertion.
- `Secures.invariant`: what the calls that satisfy their assertion and the environment keep
  holds at every time.
-/

namespace Shine

namespace Co

variable {Op : Type} {Ans : Op → Type} {α β γ : Type} {W : Type}

variable (exec : W → (op : Op) → Ans op → W → Prop) (Pre : W → Op → Prop)

/-- One of the calls in `N`, made when it is right to. -/
def Doing (N : Op → Prop) (w w' : W) : Prop := ∃ op r, N op ∧ Pre w op ∧ exec w op r w'

/-- What moves the world around one of two coroutines, where the other makes the calls `N`. -/
def Next (R : W → W → Prop) (N : Op → Prop) (w w' : W) : Prop := R w w' ∨ Doing exec Pre N w w'

/-- What is stable under more moves is stable under fewer. -/
theorem Stable.of_le {R S : W → W → Prop} {P : W → Prop} (h : Stable S P)
    (hle : ∀ w w', R w w' → S w w') : Stable R P :=
  fun w w' hw hr => h w w' hw (hle w w' hr)

/-- Every call satisfies the assertion `Pre`, and what is returned the postcondition, while the
world moves along `R`. -/
def Secures : {α : Type} → (W → W → Prop) → Co Op Ans α → (α → W → Prop) → W → Prop
  | _, R, .ret a, Q, w => ∃ P : W → Prop, P w ∧ Stable R P ∧ ∀ w, P w → Q a w
  | _, R, .call op k, Q, w => ∃ P : W → Prop, P w ∧ Stable R P ∧ ∀ w, P w →
      Pre w op ∧ ∀ r w', exec w op r w' → Secures R (k r) Q w'
  | _, R, .iter body b k, Q, w => ∃ I : _ → W → Prop, I b w ∧ (∀ b, Stable R (I b)) ∧
      ∀ b w, I b w →
        Secures R (body b) (fun r w => Sum.elim (I · w) (fun c => Secures R (k c) Q w) r) w
  | _, R, .both m n k, Q, w => ∃ (M N : Op → Prop) (A B : W → Prop),
      Clean (¬ M ·) m ∧ Clean (¬ N ·) n ∧
      Secures (Next exec Pre R N) m (fun _ => A) w ∧
      Secures (Next exec Pre R M) n (fun _ => B) w ∧ ∀ w, A w → B w → Secures R k Q w

variable {exec Pre} {R : W → W → Prop} {Q Q' : α → W → Prop} {w w' : W}

theorem Secures.mono {c : Co Op Ans α} (h : Secures exec Pre R c Q w)
    (hQ : ∀ a w, Q a w → Q' a w) : Secures exec Pre R c Q' w := by
  induction c generalizing w with
  | ret a =>
    obtain ⟨P, hw, hst, hP⟩ := h
    exact ⟨P, hw, hst, fun w hp => hQ a w (hP w hp)⟩
  | call op k ih =>
    obtain ⟨P, hw, hst, hP⟩ := h
    exact ⟨P, hw, hst, fun w hp => ⟨(hP w hp).1, fun r w' he => ih r ((hP w hp).2 r w' he) hQ⟩⟩
  | iter body b k ihbody ihk =>
    obtain ⟨I, hb, hst, hbody⟩ := h
    refine ⟨I, hb, hst, fun b w hI => ihbody b (hbody b w hI) fun r w hr => ?_⟩
    cases r with
    | inl b => exact hr
    | inr c => exact ihk c hr hQ
  | both m n k _ _ ihk =>
    obtain ⟨M, N, A, B, hm, hn, hsm, hsn, hk⟩ := h
    exact ⟨M, N, A, B, hm, hn, hsm, hsn, fun w ha hb => ihk (hk w ha hb) hQ⟩

theorem Secures.bind {m : Co Op Ans α} {f : α → Co Op Ans β} {Q : β → W → Prop}
    (h : Secures exec Pre R m (fun a w => Secures exec Pre R (f a) Q w) w) :
    Secures exec Pre R (m.bind f) Q w := by
  induction m generalizing w with
  | ret a =>
    obtain ⟨P, hw, -, hP⟩ := h
    exact hP w hw
  | call op k ih =>
    obtain ⟨P, hw, hst, hP⟩ := h
    exact ⟨P, hw, hst, fun w hp => ⟨(hP w hp).1, fun r w' he => ih r ((hP w hp).2 r w' he)⟩⟩
  | iter body b k _ ihk =>
    obtain ⟨I, hb, hst, hbody⟩ := h
    refine ⟨I, hb, hst, fun b w hI => (hbody b w hI).mono fun r w hr => ?_⟩
    cases r with
    | inl b => exact hr
    | inr c => exact ihk c hr
  | both m n k _ _ ihk =>
    obtain ⟨M, N, A, B, hm, hn, hsm, hsn, hk⟩ := h
    exact ⟨M, N, A, B, hm, hn, hsm, hsn, fun w ha hb => ihk (hk w ha hb)⟩

/-- What has been secured survives the environment. -/
theorem Secures.stable (c : Co Op Ans α) : Stable R (Secures exec Pre R c Q) := by
  induction c generalizing R with
  | ret a =>
    rintro w w' ⟨P, hw, hst, hP⟩ hr
    exact ⟨P, hst w w' hw hr, hst, hP⟩
  | call op k _ =>
    rintro w w' ⟨P, hw, hst, hP⟩ hr
    exact ⟨P, hst w w' hw hr, hst, hP⟩
  | iter body b k _ _ =>
    rintro w w' ⟨I, hb, hst, hbody⟩ hr
    exact ⟨I, hst b w w' hb hr, hst, hbody⟩
  | both m n k ihm ihn _ =>
    rintro w w' ⟨M, N, A, B, hm, hn, hsm, hsn, hk⟩ hr
    exact ⟨M, N, A, B, hm, hn, ihm w w' hsm (.inl hr), ihn w w' hsn (.inl hr), hk⟩

theorem Secures.ret {a : α} (h : Q a w) (hst : Stable R (Q a)) :
    Secures exec Pre R (.ret a) Q w :=
  ⟨Q a, h, hst, fun _ => id⟩

/-- A call that is made with `P`, and what follows it. -/
theorem Secures.call {op : Op} {k : Ans op → Co Op Ans α} (P : W → Prop) (hw : P w)
    (hst : Stable R P) (hpre : ∀ w, P w → Pre w op)
    (hk : ∀ w r w', P w → exec w op r w' → Secures exec Pre R (k r) Q w') :
    Secures exec Pre R (.call op k) Q w :=
  ⟨P, hw, hst, fun w hp => ⟨hpre w hp, fun r w' he => hk w r w' hp he⟩⟩

/-- A single call. -/
theorem Secures.await {op : Op} {Q : Ans op → W → Prop} (P : W → Prop) (hw : P w)
    (hst : Stable R P) (hpre : ∀ w, P w → Pre w op)
    (hexec : ∀ w r w', P w → exec w op r w' → Q r w') (hQ : ∀ r, Stable R (Q r)) :
    Secures exec Pre R (Co.await op) Q w :=
  .call P hw hst hpre fun w r w' hp he => .ret (hexec w r w' hp he) (hQ r)

/-- The rule for a loop with the invariant `I`. -/
theorem Secures.loop {body : β → Co Op Ans (β ⊕ γ)} {b : β} {Q : γ → W → Prop}
    (I : β → W → Prop) (hb : I b w) (hI : ∀ b, Stable R (I b)) (hQ : ∀ c, Stable R (Q c))
    (hbody : ∀ b w, I b w →
      Secures exec Pre R (body b) (fun r w => Sum.elim (I · w) (Q · w) r) w) :
    Secures exec Pre R (Co.loop body b) Q w := by
  refine ⟨I, hb, hI, fun b w hw => (hbody b w hw).mono fun r w hr => ?_⟩
  cases r with
  | inl b => exact hr
  | inr c => exact .ret hr (hQ c)

/-- The rule for two coroutines, of which one makes the calls `M` and the other `N`. -/
theorem Secures.par {m n : Co Op Ans Unit} {Q : Unit → W → Prop} (M N : Op → Prop)
    {A B : W → Prop} (hm : Clean (¬ M ·) m) (hn : Clean (¬ N ·) n)
    (hsm : Secures exec Pre (Next exec Pre R N) m (fun _ => A) w)
    (hsn : Secures exec Pre (Next exec Pre R M) n (fun _ => B) w)
    (hQ : ∀ w, A w → B w → Q () w) (hst : Stable R (Q ())) :
    Secures exec Pre R (Co.par m n) Q w :=
  ⟨M, N, A, B, hm, hn, hsm, hsn, fun w ha hb => .ret (hQ w ha hb) hst⟩

/-- A step that changes the world is an operation that the coroutine was about to make. -/
theorem Step.awaited {c c' : Co Op Ans α} (h : Step exec c w c' w') :
    w' = w ∨ ∃ op r, Awaits c op ∧ exec w op r w' := by
  induction h with
  | call hexec => exact .inr ⟨_, _, .call, hexec⟩
  | iter | joined => exact .inl rfl
  | left _ ih =>
    obtain rfl | ⟨op, r, hop, hexec⟩ := ih
    · exact .inl rfl
    · exact .inr ⟨op, r, .left hop, hexec⟩
  | right _ ih =>
    obtain rfl | ⟨op, r, hop, hexec⟩ := ih
    · exact .inl rfl
    · exact .inr ⟨op, r, .right hop, hexec⟩

theorem Secures.awaits {c : Co Op Ans α} {op : Op} (h : Secures exec Pre R c Q w)
    (hop : Awaits c op) : Pre w op := by
  induction hop generalizing R with
  | call =>
    obtain ⟨P, hw, -, hP⟩ := h
    exact (hP w hw).1
  | left _ ih =>
    obtain ⟨_, _, _, _, _, _, hsm, _⟩ := h
    exact ih hsm
  | right _ ih =>
    obtain ⟨_, _, _, _, _, _, _, hsn, _⟩ := h
    exact ih hsn

/-- What the step of one side is for the other side. -/
theorem Secures.beside {c c' : Co Op Ans α} {d : Co Op Ans β} {S : W → W → Prop} {N : Op → Prop}
    {Q' : β → W → Prop} (h : Secures exec Pre R c Q w) (hc : Clean (¬ N ·) c)
    (hstep : Step exec c w c' w') (hd : Secures exec Pre (Next exec Pre S N) d Q' w) :
    Secures exec Pre (Next exec Pre S N) d Q' w' := by
  obtain rfl | ⟨op, r, hop, hexec⟩ := hstep.awaited
  · exact hd
  · exact Secures.stable d w w' hd (.inr ⟨op, r, not_not.mp (hc.awaits hop), h.awaits hop, hexec⟩)

theorem Secures.step {c c' : Co Op Ans α} (h : Secures exec Pre R c Q w)
    (hstep : Step exec c w c' w') : Secures exec Pre R c' Q w' := by
  induction hstep generalizing R with
  | call hexec =>
    obtain ⟨P, hw, -, hP⟩ := h
    exact (hP _ hw).2 _ _ hexec
  | iter =>
    obtain ⟨I, hb, hst, hbody⟩ := h
    refine .bind ((hbody _ _ hb).mono fun r w hr => ?_)
    cases r with
    | inl b => exact ⟨I, hr, hst, hbody⟩
    | inr c => exact hr
  | left hs ih =>
    obtain ⟨M, N, A, B, hm, hn, hsm, hsn, hk⟩ := h
    exact ⟨M, N, A, B, hm.step hs, hn, ih hsm, hsm.beside hm hs hsn, hk⟩
  | right hs ih =>
    obtain ⟨M, N, A, B, hm, hn, hsm, hsn, hk⟩ := h
    exact ⟨M, N, A, B, hm, hn.step hs, hsn.beside hn hs hsm, ih hsn, hk⟩
  | joined =>
    obtain ⟨_, _, A, B, -, -, ⟨P, hp, -, hP⟩, ⟨P', hp', -, hP'⟩, hk⟩ := h
    exact hk _ (hP _ hp) (hP' _ hp')

theorem Secures.run {c c' : Co Op Ans α} (h : Secures exec Pre R c Q w)
    (hrun : Run exec R c w c' w') : Secures exec Pre R c' Q w' := by
  induction hrun with
  | refl => exact h
  | own _ hstep ih => exact ih.step hstep
  | env _ henv ih => exact Secures.stable _ _ _ ih henv

/-- **Every call that a run is about to make satisfies the assertion.** -/
theorem Secures.awaits_run {c c' : Co Op Ans α} {op : Op} (h : Secures exec Pre R c Q w)
    (hrun : Run exec R c w c' w') (hop : Awaits c' op) : Pre w' op :=
  (h.run hrun).awaits hop

/-- **What is returned satisfies the postcondition**, also after the environment went on. -/
theorem Secures.returned {c : Co Op Ans α} {a : α} (h : Secures exec Pre R c Q w)
    (hrun : Run exec R c w (.ret a) w') : Q a w' := by
  obtain ⟨P, hp, -, hP⟩ := h.run hrun
  exact hP _ hp

/-- **Invariants.** What the environment keeps, and every call that satisfies its assertion,
holds at every time. -/
theorem Secures.invariant {c c' : Co Op Ans α} {J : W → Prop} (h : Secures exec Pre R c Q w)
    (hrun : Run exec R c w c' w') (henv : Stable R J)
    (hcall : ∀ w op r w', J w → Pre w op → exec w op r w' → J w') (hw : J w) : J w' := by
  induction hrun with
  | refl => exact hw
  | own hrun' hstep ih =>
    obtain rfl | ⟨op, r, hop, hexec⟩ := hstep.awaited
    · exact ih
    · exact hcall _ op r _ ih (h.awaits_run hrun' hop) hexec
  | env _ he ih => exact henv _ _ ih he

end Co

end Shine
