import Shine.Lib.Lts

/-!
# Runs that end

`M.Ends ok P s` says that every run from `s` whose steps satisfy the guard `ok` comes to an
end, and that `P` holds where it does. It is stronger than the invariant rule, which says
nothing about how long a run goes on, and needs no assumption of fairness: every step that
satisfies the guard brings the end nearer.

- `ends_of_rank`: the steps decrease a rank.
- `Ends.exists_rest`: some run goes to the end.
- `Ends.and`: two facts about the ends.
-/

namespace Shine

namespace Lts

universe u v w

variable {σ : Type u} {ε : Type v}

/-- No step that satisfies the guard can be taken. -/
def Rests (M : Lts σ ε) (ok : σ → ε → Prop) (s : σ) : Prop := ∀ e, ok s e → M.step s e = none

/-- Every guarded run from the state ends, and where it ends `P` holds. -/
inductive Ends (M : Lts σ ε) (ok : σ → ε → Prop) (P : σ → Prop) : σ → Prop where
  | intro {s : σ} (next : ∀ e t, ok s e → M.step s e = some t → Ends M ok P t)
    (rest : M.Rests ok s → P s) : Ends M ok P s

variable {M : Lts σ ε} {ok : σ → ε → Prop} {P : σ → Prop} {s : σ}

/-- **Runs end** where every step decreases a rank. `J s a` says that `a` is a rank of the state
`s`, next to what is invariant. -/
theorem ends_of_rank {α : Type w} [WellFoundedRelation α] {J : σ → α → Prop}
    (keep : ∀ s a e t, J s a → ok s e → M.step s e = some t →
      ∃ a', WellFoundedRelation.rel a' a ∧ J t a')
    (rest : ∀ s a, J s a → M.Rests ok s → P s) {a : α} (hs : J s a) : M.Ends ok P s := by
  have hwf : WellFounded (WellFoundedRelation.rel : α → α → Prop) := WellFoundedRelation.wf
  induction a using hwf.induction generalizing s with
  | _ a ih =>
    refine .intro (fun e t hok hstep => ?_) (rest s a hs)
    obtain ⟨a', hlt, ht⟩ := keep s a e t hs hok hstep
    exact ih a' hlt ht

/-- Some run goes to the end. -/
theorem Ends.exists_rest (h : M.Ends ok P s) : ∃ t, M.Reach ok s t ∧ M.Rests ok t ∧ P t := by
  induction h with
  | @intro s _ hrest ih =>
    by_cases hs : M.Rests ok s
    · exact ⟨s, .refl, hs, hrest hs⟩
    · obtain ⟨e, hs⟩ := not_forall.mp hs
      obtain ⟨hok, hs⟩ := Classical.not_imp.mp hs
      obtain ⟨t, hstep⟩ := Option.ne_none_iff_exists'.mp hs
      obtain ⟨final, hreach, hfinal⟩ := ih e t hok hstep
      exact ⟨final, (Reach.refl.tail hok hstep).trans hreach, hfinal⟩

theorem Ends.and {Q : σ → Prop} (h : M.Ends ok P s) (hQ : M.Ends ok Q s) :
    M.Ends ok (fun t => P t ∧ Q t) s := by
  induction h with
  | intro _ hrest ih =>
    cases hQ with
    | intro hnext hrest' =>
      exact .intro (fun e t hok hstep => ih e t hok hstep (hnext e t hok hstep))
        fun hs => ⟨hrest hs, hrest' hs⟩

end Lts

end Shine
