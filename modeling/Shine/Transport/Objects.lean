import Shine.Transport.Pair

/-!
# Session objects by sid

When the sids on a link are distinct, a session object is given by its sid as well
as by its pointer. `Link.object` looks it up, whether or not the table still holds
it, and the lemmas say what each operation of the link does to it; the proofs about
a pair of links use these and never look at pointers.
-/

namespace Shine

namespace Link

/-- The session object with this sid, closed or not. -/
def object (l : Link) (sid : UInt64) : Option Session :=
  ((List.range l.next).filterMap l.heap).find? fun s => s.sid = sid

/-- No two session objects have the same sid. -/
structure Distinct (l : Link) : Prop where
  unused : ∀ p, l.next ≤ p → l.heap p = none
  inj : ∀ p q s t, l.heap p = some s → l.heap q = some t → s.sid = t.sid → p = q

theorem distinct_new (opts : LinkOptions) (h : Bool) (now : UInt64) : (new opts h now).Distinct where
  unused _ _ := rfl
  inj _ _ _ _ hp := nomatch hp

variable {l : Link} {p : Nat} {s : Session} {sid : UInt64}

theorem Distinct.object_eq_some (hl : l.Distinct) :
    l.object sid = some s ↔ ∃ p, l.heap p = some s ∧ s.sid = sid := by
  constructor
  · intro h
    have hmem := List.mem_of_find?_eq_some h
    obtain ⟨p, -, hp⟩ := List.mem_filterMap.mp hmem
    exact ⟨p, hp, by simpa using List.find?_some h⟩
  · rintro ⟨p, hp, rfl⟩
    have hlt : p < l.next := by
      by_contra hge
      rw [hl.unused p (Nat.le_of_not_lt hge)] at hp
      cases hp
    -- the search finds some object with this sid, and there is only one
    have hmem : s ∈ (List.range l.next).filterMap l.heap :=
      List.mem_filterMap.mpr ⟨p, List.mem_range.mpr hlt, hp⟩
    cases hf : l.object s.sid with
    | none => exact absurd (List.find?_eq_none.mp hf s hmem) (by simp)
    | some t =>
      obtain ⟨q, -, hq⟩ := List.mem_filterMap.mp (List.mem_of_find?_eq_some hf)
      have hsid : t.sid = s.sid := by simpa using List.find?_some hf
      rw [hl.inj q p t s hq hp hsid, hp] at hq
      rw [hq]

theorem Distinct.object_of_heap (hl : l.Distinct) (hp : l.heap p = some s) :
    l.object s.sid = some s :=
  hl.object_eq_some.mpr ⟨p, hp, rfl⟩

theorem Distinct.object_eq_none (hl : l.Distinct) :
    l.object sid = none ↔ ∀ p s, l.heap p = some s → s.sid ≠ sid := by
  rw [Option.eq_none_iff_forall_not_mem]
  constructor
  · rintro h p s hp rfl
    exact h s (hl.object_of_heap hp)
  · intro h s hs
    obtain ⟨p, hp, hsid⟩ := hl.object_eq_some.mp hs
    exact h p s hp hsid

theorem object_congr {l' : Link} (hheap : l'.heap = l.heap) (hnext : l'.next = l.next) :
    l'.object sid = l.object sid := by
  rw [object, object, hheap, hnext]

theorem Distinct.congr (hl : l.Distinct) {l' : Link} (hheap : l'.heap = l.heap)
    (hnext : l'.next = l.next) : l'.Distinct where
  unused := by rw [hheap, hnext]; exact hl.unused
  inj := by rw [hheap]; exact hl.inj

/-- Objects change in place and keep their sids. -/
theorem Distinct.of_map (hl : l.Distinct) {l' : Link} (g : Nat → Session → Session)
    (hheap : ∀ q, l'.heap q = (l.heap q).map (g q)) (hnext : l'.next = l.next)
    (hsid : ∀ q s, l.heap q = some s → (g q s).sid = s.sid) : l'.Distinct where
  unused q hq := by rw [hheap, hl.unused q (hnext ▸ hq)]; rfl
  inj p q s t hp hq heq := by
    rw [hheap] at hp hq
    obtain ⟨s₀, hp₀, rfl⟩ := Option.map_eq_some_iff.mp hp
    obtain ⟨t₀, hq₀, rfl⟩ := Option.map_eq_some_iff.mp hq
    rw [hsid p s₀ hp₀, hsid q t₀ hq₀] at heq
    exact hl.inj p q s₀ t₀ hp₀ hq₀ heq

theorem modify_heap_eq_map (l : Link) (p : Nat) (f : Session → Session) (q : Nat) :
    (l.modify p f).heap q = (l.heap q).map (if q = p then f else id) := by
  rw [modify_heap]
  split_ifs with h
  · rw [h]
  · rw [Option.map_id]
    rfl

theorem Distinct.modify (hl : l.Distinct) {f : Session → Session}
    (hsid : ∀ s, l.heap p = some s → (f s).sid = s.sid) : (l.modify p f).Distinct := by
  refine hl.of_map (fun q => if q = p then f else id) (l.modify_heap_eq_map p f) rfl ?_
  intro q s hq
  by_cases h : q = p
  · rw [if_pos h]
    exact hsid s (h ▸ hq)
  · rw [if_neg h]
    rfl

theorem Distinct.object_modify (hl : l.Distinct) {f : Session → Session} (hp : l.heap p = some s)
    (hsid : (f s).sid = s.sid) (sid : UInt64) :
    (l.modify p f).object sid = if sid = s.sid then some (f s) else l.object sid := by
  have hl' : (l.modify p f).Distinct := hl.modify fun t ht => by
    rw [hp] at ht
    cases ht
    exact hsid
  split_ifs with h
  · subst h
    refine hl'.object_eq_some.mpr ⟨p, ?_, hsid⟩
    rw [modify_heap_self, hp]
    rfl
  · have hkeep : ∀ q t, t.sid = sid → ((l.modify p f).heap q = some t ↔ l.heap q = some t) := by
      intro q t ht
      rw [modify_heap]
      split_ifs with hq
      · subst hq
        rw [hp]
        constructor
        · rintro heq
          cases heq
          exact absurd (ht.symm.trans hsid) h
        · rintro heq
          cases heq
          exact absurd ht.symm h
      · rfl
    cases ho : l.object sid with
    | some t =>
      obtain ⟨q, hq, ht⟩ := hl.object_eq_some.mp ho
      exact hl'.object_eq_some.mpr ⟨q, (hkeep q t ht).mpr hq, ht⟩
    | none =>
      refine hl'.object_eq_none.mpr fun q t hq ht => ?_
      exact hl.object_eq_none.mp ho q t ((hkeep q t ht).mp hq) ht

theorem Distinct.emplace (hl : l.Distinct) (hnew : l.object s.sid = none) :
    (l.emplace s).Distinct where
  unused q hq := by
    have hlt : l.next < q := hq
    rw [emplace_heap, if_neg (Nat.ne_of_gt hlt)]
    exact hl.unused q (Nat.le_of_lt hlt)
  inj p q t u hp hq heq := by
    have hother : ∀ r v, l.heap r = some v → v.sid ≠ s.sid := hl.object_eq_none.mp hnew
    rw [emplace_heap] at hp hq
    split_ifs at hp hq with hpn hqn hqn
    · rw [hpn, hqn]
    · cases hp
      exact absurd heq.symm (hother q u hq)
    · cases hq
      exact absurd heq (hother p t hp)
    · exact hl.inj p q t u hp hq heq

theorem Distinct.object_emplace (hl : l.Distinct) (hnew : l.object s.sid = none) (sid : UInt64) :
    (l.emplace s).object sid = if sid = s.sid then some s else l.object sid := by
  have hl' := hl.emplace hnew
  split_ifs with h
  · subst h
    exact hl'.object_eq_some.mpr ⟨l.next, by rw [emplace_heap, if_pos rfl], rfl⟩
  · cases ho : l.object sid with
    | some t =>
      obtain ⟨q, hq, ht⟩ := hl.object_eq_some.mp ho
      refine hl'.object_eq_some.mpr ⟨q, ?_, ht⟩
      rw [emplace_heap, if_neg]
      · exact hq
      · rintro rfl
        rw [hl.unused l.next (Nat.le_refl _)] at hq
        cases hq
    | none =>
      refine hl'.object_eq_none.mpr fun q t hq ht => ?_
      rw [emplace_heap] at hq
      split_ifs at hq
      · cases hq
        exact h ht.symm
      · exact hl.object_eq_none.mp ho q t hq ht

/-- `failLink` resets the sessions that are not closed. -/
theorem Distinct.object_resetAll (hl : l.Distinct) (hsound : l.Sound) (sid : UInt64) :
    l.resetAll.object sid
      = (l.object sid).map fun s => if s.state = .closed then s else s.onReset := by
  have hg : ∀ q s, l.heap q = some s → (if l.sessions s.sid = some q then s.onReset else s)
      = if s.state = .closed then s else s.onReset := by
    intro q s hq
    by_cases hst : s.state = .closed
    · rw [if_neg, if_pos hst]
      intro hstored
      obtain ⟨t, ht, -, hopen⟩ := hsound.stored_live _ _ hstored
      rw [hq] at ht
      cases ht
      exact hopen hst
    · rw [if_pos (hsound.live_stored q s hq hst), if_neg hst]
  have hl' : l.resetAll.Distinct :=
    hl.of_map (fun q s => if l.sessions s.sid = some q then s.onReset else s) (fun _ => rfl) rfl
      fun q s _ => by split_ifs <;> rfl
  cases ho : l.object sid with
  | none =>
    refine hl'.object_eq_none.mpr fun q t hq ht => ?_
    obtain ⟨s, hs, rfl⟩ := Option.map_eq_some_iff.mp hq
    refine hl.object_eq_none.mp ho q s hs ?_
    rw [← ht]
    split_ifs <;> rfl
  | some s =>
    obtain ⟨q, hq, hsid⟩ := hl.object_eq_some.mp ho
    refine hl'.object_eq_some.mpr ⟨q, ?_, ?_⟩
    · rw [resetAll_heap, hq, Option.map_some, hg q s hq]
    · show (if s.state = .closed then s else s.onReset).sid = sid
      rw [← hsid]
      split_ifs <;> rfl

end Link

end Shine
