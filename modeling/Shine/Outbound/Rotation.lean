import Shine.Outbound.LinkPool

/-!
# How a link pool shares out its requests (`outbound/shine_outbound.cpp`)

`pickOrMakeLink` takes the live links in turn, by a counter that all calls of `handle` share. As
long as the live links stay the same, whatever else the calls do at the same time, the links
that have been picked are those of a cycle that starts where the counter was
(`Turns.of_reach`). `rotation_fair` says what follows: no link of the pool is picked more
than once above its share. The counter must not wrap, since the cycle is broken there unless
the number of links divides 2⁶⁴.
-/

namespace Shine

/-! ## Cycles -/

/-- An index comes up at the steps of one residue class. -/
theorem mod_eq_iff_modEq {start k i m : Nat} (hi : i < m) :
    (start + k) % m = i ↔ k ≡ i + (m - start % m) [MOD m] := by
  have hm : 0 < m := Nat.zero_lt_of_lt hi
  have hstart : start % m < m := Nat.mod_lt _ hm
  have hback : start + (m - start % m) ≡ 0 [MOD m] := by
    have hsum : start % m + (m - start % m) = m := by omega
    calc start + (m - start % m)
        ≡ start % m + (m - start % m) [MOD m] := (Nat.mod_modEq start m).symm.add_right _
      _ = m := hsum
      _ ≡ 0 [MOD m] := Nat.modEq_zero_iff_dvd.mpr dvd_rfl
  have hshift : start + k ≡ i [MOD m]
      ↔ start + k ≡ start + (i + (m - start % m)) [MOD m] := by
    have hi' : i ≡ start + (i + (m - start % m)) [MOD m] := by
      have hadd := hback.symm.add_left i
      rw [Nat.add_zero, Nat.add_left_comm] at hadd
      exact hadd
    exact ⟨fun h => h.trans hi', fun h => h.trans hi'.symm⟩
  rw [← Nat.ModEq.add_iff_left (Nat.ModEq.refl start), ← hshift, Nat.ModEq,
    Nat.mod_eq_of_lt hi]

/-- Every member of a cycle gets its share of `n` turns, rounded down or up. -/
theorem count_cycle {α : Type} [DecidableEq α] {xs : List α} (hnodup : xs.Nodup) {x : α}
    (hx : x ∈ xs) (start n : Nat) :
    ((List.range n).map fun k => xs[(start + k) % xs.length]?).count (some x) = n / xs.length ∨
      ((List.range n).map fun k => xs[(start + k) % xs.length]?).count (some x)
        = n / xs.length + 1 := by
  obtain ⟨i, hi, rfl⟩ := List.mem_iff_getElem.mp hx
  have hturn : ∀ k, xs[(start + k) % xs.length]? = some xs[i] ↔
      k ≡ i + (xs.length - start % xs.length) [MOD xs.length] := by
    intro k
    have hk : (start + k) % xs.length < xs.length := Nat.mod_lt _ (Nat.zero_lt_of_lt hi)
    rw [List.getElem?_eq_getElem hk, Option.some.injEq, hnodup.getElem_inj_iff,
      mod_eq_iff_modEq hi]
  have hcount : ((List.range n).map fun k => xs[(start + k) % xs.length]?).count (some xs[i])
      = n.count (· ≡ i + (xs.length - start % xs.length) [MOD xs.length]) := by
    rw [List.count, List.countP_map, Nat.count]
    refine List.countP_congr fun k _ => ?_
    simp [hturn k]
  rw [hcount, Nat.count_modEq_card _ (Nat.zero_lt_of_lt hi)]
  split_ifs
  · exact .inr rfl
  · exact .inl rfl

namespace LinkPool

/-- The links that can be picked. -/
def live (s : LinkPool) : List Nat := s.pool.filter fun l => !s.closed l

/-- What a scan has picked. -/
def pickedBy (s : LinkPool) : Event → List Nat
  | .scan i =>
    match s.calls i with
    | .picked (some l) => [l]
    | _ => []
  | _ => []

/-- An outbound with a record of what has been picked. -/
structure Rotation where
  outbound : LinkPool
  picks : List Nat

namespace Rotation

/-- One step. -/
def step (size : Nat) (r : Rotation) (e : Event) : Option Rotation :=
  (r.outbound.step size e).map fun s => ⟨s, r.picks ++ s.pickedBy e⟩

/-- All runs. -/
def system (size : Nat) : Lts Rotation Event := ⟨step size⟩

/-- No link comes to the pool, fails or is closed by `stop`. -/
def Calm (_ : Rotation) : Event → Prop
  | .insert _ | .fail _ | .clear => False
  | _ => True

instance (r : Rotation) : DecidablePred (Calm r)
  | .insert _ | .fail _ | .clear => .isFalse id
  | .check _ | .scan _ | .dialled .. | .store => .isTrue trivial

/-- The picks so far are those of a cycle through the live links of `s`. -/
structure Turns (s : LinkPool) (r : Rotation) : Prop where
  live : r.outbound.live = s.live
  rr : r.outbound.rr = s.rr + UInt64.ofNat r.picks.length
  picks : r.picks.map some = (List.range r.picks.length).map fun k =>
    s.live[(s.rr + UInt64.ofNat k).toNat % s.live.length]?

section Turns

variable {size : Nat} {s : LinkPool} {r r' : Rotation} {e : Event}

theorem Turns.start (s : LinkPool) : Turns s ⟨s, []⟩ := ⟨rfl, (UInt64.add_zero _).symm, rfl⟩

/-- Nothing has been picked, and the links are the same. -/
theorem Turns.idle (h : Turns s r) {t : LinkPool} (hlive : t.live = r.outbound.live)
    (hrr : t.rr = r.outbound.rr) (hpicked : t.pickedBy e = []) :
    Turns s ⟨t, r.picks ++ t.pickedBy e⟩ := by
  rw [hpicked, List.append_nil]
  exact ⟨hlive.trans h.live, hrr.trans h.rr, h.picks⟩

theorem live_scanPool (t : LinkPool) (i : Nat) : (t.scanPool i).live = t.live := by
  rw [scanPool]
  split_ifs
  all_goals simp [LinkPool.live, List.filter_filter]

/-- A scan picks the next link in the cycle, if there is any. -/
theorem Turns.scan (h : Turns s r) (i : Nat) :
    Turns s ⟨r.outbound.scanPool i, r.picks ++ (r.outbound.scanPool i).pickedBy (.scan i)⟩ := by
  by_cases hempty : r.outbound.live = []
  · have hscan : r.outbound.scanPool i = { r.outbound with
        calls := Function.update r.outbound.calls i .dial, pool := r.outbound.live } :=
      if_pos hempty
    refine h.idle (live_scanPool ..) ?_ ?_
    · rw [hscan]
    · simp [hscan, pickedBy]
  · have hscan : r.outbound.scanPool i = { r.outbound with
        calls := Function.update r.outbound.calls i
          (.picked r.outbound.live[r.outbound.rr.toNat % r.outbound.live.length]?)
        pool := r.outbound.live
        rr := r.outbound.rr + 1 } := if_neg hempty
    have hlt : r.outbound.rr.toNat % r.outbound.live.length < r.outbound.live.length :=
      Nat.mod_lt _ (List.length_pos_iff.mpr hempty)
    obtain ⟨l, hl⟩ : ∃ l, r.outbound.live[r.outbound.rr.toNat % r.outbound.live.length]? = some l :=
      ⟨_, List.getElem?_eq_getElem hlt⟩
    have hpicked : (r.outbound.scanPool i).pickedBy (.scan i) = [l] := by
      simp [hscan, pickedBy, hl]
    have hnext : s.live[(s.rr + UInt64.ofNat r.picks.length).toNat % s.live.length]? = some l := by
      rw [← h.rr, ← hl, h.live]
    rw [hpicked]
    refine ⟨(live_scanPool ..).trans h.live, ?_, ?_⟩
    · have hrr : (r.outbound.scanPool i).rr = r.outbound.rr + 1 := by rw [hscan]
      rw [List.length_append, List.length_singleton, UInt64.ofNat_add, ← UInt64.add_assoc, ← h.rr]
      exact hrr
    · rw [List.map_append, h.picks, List.length_append, List.length_singleton,
        List.range_succ, List.map_append, List.map_singleton, List.map_singleton, hnext]

theorem Turns.step (h : Turns s r) (hcalm : Calm r e) (hstep : step size r e = some r') :
    Turns s r' := by
  obtain ⟨t, ht, rfl⟩ := Option.map_eq_some_iff.mp hstep
  cases e with
  | check i =>
    simp only [LinkPool.step] at ht
    split at ht
    · cases ht
      exact h.idle rfl rfl rfl
    · cases ht
  | scan i =>
    simp only [LinkPool.step] at ht
    split at ht
    · cases ht
      exact h.scan i
    · cases ht
  | dialled i ok =>
    simp only [LinkPool.step] at ht
    split at ht
    · split_ifs at ht
      · cases ht
        exact h.idle rfl rfl rfl
      · cases ht
        exact h.idle rfl rfl rfl
    · cases ht
  | store =>
    simp only [LinkPool.step] at ht
    split_ifs at ht
    cases ht
    exact h.idle rfl rfl rfl
  | insert i => exact hcalm.elim
  | fail l => exact hcalm.elim
  | clear => exact hcalm.elim

theorem Turns.of_reach (h : (system size).Reach Calm ⟨s, []⟩ r) : Turns s r :=
  h.invariant (Turns.start s) fun _ _ _ hturns hcalm hstep => hturns.step hcalm hstep

end Turns

end Rotation

/-- The links in the pool are different ones. -/
theorem pool_nodup {size : Nat} {s : LinkPool} (h : (system size).Reach Lts.Free start s) :
    s.pool.Nodup := by
  have hboth : Inv s ∧ s.pool.Nodup := by
    refine h.invariant (P := fun s => Inv s ∧ s.pool.Nodup) ⟨.start, List.nodup_nil⟩ ?_
    rintro s e t ⟨hinv, hnodup⟩ - hstep
    refine ⟨hinv.step hstep, ?_⟩
    cases moves_of_step hstep with
    | goOn hold hnew => exact hnodup
    | scan hcall =>
      rw [scanPool]
      split_ifs
      all_goals exact hnodup.filter _
    | make hcall => exact hnodup
    | @insert i l hcall =>
      simp only [insertLink]
      split_ifs
      · rw [← List.concat_eq_append]
        exact hnodup.concat (hinv.flying i l hcall).2.1
      · exact hnodup
    | fail hl => exact hnodup
    | store => exact hnodup
    | clear hcleared => exact List.nodup_nil
  exact hboth.2

/-- **Every live link gets its share of the requests.** From any state that an outbound can
reach, as long as no link comes to the pool, fails or is closed, of `n` requests that are given
a link from the pool every live link gets `n` divided by the number of links, rounded down or
up, however the calls interleave. The counter must not wrap meanwhile. -/
theorem rotation_fair (size : Nat) (s : LinkPool) (r : Rotation)
    (hreach : (system size).Reach Lts.Free start s)
    (hrun : (Rotation.system size).Reach Rotation.Calm ⟨s, []⟩ r)
    (hwrap : s.rr.toNat + r.picks.length ≤ 2 ^ 64) (l : Nat) (hl : l ∈ s.live) :
    r.picks.count l = r.picks.length / s.live.length ∨
      r.picks.count l = r.picks.length / s.live.length + 1 := by
  have hturns := Rotation.Turns.of_reach hrun
  have hnodup : s.live.Nodup := (pool_nodup hreach).filter _
  have hpicks : r.picks.map some = (List.range r.picks.length).map fun k =>
      s.live[(s.rr.toNat + k) % s.live.length]? := by
    rw [hturns.picks]
    refine List.map_congr_left fun k hk => ?_
    have hk : k < r.picks.length := List.mem_range.mp hk
    have hadd : (s.rr + UInt64.ofNat k).toNat = s.rr.toNat + k := by
      rw [UInt64.toNat_add, UInt64.toNat_ofNat', Nat.mod_eq_of_lt (by omega : k < 2 ^ 64),
        Nat.mod_eq_of_lt (by omega)]
    rw [hadd]
  have hcount : r.picks.count l = (r.picks.map some).count (some l) :=
    (List.count_map_of_injective _ _ (Option.some_injective _) _).symm
  rw [hcount, hpicks]
  exact count_cycle hnodup hl _ _

/-- Two calls dial at the same time. -/
def twoDials : List Event :=
  [.check 0, .check 1, .scan 0, .scan 1, .dialled 0 true, .dialled 1 true, .insert 0, .insert 1]

/-- The outbound after them. -/
def twoLinks : LinkPool := ((system 2).exec Lts.Free start twoDials).getD start

/-- Three more calls find both links. -/
theorem rotation_fair_two_links :
    ∃ r, (Rotation.system 2).Reach Rotation.Calm ⟨twoLinks, []⟩ r ∧ twoLinks.live = [0, 1] ∧
      r.picks = [0, 1, 0] ∧ (r.picks.count 1 = 1 ∨ r.picks.count 1 = 2) := by
  have hreach : (system 2).Reach Lts.Free start twoLinks := Lts.reach_of_exec twoDials rfl
  have hrun : (Rotation.system 2).Reach Rotation.Calm ⟨twoLinks, []⟩ _ := Lts.reach_of_exec
    [.check 2, .check 3, .check 4, .scan 3, .scan 2, .scan 4] rfl
  exact ⟨_, hrun, rfl, rfl, rotation_fair 2 _ _ hreach hrun (by decide) 1 (by decide)⟩

end LinkPool

end Shine
