import Mathlib

/-!
# Sets of intervals

A list of closed intervals over a linear order with successors stands for the set that
the intervals cover.

- `merge` takes intervals that are sorted by their starts and joins those that overlap or
  touch. It covers the same set (`covers_merge`) with intervals that lie apart
  (`separated_merge`). At the greatest element the successor is the element itself, which
  is all that is needed there.
- `bisect` finds the first index at which a monotone test succeeds.
- `lookup` finds the only interval that can contain a point by bisection (`lookup_iff`).
-/

namespace Shine

universe u

/-- The closed interval from `start` to `stop`. -/
structure Interval (α : Type u) where
  start : α
  stop : α
  deriving DecidableEq, Repr

namespace Interval

variable {α : Type u} [LinearOrder α]

/-- The point lies in the interval. -/
def Contains (r : Interval α) (x : α) : Prop := r.start ≤ x ∧ x ≤ r.stop

instance (r : Interval α) (x : α) : Decidable (r.Contains x) :=
  inferInstanceAs (Decidable (_ ∧ _))

/-- Some interval contains the point. -/
def Covers (rs : List (Interval α)) (x : α) : Prop := ∃ r ∈ rs, r.Contains x

/-- By their starts. -/
def Sorted (rs : List (Interval α)) : Prop := rs.Pairwise fun a b => a.start ≤ b.start

/-- The interval starts before it ends. -/
def Ordered (r : Interval α) : Prop := r.start ≤ r.stop

/-- Each ends before the ones behind it start. -/
def Separated (rs : List (Interval α)) : Prop := rs.Pairwise fun a b => a.stop < b.start

theorem covers_cons {r : Interval α} {rs : List (Interval α)} {x : α} :
    Covers (r :: rs) x ↔ r.Contains x ∨ Covers rs x := by
  simp [Covers]

theorem covers_concat {r : Interval α} {rs : List (Interval α)} {x : α} :
    Covers (rs ++ [r]) x ↔ Covers rs x ∨ r.Contains x := by
  simp [Covers, or_and_right, exists_or]

theorem covers_perm {rs rs' : List (Interval α)} (h : rs.Perm rs') {x : α} :
    Covers rs x ↔ Covers rs' x := by
  simp [Covers, h.mem_iff]

/-! ## Merging -/

section Merge

variable {last r : Interval α} {rs : List (Interval α)} {x : α}

/-- The interval under construction starts where it did. -/
theorem sorted_grow (h : Sorted (last :: r :: rs)) (stop : α) :
    Sorted (⟨last.start, stop⟩ :: rs) := by
  obtain ⟨hlast, hrest⟩ := List.pairwise_cons.mp h
  refine List.pairwise_cons.mpr ⟨fun b hb => ?_, (List.pairwise_cons.mp hrest).2⟩
  exact hlast b (List.mem_cons_of_mem _ hb)

variable [SuccOrder α]

/-- Go on from the interval `last`, which is still growing. -/
def mergeFrom (last : Interval α) : List (Interval α) → List (Interval α)
  | [] => [last]
  | r :: rs =>
    if r.start ≤ Order.succ last.stop then mergeFrom ⟨last.start, max last.stop r.stop⟩ rs
    else last :: mergeFrom r rs

/-- Join the intervals that overlap or touch. -/
def merge : List (Interval α) → List (Interval α)
  | [] => []
  | r :: rs => mergeFrom r rs

/-- Two intervals that overlap or touch make one. -/
theorem contains_join (hstart : last.start ≤ r.start) (htouch : r.start ≤ Order.succ last.stop) :
    Contains ⟨last.start, max last.stop r.stop⟩ x ↔ last.Contains x ∨ r.Contains x := by
  constructor
  · rintro ⟨hlo, hhi⟩
    by_cases hlast : x ≤ last.stop
    · exact .inl ⟨hlo, hlast⟩
    · -- what lies behind `last` lies behind its successor
      have hbehind : last.stop < x := lt_of_not_ge hlast
      refine .inr ⟨htouch.trans (Order.succ_le_of_lt hbehind), ?_⟩
      exact (le_max_iff.mp hhi).resolve_left hlast
  · rintro (⟨hlo, hhi⟩ | ⟨hlo, hhi⟩)
    · exact ⟨hlo, le_max_of_le_left hhi⟩
    · exact ⟨hstart.trans hlo, le_max_of_le_right hhi⟩

theorem covers_mergeFrom (h : Sorted (last :: rs)) :
    Covers (mergeFrom last rs) x ↔ Covers (last :: rs) x := by
  induction rs generalizing last with
  | nil => rfl
  | cons r rs ih =>
    have hstart := (List.pairwise_cons.mp h).1 r List.mem_cons_self
    rw [mergeFrom]
    split_ifs with htouch
    · rw [ih (sorted_grow h _), covers_cons, contains_join hstart htouch, covers_cons, covers_cons,
        or_assoc]
    · rw [covers_cons, ih (List.pairwise_cons.mp h).2, ← covers_cons]

theorem start_le_of_mem_mergeFrom (h : Sorted (last :: rs)) (hr : r ∈ mergeFrom last rs) :
    last.start ≤ r.start := by
  induction rs generalizing last with
  | nil =>
    rw [mergeFrom, List.mem_singleton] at hr
    rw [hr]
  | cons q rs ih =>
    rw [mergeFrom] at hr
    split_ifs at hr with htouch
    · have hgrown := ih (sorted_grow h (max last.stop q.stop)) hr
      exact hgrown
    · rcases List.mem_cons.mp hr with rfl | hr
      · exact le_rfl
      · have hq := (List.pairwise_cons.mp h).1 q List.mem_cons_self
        exact hq.trans (ih (List.pairwise_cons.mp h).2 hr)

theorem sorted_mergeFrom (h : Sorted (last :: rs)) : Sorted (mergeFrom last rs) := by
  induction rs generalizing last with
  | nil => exact List.pairwise_singleton _ _
  | cons q rs ih =>
    have hq := (List.pairwise_cons.mp h).1 q List.mem_cons_self
    have htail := (List.pairwise_cons.mp h).2
    rw [mergeFrom]
    split_ifs with htouch
    · exact ih (sorted_grow h _)
    · refine List.pairwise_cons.mpr ⟨fun b hb => ?_, ih htail⟩
      exact hq.trans (start_le_of_mem_mergeFrom htail hb)

theorem separated_mergeFrom (h : Sorted (last :: rs)) : Separated (mergeFrom last rs) := by
  induction rs generalizing last with
  | nil => exact List.pairwise_singleton _ _
  | cons q rs ih =>
    have htail := (List.pairwise_cons.mp h).2
    rw [mergeFrom]
    split_ifs with htouch
    · exact ih (sorted_grow h _)
    · refine List.pairwise_cons.mpr ⟨fun b hb => ?_, ih htail⟩
      calc last.stop ≤ Order.succ last.stop := Order.le_succ _
        _ < q.start := lt_of_not_ge htouch
        _ ≤ b.start := start_le_of_mem_mergeFrom htail hb

/-- **Merging covers what was covered.** -/
theorem covers_merge (h : Sorted rs) : Covers (merge rs) x ↔ Covers rs x := by
  cases rs with
  | nil => rfl
  | cons r rs => exact covers_mergeFrom h

theorem sorted_merge (h : Sorted rs) : Sorted (merge rs) := by
  cases rs with
  | nil => exact .nil
  | cons r rs => exact sorted_mergeFrom h

theorem separated_merge (h : Sorted rs) : Separated (merge rs) := by
  cases rs with
  | nil => exact .nil
  | cons r rs => exact separated_mergeFrom h

theorem ordered_mergeFrom (hlast : last.Ordered) (h : ∀ r ∈ rs, r.Ordered) :
    ∀ r ∈ mergeFrom last rs, r.Ordered := by
  induction rs generalizing last with
  | nil =>
    rw [mergeFrom, List.forall_mem_singleton]
    exact hlast
  | cons q rs ih =>
    obtain ⟨hq, hrs⟩ := List.forall_mem_cons.mp h
    rw [mergeFrom]
    split_ifs with htouch
    · -- the start stays and the end only grows
      exact ih (hlast.trans (le_max_left _ _)) hrs
    · exact List.forall_mem_cons.mpr ⟨hlast, ih hq hrs⟩

theorem ordered_merge (h : ∀ r ∈ rs, r.Ordered) : ∀ r ∈ merge rs, r.Ordered := by
  cases rs with
  | nil => exact h
  | cons r rs =>
    obtain ⟨hr, hrs⟩ := List.forall_mem_cons.mp h
    exact ordered_mergeFrom hr hrs

end Merge

end Interval

/-! ## Bisection -/

/-- The first index from `first` on, and before `first + len`, at which `p` succeeds; half of
the range is ruled out at every turn. -/
def bisect (p : Nat → Bool) : (fuel first len : Nat) → Nat
  | 0, first, _ => first
  | fuel + 1, first, len =>
    if len = 0 then first
    else if p (first + len / 2) then bisect p fuel first (len / 2)
    else bisect p fuel (first + len / 2 + 1) (len - len / 2 - 1)

/-- Before the index that is found the test fails, and from it on it succeeds. -/
structure Splits (p : Nat → Bool) (first size k : Nat) : Prop where
  le : k ≤ size
  before : ∀ i, first ≤ i → i < k → p i = false
  behind : ∀ i, k ≤ i → i < size → p i = true

theorem bisect_splits {p : Nat → Bool} {size : Nat}
    (hmono : ∀ i j, i ≤ j → j < size → p i = true → p j = true) {fuel first len : Nat}
    (hfuel : len ≤ fuel) (hsize : first + len ≤ size)
    (hbehind : ∀ i, first + len ≤ i → i < size → p i = true) :
    Splits p first size (bisect p fuel first len) := by
  induction fuel generalizing first len with
  | zero =>
    refine ⟨by rw [bisect]; omega, fun i hle hlt => ?_, fun i hle hlt => hbehind i ?_ hlt⟩
    · rw [bisect] at hlt
      omega
    · rw [bisect] at hle
      omega
  | succ fuel ih =>
    rw [bisect]
    split_ifs with hlen hmid
    · exact ⟨by omega, fun i hle hlt => by omega, fun i hle hlt => hbehind i (by omega) hlt⟩
    · -- the middle and what is behind it succeed
      refine ih (by omega) (by omega) fun i hle hlt => ?_
      exact hmono _ i hle hlt hmid
    · -- the middle and what is before it fail
      have hrest := @ih (first + len / 2 + 1) (len - len / 2 - 1) (by omega) (by omega)
        fun i hle hlt => hbehind i (by omega) hlt
      refine ⟨hrest.le, fun i hle hlt => ?_, hrest.behind⟩
      by_cases hi : first + len / 2 + 1 ≤ i
      · exact hrest.before i hi hlt
      · by_contra hp
        exact hmid (hmono i _ (by omega) (by omega) (eq_true_of_ne_false hp))

namespace Interval

variable {α : Type u} [LinearOrder α] {rs : List (Interval α)} {x : α}

/-- Whether a point is covered: the last interval that does not start behind the point is
found by bisection. -/
def lookup (rs : List (Interval α)) (x : α) : Bool :=
  let upper := bisect (fun i => rs[i]?.any (x < ·.start)) rs.length 0 rs.length
  if upper = 0 then false else rs[upper - 1]?.any (·.Contains x)

theorem splits_lookup (h : Sorted rs) :
    Splits (fun i => rs[i]?.any (x < ·.start)) 0 rs.length
      (bisect (fun i => rs[i]?.any (x < ·.start)) rs.length 0 rs.length) := by
  refine bisect_splits ?_ le_rfl (by omega) fun i hle hlt => by omega
  intro i j hij hj hi
  have hi' : i < rs.length := by omega
  simp only [List.getElem?_eq_getElem hi', List.getElem?_eq_getElem hj, Option.any_some,
    decide_eq_true_eq] at hi ⊢
  rcases Nat.eq_or_lt_of_le hij with rfl | hlt
  · exact hi
  · exact hi.trans_le (List.pairwise_iff_getElem.mp h i j hi' hj hlt)

/-- **Bisection finds the interval that contains a point**, if the intervals are sorted and
lie apart. -/
theorem lookup_iff (hsorted : Sorted rs) (hsep : Separated rs) :
    lookup rs x = true ↔ Covers rs x := by
  have hsplit := splits_lookup (x := x) hsorted
  unfold lookup
  generalize bisect _ rs.length 0 rs.length = upper at hsplit
  constructor
  · intro h
    dsimp only at h
    split_ifs at h with hzero
    obtain ⟨r, hr, hin⟩ := Option.any_eq_true _ _ |>.mp h
    exact ⟨r, List.mem_of_getElem? hr, of_decide_eq_true hin⟩
  · rintro ⟨r, hr, hlo, hhi⟩
    obtain ⟨i, hi, rfl⟩ := List.getElem_of_mem hr
    -- the interval does not start behind the point, so it is not behind `upper`
    have hbefore : i < upper := by
      by_contra hge
      have hlt := hsplit.behind i (by omega) hi
      simp only [List.getElem?_eq_getElem hi, Option.any_some, decide_eq_true_eq] at hlt
      exact absurd hlo (not_le_of_gt hlt)
    have hsize := hsplit.le
    have hlast : upper - 1 < rs.length := by omega
    have hstart : rs[upper - 1].start ≤ x := by
      have hle := hsplit.before (upper - 1) (by omega) (by omega)
      simpa only [List.getElem?_eq_getElem hlast, Option.any_some, decide_eq_false_iff_not,
        not_lt] using hle
    -- if there were one between them, it would start behind the point
    have hsame : i = upper - 1 := by
      by_contra hne
      have hapart := List.pairwise_iff_getElem.mp hsep i (upper - 1) hi hlast (by omega)
      exact absurd (hapart.trans_le hstart) (not_lt_of_ge hhi)
    subst hsame
    dsimp only
    rw [if_neg (by omega), List.getElem?_eq_getElem hlast, Option.any_some]
    exact decide_eq_true ⟨hlo, hhi⟩

end Interval

end Shine
