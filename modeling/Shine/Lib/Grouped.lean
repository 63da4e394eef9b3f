import Mathlib

/-!
# Items grouped by key

A table holds a group for each key that has occurred. Entries come with a key and some
items; each item is added to the group of the key, which is made when it is missing.

`View` is a way to look at groups for which adding is a union. What a group shows after a
load is what the items of the entries with its key give (`View.shows_load`); neither the
order of the entries nor how often a key occurs matters.

`foldlM_checked` is for loops that stop at an item they do not accept.
-/

namespace Shine

universe u v

/-! ## Loops that may stop -/

section Checked

variable {α β : Type u} {f : β → α → β} {g : β → α → Option β} {P : α → Prop} [DecidablePred P]

/-- A loop whose body checks `P` first checks it of every item. -/
theorem foldlM_checked (hg : ∀ b a, g b a = if P a then some (f b a) else none) (as : List α)
    (b : β) : as.foldlM g b = if ∀ a ∈ as, P a then some (as.foldl f b) else none := by
  induction as generalizing b with
  | nil => simp
  | cons a as ih =>
    rw [List.foldlM_cons, hg]
    by_cases ha : P a
    · rw [if_pos ha, List.foldl_cons]
      show as.foldlM g (f b a) = _
      rw [ih]
      simp [ha]
    · rw [if_neg ha, if_neg fun h => ha (h a List.mem_cons_self)]
      rfl

end Checked

/-! ## Groups -/

section Grouped

variable {K C D E : Type u} [DecidableEq K]

/-- Change the group of a key, made when it is missing. -/
def amend (empty : C) (m : K → Option C) (k : K) (f : C → C) : K → Option C :=
  Function.update m k (some (f ((m k).getD empty)))

variable (empty : C) (add : C → D → C) (key : E → K) (items : E → List D)

/-- Add the items of an entry to the group of its key. -/
def addItems (m : K → Option C) (e : E) : K → Option C :=
  amend empty m (key e) fun c => (items e).foldl add c

/-- What can be observed of a group: nothing at first, and an item adds what it gives. -/
structure View (β : Type v) where
  sees : C → β → Prop
  gives : D → β → Prop
  not_sees_empty : ∀ b, ¬ sees empty b
  sees_add : ∀ c d b, sees (add c d) b ↔ sees c b ∨ gives d b

namespace View

variable {empty add key items} {β : Type v} (V : View empty add β) {b : β}

/-- The group of the key shows `b`. -/
def Shows (m : K → Option C) (k : K) (b : β) : Prop := ∃ c, m k = some c ∧ V.sees c b

theorem sees_foldl (ds : List D) (c : C) :
    V.sees (ds.foldl add c) b ↔ V.sees c b ∨ ∃ d ∈ ds, V.gives d b := by
  induction ds generalizing c with
  | nil => simp
  | cons d ds ih => rw [List.foldl_cons, ih, V.sees_add, List.exists_mem_cons_iff, or_assoc]

omit [DecidableEq K] in
theorem sees_getD {m : K → Option C} {k : K} :
    V.sees ((m k).getD empty) b ↔ V.Shows m k b := by
  cases hk : m k with
  | none => simp [Shows, hk, V.not_sees_empty]
  | some c => simp [Shows, hk]

theorem shows_addItems {m : K → Option C} {k : K} (e : E) :
    V.Shows (addItems empty add key items m e) k b
      ↔ V.Shows m k b ∨ (key e = k ∧ ∃ d ∈ items e, V.gives d b) := by
  by_cases hk : key e = k
  · subst hk
    have hgroup : V.Shows (addItems empty add key items m e) (key e) b
        ↔ V.sees ((items e).foldl add ((m (key e)).getD empty)) b := by
      simp [Shows, addItems, amend]
    rw [hgroup, V.sees_foldl, V.sees_getD]
    simp
  · simp [Shows, addItems, amend, hk, Function.update_of_ne (Ne.symm hk)]

theorem shows_foldl {m : K → Option C} {k : K} (es : List E) :
    V.Shows (es.foldl (addItems empty add key items) m) k b
      ↔ V.Shows m k b ∨ ∃ e ∈ es, key e = k ∧ ∃ d ∈ items e, V.gives d b := by
  induction es generalizing m with
  | nil => simp
  | cons e es ih =>
    rw [List.foldl_cons, ih, V.shows_addItems, List.exists_mem_cons_iff, or_assoc]

/-- **A group shows what the items with its key give.** -/
theorem shows_load {k : K} (es : List E) :
    V.Shows (es.foldl (addItems empty add key items) fun _ => none) k b
      ↔ ∃ e ∈ es, key e = k ∧ ∃ d ∈ items e, V.gives d b := by
  rw [V.shows_foldl]
  simp [Shows]

end View

end Grouped

end Shine
