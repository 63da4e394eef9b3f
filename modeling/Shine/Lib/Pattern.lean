import Mathlib.Data.List.Infix

/-!
# Regular expressions that are searched for

A pattern takes a part of a text, between what is in front of it and what is behind: `Takes e pre
w post`. The anchors look at the two. `Found e d` says that the pattern takes some part of `d`,
which is what a search answers.

Whatever a pattern takes can be shrunk: iterations are left out and other characters put in, and
the pattern takes what is left in smaller surroundings too (`Shrinks`). There is one rule for each
operator; an anchor stays satisfied because nothing is shrunk that was not there.
-/

namespace Shine

/-- A regular expression over an alphabet. -/
inductive Pattern (α : Type) where
  /-- One character from a set. -/
  | one (p : α → Prop)
  | empty
  /-- The start of the text. -/
  | start
  /-- The end of the text. -/
  | stop
  | seq (a b : Pattern α)
  | alt (a b : Pattern α)
  | star (a : Pattern α)

namespace Pattern

variable {α : Type}

/-- The pattern takes `w` out of the text `pre ++ w ++ post`. -/
inductive Takes : Pattern α → List α → List α → List α → Prop where
  | one {p : α → Prop} {c : α} {pre post : List α} (hc : p c) : Takes (.one p) pre [c] post
  | empty {pre post : List α} : Takes .empty pre [] post
  | start {post : List α} : Takes .start [] [] post
  | stop {pre : List α} : Takes .stop pre [] []
  | seq {a b : Pattern α} {pre u w post : List α} (ha : Takes a pre u (w ++ post))
    (hb : Takes b (pre ++ u) w post) : Takes (.seq a b) pre (u ++ w) post
  | left {a b : Pattern α} {pre w post : List α} (ha : Takes a pre w post) :
    Takes (.alt a b) pre w post
  | right {a b : Pattern α} {pre w post : List α} (hb : Takes b pre w post) :
    Takes (.alt a b) pre w post
  | done {a : Pattern α} {pre post : List α} : Takes (.star a) pre [] post
  | more {a : Pattern α} {pre u w post : List α} (ha : Takes a pre u (w ++ post))
    (hrest : Takes (.star a) (pre ++ u) w post) : Takes (.star a) pre (u ++ w) post

/-- The pattern takes some part of the text. -/
def Found (e : Pattern α) (d : List α) : Prop :=
  ∃ pre w post, d = pre ++ w ++ post ∧ Takes e pre w post

/-- What is taken from surroundings `pre` and `post` can be shrunk to `w'`, which is taken from
surroundings that are empty where those are. -/
structure Shrinks (e : Pattern α) (pre w post w' : List α) : Prop where
  nil : w = [] → w' = []
  takes : ∀ pre' post', (pre = [] → pre' = []) → (post = [] → post' = []) → Takes e pre' w' post'

section Shrinks

variable {a b : Pattern α} {pre u u' w w' post : List α}

theorem Shrinks.one {p : α → Prop} {c c' : α} (hc : p c') : Shrinks (.one p) pre [c] post [c'] where
  nil h := absurd h (List.cons_ne_nil c [])
  takes _ _ _ _ := .one hc

theorem Shrinks.empty : Shrinks (.empty : Pattern α) pre [] post [] :=
  ⟨id, fun _ _ _ _ => .empty⟩

theorem Shrinks.start : Shrinks (.start : Pattern α) [] [] post [] where
  nil := id
  takes pre' post' hpre _ := by
    rw [hpre rfl]
    exact .start

theorem Shrinks.stop : Shrinks (.stop : Pattern α) pre [] [] [] where
  nil := id
  takes pre' post' _ hpost := by
    rw [hpost rfl]
    exact .stop

theorem Shrinks.seq (ha : Shrinks a pre u (w ++ post) u') (hb : Shrinks b (pre ++ u) w post w') :
    Shrinks (.seq a b) pre (u ++ w) post (u' ++ w') where
  nil h := by
    obtain ⟨hu, hw⟩ := List.append_eq_nil_iff.mp h
    rw [ha.nil hu, hb.nil hw, List.append_nil]
  takes pre' post' hpre hpost := by
    refine .seq (ha.takes _ _ hpre fun h => ?_) (hb.takes _ _ (fun h => ?_) hpost)
    · obtain ⟨hw, hp⟩ := List.append_eq_nil_iff.mp h
      rw [hb.nil hw, hpost hp, List.append_nil]
    · obtain ⟨hp, hu⟩ := List.append_eq_nil_iff.mp h
      rw [hpre hp, ha.nil hu, List.append_nil]

theorem Shrinks.left (ha : Shrinks a pre w post w') : Shrinks (.alt a b) pre w post w' :=
  ⟨ha.nil, fun pre' post' hpre hpost => .left (ha.takes pre' post' hpre hpost)⟩

theorem Shrinks.right (hb : Shrinks b pre w post w') : Shrinks (.alt a b) pre w post w' :=
  ⟨hb.nil, fun pre' post' hpre hpost => .right (hb.takes pre' post' hpre hpost)⟩

/-- All iterations are left out. -/
theorem Shrinks.star : Shrinks (.star a) pre w post [] :=
  ⟨fun _ => rfl, fun _ _ _ _ => .done⟩

/-- What has been shrunk is a text of its own in which the pattern is found. -/
theorem Shrinks.found (h : Shrinks a pre w post w') : Found a w' :=
  ⟨[], w', [], by simp, h.takes [] [] (fun _ => rfl) fun _ => rfl⟩

end Shrinks

end Pattern

end Shine
