import Shine.Lib.Pattern
import Shine.Route.GeoSite

/-!
# What ECMAScript makes of a text (`std::regex`)

`std::regex` is a parameter of the model. What is assumed of it is the grammar of ECMAScript:
a text that it accepts stands for a pattern that the grammar derives from it, and a search looks
for that pattern (`Ecma`). Left out are texts with counts in braces, lookaheads, word boundaries
and back references (`Simple`). What a bracket or an escape stands for is left open; it is one
character. So is what becomes of a closing bracket or brace that nothing opens, which some
libraries take for itself.

- `Ecma.literal`: a text without syntax characters is found where it is contained.
- `Ecma.not_literal`: a text with an operator is not. What the pattern finds in the text itself
  can be shrunk to a text in which it is found too, and which is shorter, because an operator
  takes up a place and stands for no character, or holds an `x` for a dot.
-/

namespace Shine

namespace StdRegex

/-- The syntax characters of ECMAScript that mean something in every place: circumflex, dollar,
backslash, dot, star, plus, question mark, parentheses, the opening bracket and the bar. -/
def operators : Bytes := [94, 36, 92, 46, 42, 43, 63, 40, 41, 91, 124]

/-- All syntax characters: the closing bracket and the braces too. -/
def syntaxChars : Bytes := operators ++ [93, 123, 125]

/-- A character of a pattern that stands for itself. -/
def PatternChar (c : UInt8) : Prop := c ∉ syntaxChars

/-- A character that a dot stands for: one that does not end a line. -/
def AnyChar (c : UInt8) : Prop := c ≠ lf ∧ c ≠ cr

instance decidablePatternChar (c : UInt8) : Decidable (PatternChar c) :=
  inferInstanceAs (Decidable (c ∉ syntaxChars))

instance decidableAnyChar (c : UInt8) : Decidable (AnyChar c) :=
  inferInstanceAs (Decidable (c ≠ lf ∧ c ≠ cr))

/-- The nonterminals of the grammar. -/
inductive Part where
  | disjunction
  | alternative
  | term
  | atom

/-- The mark behind a quantifier that makes it a lazy one. It changes which part of a text is
found first, not whether one is found. -/
def lazyMark (isLazy : Bool) : Bytes := if isLazy then [63] else []

/-- The grammar derives the pattern from the text. -/
inductive Derives : Part → Bytes → Pattern UInt8 → Prop where
  | alternative {v : Bytes} {e : Pattern UInt8} (h : Derives .alternative v e) :
    Derives .disjunction v e
  | bar {u w : Bytes} {a b : Pattern UInt8} (ha : Derives .alternative u a)
    (hb : Derives .disjunction w b) : Derives .disjunction (u ++ 124 :: w) (.alt a b)
  | nil : Derives .alternative [] .empty
  | cons {u w : Bytes} {a b : Pattern UInt8} (ha : Derives .term u a)
    (hb : Derives .alternative w b) : Derives .alternative (u ++ w) (.seq a b)
  | start : Derives .term [94] .start
  | stop : Derives .term [36] .stop
  | atom {v : Bytes} {e : Pattern UInt8} (h : Derives .atom v e) : Derives .term v e
  | star {u : Bytes} {a : Pattern UInt8} (isLazy : Bool) (h : Derives .atom u a) :
    Derives .term (u ++ 42 :: lazyMark isLazy) (.star a)
  | plus {u : Bytes} {a : Pattern UInt8} (isLazy : Bool) (h : Derives .atom u a) :
    Derives .term (u ++ 43 :: lazyMark isLazy) (.seq a (.star a))
  | opt {u : Bytes} {a : Pattern UInt8} (isLazy : Bool) (h : Derives .atom u a) :
    Derives .term (u ++ 63 :: lazyMark isLazy) (.alt a .empty)
  | char {c : UInt8} (hc : c ∉ operators) : Derives .atom [c] (.one (· = c))
  | dot : Derives .atom [46] (.one AnyChar)
  | group {u : Bytes} {a : Pattern UInt8} (h : Derives .disjunction u a) :
    Derives .atom (40 :: (u ++ [41])) a
  /-- A group without a number. -/
  | passive {u : Bytes} {a : Pattern UInt8} (h : Derives .disjunction u a) :
    Derives .atom (40 :: 63 :: 58 :: (u ++ [41])) a
  | bracket {body : Bytes} {p : UInt8 → Prop} : Derives .atom (91 :: (body ++ [93])) (.one p)
  | escape {body : Bytes} {p : UInt8 → Prop} (hbody : body ≠ []) :
    Derives .atom (92 :: body) (.one p)

/-- No counts, lookaheads, word boundaries and back references. -/
structure Simple (v : Bytes) : Prop where
  count : 123 ∉ v
  lookahead : ∀ c ∈ ascii "=!", ¬ ascii "(?" ++ [c] <:+: v
  reference : ∀ c ∈ ascii "bB123456789", ¬ [92, c] <:+: v

/-- What ECMAScript says of a `std::regex`. -/
structure Ecma (R : StdRegex) : Prop where
  /-- Dots and characters that stand for themselves are accepted. -/
  accepts : ∀ v : Bytes, (∀ p ∈ v, p = 46 ∨ PatternChar p) → ∃ r, R.compile v = some r
  /-- What is accepted is searched for as the grammar says. -/
  meaning : ∀ v r, Simple v → R.compile v = some r →
    ∃ e, Derives .disjunction v e ∧ ∀ d, R.search d r = true ↔ e.Found d

/-- As a regular expression, `v` is found in the texts that contain it. -/
def Literal (R : StdRegex) (v : Bytes) : Prop :=
  ∃ r, R.compile v = some r ∧ ∀ d, R.search d r = true ↔ v <:+: d

variable {R : StdRegex} {v : Bytes}

/-! ## Texts without operators but dots -/

/-- The character of a pattern admits the character of a text. -/
def Admits (p c : UInt8) : Prop := if p = 46 then AnyChar c else c = p

theorem forall₂_admits_iff {w : Bytes} (h : 46 ∉ v) : List.Forall₂ Admits v w ↔ w = v := by
  induction v generalizing w with
  | nil => exact List.forall₂_nil_left_iff
  | cons p v ih =>
    obtain ⟨hp, hv⟩ := not_or.mp (mt List.mem_cons.mpr h)
    rw [List.forall₂_cons_left_iff]
    constructor
    · rintro ⟨c, w, hc, hw, rfl⟩
      rw [Admits, if_neg (Ne.symm hp)] at hc
      rw [hc, (ih hv).mp hw]
    · rintro rfl
      refine ⟨p, v, ?_, (ih hv).mpr rfl, rfl⟩
      rw [Admits, if_neg (Ne.symm hp)]

theorem takes_one_iff {p : UInt8 → Prop} {pre w post : Bytes} :
    Pattern.Takes (.one p) pre w post ↔ ∃ c, p c ∧ w = [c] := by
  constructor
  · rintro ⟨hc⟩
    exact ⟨_, hc, rfl⟩
  · rintro ⟨c, hc, rfl⟩
    exact .one hc

theorem forall₂_admits_singleton {p : UInt8} {w : Bytes} :
    List.Forall₂ Admits [p] w ↔ ∃ c, Admits p c ∧ w = [c] := by
  simp [List.forall₂_cons_left_iff]

/-- An operator other than the dot does not occur. -/
theorem not_mem_of_dotted (hv : ∀ p ∈ v, p = 46 ∨ PatternChar p) {c : UInt8}
    (hc : c ∈ syntaxChars) (hdot : c ≠ 46) : c ∉ v := by
  intro hmem
  exact (hv c hmem).elim hdot fun hplain => hplain hc

/-- **A pattern of dots and characters takes what they admit**, whatever its derivation. -/
theorem Derives.takes_iff {part : Part} {e : Pattern UInt8} (h : Derives part v e)
    (hv : ∀ p ∈ v, p = 46 ∨ PatternChar p) {pre w post : Bytes} :
    e.Takes pre w post ↔ List.Forall₂ Admits v w := by
  induction h generalizing pre w post with
  | alternative _ ih => exact ih hv
  | atom _ ih => exact ih hv
  | nil =>
    rw [List.forall₂_nil_left_iff]
    constructor
    · rintro ⟨⟩
      rfl
    · rintro rfl
      exact .empty
  | @cons u w' a b _ _ iha ihb =>
    have hu : ∀ p ∈ u, p = 46 ∨ PatternChar p := fun p hp => hv p (List.mem_append_left _ hp)
    have hw : ∀ p ∈ w', p = 46 ∨ PatternChar p := fun p hp => hv p (List.mem_append_right _ hp)
    constructor
    · rintro (_ | _ | _ | _ | ⟨ha, hb⟩)
      exact List.rel_append ((iha hu).mp ha) ((ihb hw).mp hb)
    · intro hadmits
      have ha := List.forall₂_take_append w u w' hadmits.flip
      have hb := List.forall₂_drop_append w u w' hadmits.flip
      rw [← List.take_append_drop u.length w]
      exact .seq ((iha hu).mpr ha.flip) ((ihb hw).mpr hb.flip)
  | @char c hc =>
    have hdot : c ≠ 46 := by
      rintro rfl
      exact hc (by decide)
    rw [takes_one_iff, forall₂_admits_singleton]
    simp only [Admits, if_neg hdot]
  | dot => rw [takes_one_iff, forall₂_admits_singleton]; rfl
  | bar => exact absurd (by simp) (not_mem_of_dotted hv (c := 124) (by decide) (by decide))
  | start => exact absurd (by simp) (not_mem_of_dotted hv (c := 94) (by decide) (by decide))
  | stop => exact absurd (by simp) (not_mem_of_dotted hv (c := 36) (by decide) (by decide))
  | star => exact absurd (by simp) (not_mem_of_dotted hv (c := 42) (by decide) (by decide))
  | plus => exact absurd (by simp) (not_mem_of_dotted hv (c := 43) (by decide) (by decide))
  | opt => exact absurd (by simp) (not_mem_of_dotted hv (c := 63) (by decide) (by decide))
  | group => exact absurd (by simp) (not_mem_of_dotted hv (c := 40) (by decide) (by decide))
  | passive => exact absurd (by simp) (not_mem_of_dotted hv (c := 40) (by decide) (by decide))
  | bracket => exact absurd (by simp) (not_mem_of_dotted hv (c := 91) (by decide) (by decide))
  | escape => exact absurd (by simp) (not_mem_of_dotted hv (c := 92) (by decide) (by decide))

theorem simple_of_dotted (hv : ∀ p ∈ v, p = 46 ∨ PatternChar p) : Simple v where
  count := not_mem_of_dotted hv (by decide) (by decide)
  lookahead c _ hin := not_mem_of_dotted hv (c := 40) (by decide) (by decide)
    (hin.subset (List.mem_append_left _ (by decide)))
  reference c _ hin := not_mem_of_dotted hv (c := 92) (by decide) (by decide)
    (hin.subset List.mem_cons_self)

/-- What a text of dots and characters is found in. -/
theorem Ecma.dotted (hR : R.Ecma) (hv : ∀ p ∈ v, p = 46 ∨ PatternChar p) :
    ∃ r, R.compile v = some r ∧
      ∀ d, R.search d r = true ↔ ∃ w, w <:+: d ∧ List.Forall₂ Admits v w := by
  obtain ⟨r, hr⟩ := hR.accepts v hv
  obtain ⟨e, hderives, hsearch⟩ := hR.meaning v r (simple_of_dotted hv) hr
  refine ⟨r, hr, fun d => ?_⟩
  rw [hsearch]
  constructor
  · rintro ⟨pre, w, post, rfl, htakes⟩
    exact ⟨w, ⟨pre, post, rfl⟩, (hderives.takes_iff hv).mp htakes⟩
  · rintro ⟨w, ⟨pre, post, rfl⟩, hadmits⟩
    exact ⟨pre, w, post, rfl, (hderives.takes_iff hv).mpr hadmits⟩

/-- **Texts without syntax characters are found literally.** -/
theorem Ecma.literal (hR : R.Ecma) (hv : ∀ p ∈ v, PatternChar p) : R.Literal v := by
  obtain ⟨r, hr, hsearch⟩ := hR.dotted fun p hp => Or.inr (hv p hp)
  have hdot : 46 ∉ v := fun hmem => hv 46 hmem (by decide)
  refine ⟨r, hr, fun d => ?_⟩
  rw [hsearch]
  constructor
  · rintro ⟨w, hw, hadmits⟩
    rwa [(forall₂_admits_iff hdot).mp hadmits] at hw
  · intro hin
    exact ⟨v, hin, (forall₂_admits_iff hdot).mpr rfl⟩

/-! ## Operators -/

/-- A text is no longer than the pattern's, and where it is as long there is no operator but dots,
and none of those has been put into it. -/
structure Fits (v w : Bytes) : Prop where
  le : w.length ≤ v.length
  full : w.length = v.length → (∀ p ∈ v, p = 46 ∨ p ∉ operators) ∧ 46 ∉ w

theorem Fits.of_lt {w : Bytes} (h : w.length < v.length) : Fits v w :=
  ⟨h.le, fun heq => absurd heq h.ne⟩

/-- What fits a part of the text is shorter than the whole. -/
theorem Fits.within {u w : Bytes} (h : Fits u w) (hlt : u.length < v.length) : Fits v w :=
  .of_lt (h.le.trans_lt hlt)

theorem Fits.append {u u' w w' : Bytes} (hu : Fits u u') (hw : Fits w w') :
    Fits (u ++ w) (u' ++ w') where
  le := by
    have := hu.le
    have := hw.le
    simp only [List.length_append]
    omega
  full := by
    intro heq
    simp only [List.length_append] at heq
    have hle := hu.le
    have hle' := hw.le
    obtain ⟨hplain, hdot⟩ := hu.full (by omega)
    obtain ⟨hplain', hdot'⟩ := hw.full (by omega)
    refine ⟨fun p hp => ?_, fun hmem => ?_⟩
    · exact (List.mem_append.mp hp).elim (hplain p) (hplain' p)
    · exact (List.mem_append.mp hmem).elim hdot hdot'

/-- **What a pattern takes can be shrunk to the length of its text**, and below where the text has
an operator. -/
theorem Derives.shrinks {part : Part} {e : Pattern UInt8} (h : Derives part v e)
    {pre w post : Bytes} (ht : e.Takes pre w post) :
    ∃ w', e.Shrinks pre w post w' ∧ Fits v w' := by
  induction h generalizing pre w post with
  | alternative _ ih => exact ih ht
  | atom _ ih => exact ih ht
  | nil =>
    cases ht
    exact ⟨[], .empty, ⟨le_rfl, fun _ => ⟨nofun, nofun⟩⟩⟩
  | cons _ _ iha ihb =>
    cases ht with
    | seq ha hb =>
      obtain ⟨u', hu, hfits⟩ := iha ha
      obtain ⟨w', hw, hfits'⟩ := ihb hb
      exact ⟨u' ++ w', hu.seq hw, hfits.append hfits'⟩
  | bar _ _ iha ihb =>
    cases ht with
    | left ha =>
      obtain ⟨w', hw, hfits⟩ := iha ha
      exact ⟨w', hw.left, hfits.within (by simp)⟩
    | right hb =>
      obtain ⟨w', hw, hfits⟩ := ihb hb
      exact ⟨w', hw.right, hfits.within (by simp; omega)⟩
  | start =>
    cases ht
    exact ⟨[], .start, .of_lt Nat.one_pos⟩
  | stop =>
    cases ht
    exact ⟨[], .stop, .of_lt Nat.one_pos⟩
  | star => exact ⟨[], .star, .of_lt (by simp)⟩
  | plus isLazy _ ih =>
    -- one iteration is left
    cases ht with
    | seq ha hb =>
      obtain ⟨u', hu, hfits⟩ := ih ha
      refine ⟨u' ++ [], hu.seq .star, ?_⟩
      rw [List.append_nil]
      exact hfits.within (by simp)
  | opt isLazy _ ih =>
    cases ht with
    | left ha =>
      obtain ⟨w', hw, hfits⟩ := ih ha
      exact ⟨w', hw.left, hfits.within (by simp)⟩
    | right hb =>
      cases hb
      exact ⟨[], Pattern.Shrinks.empty.right, .of_lt (by simp)⟩
  | @char c hc =>
    cases ht with
    | one hw =>
      have hdot : c ≠ 46 := by
        rintro rfl
        exact hc (by decide)
      refine ⟨[c], .one rfl, ⟨le_rfl, fun _ => ⟨fun p hp => ?_, fun hmem => ?_⟩⟩⟩
      · rw [List.mem_singleton.mp hp]
        exact .inr hc
      · exact hdot (List.mem_singleton.mp hmem).symm
  | dot =>
    cases ht with
    | one hw =>
      refine ⟨[120], .one (by decide), ⟨le_rfl, fun _ => ⟨fun p hp => ?_, by decide⟩⟩⟩
      exact .inl (List.mem_singleton.mp hp)
  | group _ ih =>
    obtain ⟨w', hw, hfits⟩ := ih ht
    exact ⟨w', hw, hfits.within (by simp)⟩
  | passive _ ih =>
    obtain ⟨w', hw, hfits⟩ := ih ht
    exact ⟨w', hw, hfits.within (by simp; omega)⟩
  | bracket =>
    cases ht with
    | one hw => exact ⟨_, .one hw, .of_lt (by simp)⟩
  | escape hbody =>
    cases ht with
    | one hw =>
      exact ⟨_, .one hw, .of_lt (Nat.succ_lt_succ (List.length_pos_of_ne_nil hbody))⟩

/-- **A text with an operator is not found literally.** -/
theorem Ecma.not_literal (hR : R.Ecma) (hsimple : Simple v) {p : UInt8} (hp : p ∈ v)
    (hop : p ∈ operators) : ¬ R.Literal v := by
  rintro ⟨r, hr, hliteral⟩
  obtain ⟨e, hderives, hsearch⟩ := hR.meaning v r hsimple hr
  obtain ⟨pre, w, post, -, htakes⟩ := (hsearch v).mp ((hliteral v).mpr (List.infix_refl v))
  obtain ⟨w', hshrinks, hfits⟩ := hderives.shrinks htakes
  have hin : v <:+: w' := (hliteral w').mp ((hsearch w').mpr hshrinks.found)
  have hlen : w'.length = v.length := le_antisymm hfits.le hin.length_le
  obtain ⟨hplain, hdot⟩ := hfits.full hlen
  rcases hplain p hp with rfl | hnot
  · exact hdot (hin.subset hp)
  · exact hnot hop

/-! ## The patterns without other operators, matched -/

instance decidableAdmits (p c : UInt8) : Decidable (Admits p c) :=
  inferInstanceAs (Decidable (if p = 46 then AnyChar c else c = p))

/-- The text starts with something that the pattern admits. -/
def admitsFront : Bytes → Bytes → Bool
  | [], _ => true
  | _ :: _, [] => false
  | p :: v, c :: d => decide (Admits p c) && admitsFront v d

/-- An engine for the patterns of dots and characters that stand for themselves. -/
def dots : StdRegex where
  Regex := Bytes
  compile v := if ∀ p ∈ v, p = 46 ∨ PatternChar p then some v else none
  search d r := d.tails.any (admitsFront r)

theorem admitsFront_iff {d : Bytes} :
    admitsFront v d = true ↔ ∃ w, w <+: d ∧ List.Forall₂ Admits v w := by
  induction v generalizing d with
  | nil => exact iff_of_true rfl ⟨[], List.nil_prefix, .nil⟩
  | cons p v ih =>
    cases d with
    | nil =>
      refine iff_of_false Bool.false_ne_true ?_
      rintro ⟨w, hw, hadmits⟩
      obtain rfl := List.prefix_nil.mp hw
      cases hadmits
    | cons c d =>
      rw [admitsFront, Bool.and_eq_true, decide_eq_true_iff, ih]
      constructor
      · rintro ⟨hc, w, hw, hadmits⟩
        exact ⟨c :: w, List.prefix_cons_inj c |>.mpr hw, .cons hc hadmits⟩
      · rintro ⟨w, hw, hadmits⟩
        obtain ⟨c', w, hc, hrest, rfl⟩ := List.forall₂_cons_left_iff.mp hadmits
        obtain ⟨rfl, hfront⟩ := List.cons_prefix_cons.mp hw
        exact ⟨hc, w, hfront, hrest⟩

theorem exists_derives (hv : ∀ p ∈ v, p = 46 ∨ PatternChar p) :
    ∃ e, Derives .alternative v e := by
  induction v with
  | nil => exact ⟨.empty, .nil⟩
  | cons p v ih =>
    obtain ⟨hp, hrest⟩ := List.forall_mem_cons.mp hv
    obtain ⟨e, he⟩ := ih hrest
    rcases hp with rfl | hp
    · exact ⟨_, .cons (.atom .dot) he⟩
    · have hop : p ∉ operators := fun hmem => hp (List.mem_append_left _ hmem)
      exact ⟨_, .cons (.atom (.char hop)) he⟩

theorem dots_ecma : dots.Ecma where
  accepts v hv := ⟨v, if_pos hv⟩
  meaning v r _ hr := by
    obtain ⟨hv, heq⟩ := Option.ite_none_right_eq_some.mp hr
    obtain rfl := Option.some.inj heq
    obtain ⟨e, he⟩ := exists_derives hv
    refine ⟨e, .alternative he, fun d => ?_⟩
    show d.tails.any (admitsFront v) = true ↔ _
    simp only [List.any_eq_true, List.mem_tails, admitsFront_iff]
    constructor
    · rintro ⟨t, ⟨pre, rfl⟩, w, ⟨post, rfl⟩, hadmits⟩
      exact ⟨pre, w, post, by simp, (he.takes_iff hv).mpr hadmits⟩
    · rintro ⟨pre, w, post, rfl, htakes⟩
      exact ⟨w ++ post, ⟨pre, by simp⟩, w, ⟨post, rfl⟩, (he.takes_iff hv).mp htakes⟩

end StdRegex

end Shine
