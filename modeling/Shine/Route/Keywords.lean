import Shine.Route.Ecma

/-!
# Keywords of a geosite file (`route/geo_matcher.cpp`)

An entry of type `Plain` is a keyword: it stands for the names that contain it.
`GeoSiteMatcher::load` compiles it as a regular expression, as it does with the entries of
type `Regex`, and drops it without a word if that throws.

For a text without syntax characters that is the same. A dot in a keyword stands for any
character, so that `a.b` matches `axb`, a keyword with an open bracket matches nothing, and no
other operator stands for itself either (`keywords_contained_iff`).
-/

namespace Shine

namespace GeoSiteMatcher

variable {R : StdRegex} {list : List GeoSite} {code : Bytes} {keywords : Set Bytes}

/-- The entries of the category are keywords from the set. -/
def OnlyKeywords (list : List GeoSite) (code : Bytes) (keywords : Set Bytes) : Prop :=
  ∀ e ∈ list, lowerCase e.countryCode = code →
    ∀ item ∈ e.domain, item.type = .plain ∧ item.value ∈ keywords

/-- The category has a keyword that the name contains. -/
def ContainsKeyword (list : List GeoSite) (code d : Bytes) : Prop :=
  ∃ e ∈ list, lowerCase e.countryCode = code ∧ ∃ item ∈ e.domain, item.value <:+: d

/-- Categories of keywords match the names that contain one of them. -/
def KeywordsContained (R : StdRegex) (keywords : Set Bytes) : Prop :=
  ∀ list code, OnlyKeywords list code keywords →
    ∀ d, match_ (loaded R list) d code = true ↔ ContainsKeyword list code d

theorem applies_iff_of_literal {item : Domain} {d : Bytes} (htype : item.type = .plain)
    (h : R.Literal item.value) : Applies R item d ↔ item.value <:+: d := by
  obtain ⟨r, hr, hsearch⟩ := h
  rw [Applies, htype, ← hsearch]
  simp only [hr, Option.some.injEq, exists_eq_left']

/-- A category with one keyword. -/
theorem match_single {v d : Bytes} :
    match_ (loaded R [⟨[], [⟨.plain, v⟩]⟩]) d [] = true
      ↔ ∃ r, R.compile v = some r ∧ R.search d r = true := by
  rw [match_iff_applies]
  simp [Applies, lowerCase]

/-- The keywords can be looked at one by one. -/
theorem keywordsContained_iff : KeywordsContained R keywords ↔ ∀ v ∈ keywords, R.Literal v := by
  constructor
  · intro hall v hv
    have honly : OnlyKeywords [⟨[], [⟨.plain, v⟩]⟩] [] keywords := by
      simp [OnlyKeywords, hv]
    have hmatch (d : Bytes) : (∃ r, R.compile v = some r ∧ R.search d r = true) ↔ v <:+: d := by
      rw [← match_single, hall _ _ honly d]
      simp [ContainsKeyword, lowerCase]
    obtain ⟨r, hr, -⟩ := (hmatch v).mpr (List.infix_refl v)
    refine ⟨r, hr, fun d => ?_⟩
    rw [← hmatch d]
    simp [hr]
  · intro hall list code honly d
    rw [match_iff_applies]
    constructor
    · rintro ⟨e, he, hcode, item, hitem, happlies⟩
      obtain ⟨htype, hvalue⟩ := honly e he hcode item hitem
      exact ⟨e, he, hcode, item, hitem,
        (applies_iff_of_literal htype (hall _ hvalue)).mp happlies⟩
    · rintro ⟨e, he, hcode, item, hitem, hin⟩
      obtain ⟨htype, hvalue⟩ := honly e he hcode item hitem
      exact ⟨e, he, hcode, item, hitem,
        (applies_iff_of_literal htype (hall _ hvalue)).mpr hin⟩

end GeoSiteMatcher

open GeoSiteMatcher StdRegex

/-- **Keywords match by containment if none of them holds a syntax character.** Of the keywords
without counts, lookaheads, word boundaries and back references, those with an operator do not:
if they are among the keywords, some category of keywords does not match by containment. -/
theorem keywords_contained_iff (R : StdRegex) (hR : R.Ecma) (keywords : Set Bytes) :
    ((∀ v ∈ keywords, ∀ p ∈ v, PatternChar p) → KeywordsContained R keywords) ∧
      (KeywordsContained R keywords →
        ∀ v ∈ keywords, Simple v → ∀ p ∈ v, p ∉ operators) := by
  constructor
  · intro hplain
    exact keywordsContained_iff.mpr fun v hv => hR.literal (hplain v hv)
  · intro hall v hv hsimple p hp hop
    exact hR.not_literal hsimple hp hop (keywordsContained_iff.mp hall v hv)

theorem keywords_contained_iff_google :
    dots.Ecma ∧ KeywordsContained dots {ascii "google", ascii "g-mail"} := by
  refine ⟨dots_ecma, (keywords_contained_iff dots dots_ecma _).1 ?_⟩
  rintro v (rfl | rfl)
  · decide +kernel
  · decide +kernel

/-- Wherever `std::regex` follows ECMAScript, the keyword `a.b` matches `axb`. -/
theorem keyword_with_dot_overmatches :
    (∃ R : StdRegex, R.Ecma) ∧ ∀ R : StdRegex, R.Ecma →
      match_ (loaded R [⟨ascii "cn", [⟨.plain, ascii "a.b"⟩]⟩]) (ascii "axb") (ascii "cn") = true ∧
        ¬ KeywordsContained R Set.univ := by
  refine ⟨⟨dots, dots_ecma⟩, fun R hR => ?_⟩
  have hdotted : ∀ p ∈ ascii "a.b", p = 46 ∨ PatternChar p := by decide +kernel
  constructor
  · obtain ⟨r, hr, hsearch⟩ := hR.dotted hdotted
    have hadmits : List.Forall₂ Admits (ascii "a.b") (ascii "axb") := by decide +kernel
    rw [match_iff_applies]
    refine ⟨_, List.mem_cons_self, by decide, _, List.mem_cons_self, r, hr, ?_⟩
    exact (hsearch _).mpr ⟨_, List.infix_refl _, hadmits⟩
  · intro hall
    exact hR.not_literal (simple_of_dotted hdotted) (by decide) (p := 46) (by decide)
      (keywordsContained_iff.mp hall (ascii "a.b") (Set.mem_univ _))

end Shine
