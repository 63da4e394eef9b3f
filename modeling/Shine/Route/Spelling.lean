import Shine.Route.Ecma
import Shine.Route.Naming

/-!
# How names are compared (`route/router.cpp`, `route/geo_matcher.cpp`)

A suffix is looked for in two ways: `endsWithSuffix` compares the end of the name and tests
the byte in front of it, `GeoSiteMatcher::match` walks over the labels of the name and looks
each rest up in a set. `suffix_matching` says that both mean the same.

All comparisons are of bytes. DNS names are not case-sensitive, so a client can write a name
that a rule does not know. What a rule lists as names, as parents of names and as patterns is
collected from `domain_exact`, `domain_suffix` and the geosite entries; `routing_ignores_case_iff`
says which lists leave no spelling out.
-/

namespace Shine

/-! ## Suffixes -/

namespace GeoSiteMatcher

/-- `d.find('.')`, and `d.substr(dot + 1)` if there is a dot. -/
def nextLabel (d : Bytes) : Option Bytes :=
  match d.dropWhile (· ≠ 46) with
  | [] => none
  | _ :: rest => some rest

/-- The loop over the labels, as often as `fuel` allows; none if it has not ended by then. -/
def walkLoop (suffix : Finset Bytes) : Nat → Bytes → Option Bool
  | 0, _ => none
  | fuel + 1, d =>
    if d ∈ suffix then some true
    else match nextLabel d with
      | none => some false
      | some rest => walkLoop suffix fuel rest

theorem length_nextLabel {d rest : Bytes} (h : nextLabel d = some rest) :
    rest.length < d.length := by
  have hlen := (List.dropWhile_suffix (l := d) (· ≠ 46)).length_le
  rw [nextLabel] at h
  cases hdrop : d.dropWhile (· ≠ 46) with
  | nil =>
    rw [hdrop] at h
    cases h
  | cons b tail =>
    rw [hdrop] at h hlen
    cases h
    exact hlen

/-- The walk goes on behind the next dot. -/
theorem walkOn_eq (suffix : Finset Bytes) (d : Bytes) :
    walkOn suffix d = (nextLabel d).elim false (walk suffix) := by
  induction d with
  | nil => rfl
  | cons b d ih =>
    by_cases hb : b = 46
    · subst hb
      rfl
    · have hnext : nextLabel (b :: d) = nextLabel d := by
        rw [nextLabel, List.dropWhile_cons_of_pos (by simpa using hb)]
        rfl
      rw [walkOn, hnext, ← ih]
      simp [hb]

/-- The loop ends, since the rest gets shorter. -/
theorem walkLoop_eq (suffix : Finset Bytes) {fuel : Nat} {d : Bytes} (h : d.length < fuel) :
    walkLoop suffix fuel d = some (walk suffix d) := by
  induction fuel generalizing d with
  | zero => omega
  | succ fuel ih =>
    rw [walkLoop, walk, walkOn_eq]
    by_cases hd : d ∈ suffix
    · simp [hd]
    · rw [if_neg hd]
      cases hnext : nextLabel d with
      | none => simp [hd]
      | some rest =>
        have hlt := length_nextLabel hnext
        simp only [hd, decide_false, Bool.false_or, Option.elim_some]
        exact ih (by omega)

end GeoSiteMatcher

/-- Without a dot in front of it, a suffix has to start a label. -/
theorem hasSuffix_iff_under {d v : Bytes} (hne : v ≠ []) (hdot : v.head? ≠ some 46) :
    HasSuffix d v ↔ GeoSiteMatcher.Under d v := by
  constructor
  · rintro ⟨-, rest, rfl, rfl | hhead | hlast⟩
    · exact .inl rfl
    · exact absurd hhead hdot
    · obtain ⟨labels, rfl⟩ := List.getLast?_eq_some_iff.mp hlast
      exact .inr ⟨labels, by simp⟩
  · rintro (rfl | ⟨labels, rfl⟩)
    · exact ⟨hne, [], rfl, .inl rfl⟩
    · exact ⟨hne, labels ++ [46], by simp, .inr (.inr (by simp))⟩

open GeoSiteMatcher in
/-- **Suffixes have one meaning.** -/
theorem suffix_matching (V : Finset Bytes) (d : Bytes) :
    (∀ fuel, d.length < fuel → walkLoop V fuel d = some (walk V d)) ∧
      (walk V d = true ↔ ∃ v ∈ V, d = v ∨ ∃ labels, d = labels ++ 46 :: v) ∧
      ∀ v, v ≠ [] → v.head? ≠ some 46 → endsWithSuffix d v = walk {v} d := by
  refine ⟨fun fuel => walkLoop_eq V, walk_iff, fun v hne hdot => ?_⟩
  rw [Bool.eq_iff_iff, endsWithSuffix_iff, hasSuffix_iff_under hne hdot, walk_iff]
  simp

/-! ## The case of letters -/

/-- A capital or small letter. -/
def IsLetter (b : UInt8) : Prop := (65 ≤ b ∧ b ≤ 90) ∨ (97 ≤ b ∧ b ≤ 122)

instance decidableIsLetter (b : UInt8) : Decidable (IsLetter b) :=
  inferInstanceAs (Decidable ((65 ≤ b ∧ b ≤ 90) ∨ (97 ≤ b ∧ b ≤ 122)))

/-- The requests differ at most in the case of the letters of the target name. -/
def SessionRequest.SameButCase (r r' : SessionRequest) : Prop :=
  ∃ d d' port, r.target = .domain d port ∧ r' = { r with target := .domain d' port } ∧
    lowerCase d = lowerCase d'

/-- A spelling of two texts together is one of each. -/
theorem lowerCase_append {a b d : Bytes} (h : lowerCase (a ++ b) = lowerCase d) :
    ∃ a' b', d = a' ++ b' ∧ lowerCase a = lowerCase a' ∧ lowerCase b = lowerCase b' := by
  rw [lowerCase, List.map_append] at h
  obtain ⟨a', b', rfl, ha, hb⟩ := List.map_eq_append_iff.mp h.symm
  exact ⟨a', b', rfl, ha.symm, hb.symm⟩

theorem eq_of_toLower {b c : UInt8} (hb : ¬ IsLetter b) (h : toLower b = toLower c) : c = b := by
  unfold toLower IsLetter at *
  grind

/-- A text without letters has one spelling. -/
theorem eq_of_lowerCase {v v' : Bytes} (hv : ∀ b ∈ v, ¬ IsLetter b)
    (h : lowerCase v = lowerCase v') : v' = v := by
  induction v generalizing v' with
  | nil => exact List.map_eq_nil_iff.mp h.symm
  | cons b v ih =>
    obtain ⟨hb, hrest⟩ := List.forall_mem_cons.mp hv
    obtain ⟨c, w, rfl, hc, hw⟩ := List.map_eq_cons_iff.mp h.symm
    rw [eq_of_toLower hb hc.symm, ih hrest hw.symm]

/-! ### What a rule lists -/

/-- The parent in a suffix: the names that end with the suffix at the border of a label are those
below it, and it itself if no dot is written in front. -/
def parentOf : Bytes → Option Bytes
  | [] => none
  | b :: rest => some (if b = 46 then rest else b :: rest)

theorem under_iff {d v : Bytes} : GeoSiteMatcher.Under d v ↔ d = v ∨ 46 :: v <:+ d := by
  refine or_congr_right ⟨?_, ?_⟩
  · rintro ⟨labels, rfl⟩
    exact List.suffix_append ..
  · rintro ⟨labels, rfl⟩
    exact ⟨labels, rfl⟩

theorem hasSuffix_iff_parent {d v : Bytes} : HasSuffix d v ↔
    (d = v ∧ v ≠ [] ∧ v.head? ≠ some 46) ∨ ∃ u, parentOf v = some u ∧ 46 :: u <:+ d := by
  cases v with
  | nil => simp [HasSuffix, parentOf]
  | cons b rest =>
    by_cases hb : b = 46
    · subst hb
      simp only [HasSuffix, parentOf, List.head?_cons, if_true, ne_eq, not_true_eq_false,
        and_false, false_or, Option.some.injEq, exists_eq_left', true_or, or_true, and_true,
        List.cons_ne_nil, not_false_eq_true, true_and]
      exact exists_congr fun labels => eq_comm
    · have hhead : (b :: rest).head? ≠ some 46 := by simpa using hb
      rw [hasSuffix_iff_under (List.cons_ne_nil _ _) hhead, under_iff]
      simp [parentOf, hb]

namespace RuleConfig

section Listed

variable (env : RouteEnv) (cfg : RouteConfig) (rc : RuleConfig)

/-- The geosite entries of the rule. -/
def items : List Domain :=
  ((env.entries env.parseGeoSiteList cfg.geositePath).filter
    fun e => lowerCase e.countryCode ∈ rc.geosite).flatMap (·.domain)

/-- The values of the entries of some types. -/
def valuesOf (types : List DomainType) : List Bytes :=
  ((rc.items env cfg).filter fun item => item.type ∈ types).map (·.value)

/-- The names that are listed. -/
def names : List Bytes :=
  rc.domainExact ++ rc.domainSuffix.filter (fun v => v ≠ [] ∧ v.head? ≠ some 46) ++
    rc.valuesOf env cfg [.full, .rootDomain]

/-- The names that all names below are listed of. -/
def parents : List Bytes :=
  rc.domainSuffix.filterMap parentOf ++ rc.valuesOf env cfg [.rootDomain]

/-- The keywords and regular expressions that are listed. -/
def patterns : List Bytes := rc.valuesOf env cfg [.plain, .regex]

/-- **No spelling is left out.** Every spelling of a listed name is listed or below a listed
parent; every spelling of a parent is a parent or below one; and there are no patterns but texts
without letters and syntax characters. -/
structure SpellingsListed : Prop where
  names : ∀ v ∈ rc.names env cfg, ∀ v', lowerCase v = lowerCase v' →
    v' ∈ rc.names env cfg ∨ ∃ u ∈ rc.parents env cfg, 46 :: u <:+ v'
  parents : ∀ v ∈ rc.parents env cfg, ∀ v', lowerCase v = lowerCase v' →
    v' ∈ rc.parents env cfg ∨ ∃ u ∈ rc.parents env cfg, 46 :: u <:+ v'
  patterns : ∀ v ∈ rc.patterns env cfg, ∀ b ∈ v, StdRegex.PatternChar b ∧ ¬ IsLetter b

end Listed

variable {env : RouteEnv} {cfg : RouteConfig} {rc : RuleConfig} {r r' : SessionRequest}

/-- For a request to a name, the criteria for names decide. -/
theorem matches_domain {d : Bytes} {port : UInt16} (h : r.target = .domain d port) :
    rc.Matches env cfg r ↔ (∀ tag, rc.inboundTag = some tag → tag = r.inboundTag) ∧
      ((¬ rc.Lists ∧ rc.inboundTag ≠ none) ∨ rc.NameSatisfies env cfg d) := by
  rw [Matches, h]
  simp [Address.isIP, Address.isDomain]

/-- A criterion that is satisfied is listed. -/
theorem NameSatisfies.lists {d : Bytes} (h : rc.NameSatisfies env cfg d) : rc.Lists := by
  rcases h with hexact | ⟨suffix, hsuffix, -⟩ | ⟨code, hcode, -⟩
  · exact .inl (List.ne_nil_of_mem hexact)
  · exact .inr (.inl (List.ne_nil_of_mem hsuffix))
  · exact .inr (.inr (.inl (List.ne_nil_of_mem hcode)))

theorem mem_items {item : Domain} : item ∈ rc.items env cfg ↔
    ∃ e ∈ env.entries env.parseGeoSiteList cfg.geositePath,
      lowerCase e.countryCode ∈ rc.geosite ∧ item ∈ e.domain := by
  simp [items, and_assoc]

theorem mem_valuesOf {types : List DomainType} {v : Bytes} :
    v ∈ rc.valuesOf env cfg types ↔
      ∃ item ∈ rc.items env cfg, item.type ∈ types ∧ item.value = v := by
  simp [valuesOf, and_assoc]

/-- What the geosite entries of the rule apply to. -/
theorem applies_iff {d : Bytes} :
    (∃ item ∈ rc.items env cfg, GeoSiteMatcher.Applies env.regex item d) ↔
      d ∈ rc.valuesOf env cfg [.full, .rootDomain] ∨
        (∃ u ∈ rc.valuesOf env cfg [.rootDomain], 46 :: u <:+ d) ∨
        ∃ v ∈ rc.patterns env cfg, ∃ r, env.regex.compile v = some r ∧
          env.regex.search d r = true := by
  simp only [patterns, mem_valuesOf]
  constructor
  · rintro ⟨item, hitem, happlies⟩
    obtain ⟨type, value⟩ := item
    cases type with
    | full => exact .inl ⟨_, hitem, by simp, happlies.symm⟩
    | rootDomain =>
      rcases under_iff.mp happlies with rfl | hbelow
      · exact .inl ⟨_, hitem, by simp, rfl⟩
      · exact .inr (.inl ⟨_, ⟨_, hitem, by simp, rfl⟩, hbelow⟩)
    | plain => exact .inr (.inr ⟨_, ⟨_, hitem, by simp, rfl⟩, happlies⟩)
    | regex => exact .inr (.inr ⟨_, ⟨_, hitem, by simp, rfl⟩, happlies⟩)
    | other => exact happlies.elim
  · rintro (⟨item, hitem, htype, rfl⟩ | ⟨_, ⟨item, hitem, htype, rfl⟩, hbelow⟩ |
      ⟨_, ⟨item, hitem, htype, rfl⟩, hfound⟩)
    all_goals
      refine ⟨item, hitem, ?_⟩
      rw [GeoSiteMatcher.Applies]
      simp only [List.mem_cons, List.not_mem_nil, or_false] at htype
    · rcases htype with htype | htype
      · rw [htype]
      · rw [htype]
        exact under_iff.mpr (.inl rfl)
    · rw [htype]
      exact under_iff.mpr (.inr hbelow)
    · rcases htype with htype | htype
      · rw [htype]
        exact hfound
      · rw [htype]
        exact hfound

/-- The name is listed, is below a listed parent or is found by a listed pattern. -/
theorem nameSatisfies_iff {d : Bytes} : rc.NameSatisfies env cfg d ↔
    d ∈ rc.names env cfg ∨ (∃ u ∈ rc.parents env cfg, 46 :: u <:+ d) ∨
      ∃ v ∈ rc.patterns env cfg, ∃ r, env.regex.compile v = some r ∧
        env.regex.search d r = true := by
  have hsuffix : (∃ v ∈ rc.domainSuffix, HasSuffix d v) ↔
      d ∈ rc.domainSuffix.filter (fun v => v ≠ [] ∧ v.head? ≠ some 46) ∨
        ∃ u ∈ rc.domainSuffix.filterMap parentOf, 46 :: u <:+ d := by
    simp only [hasSuffix_iff_parent, List.mem_filter, List.mem_filterMap, decide_eq_true_eq]
    constructor
    · rintro ⟨v, hv, ⟨rfl, hplain⟩ | ⟨u, hu, hbelow⟩⟩
      · exact .inl ⟨hv, hplain⟩
      · exact .inr ⟨u, ⟨v, hv, hu⟩, hbelow⟩
    · rintro (⟨hd, hplain⟩ | ⟨u, ⟨v, hv, hu⟩, hbelow⟩)
      · exact ⟨d, hd, .inl ⟨rfl, hplain⟩⟩
      · exact ⟨v, hv, .inr ⟨u, hu, hbelow⟩⟩
  have hgeosite : (∃ code ∈ rc.geosite, ∃ e ∈ env.entries env.parseGeoSiteList cfg.geositePath,
      lowerCase e.countryCode = code ∧ ∃ item ∈ e.domain, GeoSiteMatcher.Applies env.regex item d)
        ↔ ∃ item ∈ rc.items env cfg, GeoSiteMatcher.Applies env.regex item d := by
    simp only [mem_items]
    constructor
    · rintro ⟨_, hcode, e, he, rfl, item, hitem, happlies⟩
      exact ⟨item, ⟨e, he, hcode, hitem⟩, happlies⟩
    · rintro ⟨item, ⟨e, he, hcode, hitem⟩, happlies⟩
      exact ⟨_, hcode, e, he, rfl, item, hitem, happlies⟩
  rw [NameSatisfies, hsuffix, hgeosite, applies_iff]
  simp only [names, parents, List.mem_append, or_and_right, exists_or, or_assoc]
  simp only [or_left_comm]

/-! ### Lists that leave no spelling out -/

/-- Lists without letters leave none out. -/
theorem SpellingsListed.of_no_letters
    (hnames : ∀ v ∈ rc.names env cfg, ∀ b ∈ v, ¬ IsLetter b)
    (hparents : ∀ v ∈ rc.parents env cfg, ∀ b ∈ v, ¬ IsLetter b)
    (hpatterns : ∀ v ∈ rc.patterns env cfg, ∀ b ∈ v, StdRegex.PatternChar b ∧ ¬ IsLetter b) :
    rc.SpellingsListed env cfg where
  names v hv v' hcase := .inl (eq_of_lowerCase (hnames v hv) hcase ▸ hv)
  parents v hv v' hcase := .inl (eq_of_lowerCase (hparents v hv) hcase ▸ hv)
  patterns := hpatterns

/-- A text without letters is contained in all spellings of a name, or in none. -/
theorem infix_of_spelling {v d d' : Bytes} (hv : ∀ b ∈ v, ¬ IsLetter b)
    (hcase : lowerCase d = lowerCase d') (hin : v <:+: d) : v <:+: d' := by
  obtain ⟨pre, post, rfl⟩ := hin
  obtain ⟨front, post', rfl, hfront, -⟩ := lowerCase_append hcase
  obtain ⟨pre', v', rfl, -, hv'⟩ := lowerCase_append hfront
  rw [eq_of_lowerCase hv hv']
  exact ⟨pre', post', rfl⟩

theorem below_of_spelling {u d d' : Bytes} (hcase : lowerCase d = lowerCase d')
    (hbelow : 46 :: u <:+ d) : ∃ u', lowerCase u = lowerCase u' ∧ 46 :: u' <:+ d' := by
  obtain ⟨labels, rfl⟩ := hbelow
  obtain ⟨labels', rest, rfl, -, hrest⟩ := lowerCase_append hcase
  obtain ⟨dot, u', rfl, hdot, hu⟩ := lowerCase_append (a := [46]) hrest
  obtain rfl : dot = [46] := eq_of_lowerCase (by decide +kernel) hdot
  exact ⟨u', hu, labels', rfl⟩

/-- **A rule that leaves no spelling out accepts all spellings of a name, or none.** -/
theorem SpellingsListed.nameSatisfies (hR : env.regex.Ecma) (h : rc.SpellingsListed env cfg)
    {d d' : Bytes} (hcase : lowerCase d = lowerCase d') (hd : rc.NameSatisfies env cfg d) :
    rc.NameSatisfies env cfg d' := by
  rw [nameSatisfies_iff] at hd ⊢
  rcases hd with hname | ⟨u, hu, hbelow⟩ | ⟨v, hv, r, hr, hfound⟩
  · exact (h.names d hname d' hcase).imp id .inl
  · obtain ⟨u', hcase', hbelow'⟩ := below_of_spelling hcase hbelow
    refine .inr (.inl ?_)
    rcases h.parents u hu u' hcase' with hu' | ⟨t, ht, hbelow''⟩
    · exact ⟨u', hu', hbelow'⟩
    · exact ⟨t, ht, hbelow''.trans ((List.suffix_cons 46 u').trans hbelow')⟩
  · obtain ⟨r', hr', hsearch⟩ := hR.literal fun b hb => (h.patterns v hv b hb).1
    obtain rfl := Option.some.inj (hr.symm.trans hr')
    refine .inr (.inr ⟨v, hv, r, hr, (hsearch d').mpr ?_⟩)
    exact infix_of_spelling (fun b hb => (h.patterns v hv b hb).2) hcase ((hsearch d).mp hfound)

/-- A name below `v`, longer than all those in a list: no dot is in front of the one before
`v`. -/
def longName (vs : List Bytes) (v : Bytes) : Bytes :=
  List.replicate (vs.flatten.length + 1) 48 ++ 46 :: v

theorem longName_not_mem (vs : List Bytes) (v : Bytes) : longName vs v ∉ vs := by
  intro hmem
  have hlen := (List.sublist_flatten_of_mem hmem).length_le
  simp only [longName, List.length_append, List.length_replicate] at hlen
  omega

theorem below_longName {vs : List Bytes} {v u : Bytes} (h : 46 :: u <:+ longName vs v) :
    u = v ∨ 46 :: u <:+ v := by
  rcases List.suffix_or_suffix_of_suffix h (List.suffix_append _ (46 :: v)) with hshort | hlong
  · rcases List.suffix_cons_iff.mp hshort with heq | hbelow
    · exact .inl (List.cons.inj heq).2
    · exact .inr hbelow
  · -- a longer end of the name would start with a digit
    obtain ⟨front, hfront⟩ := hlong
    cases front with
    | nil => exact .inl (List.cons.inj hfront).2.symm
    | cons b front =>
      obtain ⟨pre, hpre⟩ := h
      rw [← hfront, longName, ← List.append_assoc, List.append_left_inj] at hpre
      have hb : b ∈ List.replicate (vs.flatten.length + 1) (48 : UInt8) := by
        rw [← hpre]
        exact List.mem_append_right _ List.mem_cons_self
      rw [List.eq_of_mem_replicate hb] at hfront
      exact absurd (List.cons.inj hfront).1 (by decide)

/-- A rule without patterns that accepts all spellings of a name, or none, leaves none out. -/
theorem spellingsListed_of_blind (hpatterns : rc.patterns env cfg = [])
    (hblind : ∀ d d', lowerCase d = lowerCase d' → rc.NameSatisfies env cfg d →
      rc.NameSatisfies env cfg d') : rc.SpellingsListed env cfg := by
  have hlisted (d d' : Bytes) (hcase : lowerCase d = lowerCase d')
      (hd : d ∈ rc.names env cfg ∨ ∃ u ∈ rc.parents env cfg, 46 :: u <:+ d) :
      d' ∈ rc.names env cfg ∨ ∃ u ∈ rc.parents env cfg, 46 :: u <:+ d' := by
    have hd' := hblind d d' hcase (nameSatisfies_iff.mpr (hd.imp id .inl))
    simpa [nameSatisfies_iff, hpatterns] using hd'
  constructor
  · intro v hv v' hcase
    exact hlisted v v' hcase (.inl hv)
  · intro v hv v' hcase
    -- a long name below the parent is not listed as such
    have hlong : lowerCase (longName (rc.names env cfg) v)
        = lowerCase (longName (rc.names env cfg) v') := by
      simp only [longName, lowerCase, List.map_append, List.map_cons] at hcase ⊢
      rw [hcase]
    rcases hlisted _ _ hlong (.inr ⟨v, hv, List.suffix_append ..⟩) with hmem | ⟨u, hu, hbelow⟩
    · exact absurd hmem (longName_not_mem _ _)
    · rcases below_longName hbelow with rfl | hbelow
      · exact .inl hu
      · exact .inr ⟨u, hu, hbelow⟩
  · intro v hv
    rw [hpatterns] at hv
    cases hv

/-- The criteria for names depend on the geosite file only. -/
theorem nameSatisfies_congr {base : RouteConfig} (hpath : cfg.geositePath = base.geositePath)
    {d : Bytes} : rc.NameSatisfies env cfg d ↔ rc.NameSatisfies env base d := by
  rw [NameSatisfies, NameSatisfies, hpath]

theorem matches_of_blind (hblind : ∀ d d', lowerCase d = lowerCase d' →
      rc.NameSatisfies env cfg d → rc.NameSatisfies env cfg d') (h : r.SameButCase r') :
    rc.Matches env cfg r ↔ rc.Matches env cfg r' := by
  obtain ⟨d, d', port, htarget, rfl, hcase⟩ := h
  rw [matches_domain htarget, matches_domain (r := { r with target := .domain d' port }) rfl]
  have hname : rc.NameSatisfies env cfg d ↔ rc.NameSatisfies env cfg d' :=
    ⟨hblind d d' hcase, hblind d' d hcase.symm⟩
  rw [hname]

end RuleConfig

/-- What the rules do not tell apart is decided alike. -/
theorem RouteConfig.Decides.congr {env : RouteEnv} {cfg : RouteConfig} {r r' : SessionRequest}
    {tag : Bytes} (hrules : ∀ rc ∈ cfg.rules, rc.Matches env cfg r ↔ rc.Matches env cfg r')
    (h : cfg.Decides env r tag) : cfg.Decides env r' tag := by
  rcases h with ⟨before, rc, behind, hsplit, hbefore, hrc, rfl⟩ | ⟨hnone, rfl⟩
  · have hmem {rc' : RuleConfig} (h : rc' ∈ before ∨ rc' = rc) : rc' ∈ cfg.rules := by
      rw [hsplit]
      rcases h with h | rfl
      · exact List.mem_append_left _ h
      · exact List.mem_append_right _ List.mem_cons_self
    refine .inl ⟨before, rc, behind, hsplit, fun rc' h' hm => ?_, ?_, rfl⟩
    · exact hbefore rc' h' ((hrules rc' (hmem (.inl h'))).mpr hm)
    · exact (hrules rc (hmem (.inr rfl))).mp hrc
  · exact .inr ⟨fun rc h' hm => hnone rc h' ((hrules rc h').mpr hm), rfl⟩

/-- A route with one rule, which names another outbound than the default. -/
def RouteConfig.single (base : RouteConfig) (rc : RuleConfig) : RouteConfig :=
  { base with rules := [rc], defaultOutbound := 0 :: rc.outboundTag }

/-- A request to a name, from the inbound that the rule is for. -/
def RuleConfig.requestFor (rc : RuleConfig) (d : Bytes) : SessionRequest :=
  ⟨rc.inboundTag.getD [], ascii "socks5", .tcp, .domain d 80, true, false⟩

/-- Its decision shows whether the name satisfies the rule. -/
theorem RuleConfig.pick_single {env : RouteEnv} {base : RouteConfig} {rc : RuleConfig}
    {router : Router env.regex} (h : Router.compile env (base.single rc) = .ok router)
    (hlists : rc.Lists) (d : Bytes) :
    router.pick (rc.requestFor d) = rc.outboundTag ↔ rc.NameSatisfies env base d := by
  have hdecides := Router.pick_decides (Router.of_compile h) (rc.requestFor d)
  have htag : ∀ tag, rc.inboundTag = some tag → tag = (rc.requestFor d).inboundTag := by
    intro tag htag
    rw [requestFor, htag]
    rfl
  have hmatches : rc.Matches env (base.single rc) (rc.requestFor d)
      ↔ rc.NameSatisfies env base d := by
    rw [matches_domain (r := rc.requestFor d) rfl]
    simp only [hlists, not_true_eq_false, false_and, false_or]
    exact and_iff_right htag
  have hne : 0 :: rc.outboundTag ≠ rc.outboundTag := List.cons_ne_self _ _
  by_cases hname : rc.NameSatisfies env base d
  · refine iff_of_true (hdecides.unique ?_) hname
    exact .inl ⟨[], rc, [], rfl, by simp, hmatches.mpr hname, rfl⟩
  · have hnone : ∀ rc' ∈ [rc], ¬ rc'.Matches env (base.single rc) (rc.requestFor d) := by
      intro rc' hrc'
      rw [List.mem_singleton.mp hrc', hmatches]
      exact hname
    rw [hdecides.unique (.inr ⟨hnone, rfl⟩)]
    exact iff_of_false hne hname

/-- Routers with rules from `rules` and the geosite file of `base` decide alike on all spellings of
a name. -/
def RouteEnv.IgnoresCase (env : RouteEnv) (base : RouteConfig) (rules : Set RuleConfig) : Prop :=
  ∀ (cfg : RouteConfig) (router : Router env.regex), cfg.geositePath = base.geositePath →
    (∀ rc ∈ cfg.rules, rc ∈ rules) → Router.compile env cfg = .ok router →
      ∀ r r', r.SameButCase r' → router.pick r = router.pick r'

/-- **Routing ignores the case of names if every rule lists all spellings.** For rules without
patterns this is necessary too. A rule whose networks cannot be read does not matter. -/
theorem routing_ignores_case_iff (env : RouteEnv) (hR : env.regex.Ecma) (base : RouteConfig)
    (rules : Set RuleConfig) :
    ((∀ rc ∈ rules, rc.Readable env → rc.SpellingsListed env base) →
        env.IgnoresCase base rules) ∧
      (env.IgnoresCase base rules → ∀ rc ∈ rules, rc.Readable env →
        rc.patterns env base = [] → rc.SpellingsListed env base) := by
  constructor
  · intro hlisted cfg router hpath hrules hrouter r r' hcase
    have hof := Router.of_compile hrouter
    have hreadable := Router.compile_isOk.mp ⟨router, hrouter⟩
    refine RouteConfig.Decides.unique (Router.pick_decides hof r |>.congr fun rc hrc => ?_)
      (Router.pick_decides hof r')
    refine RuleConfig.matches_of_blind (fun d d' hdd hd => ?_) hcase
    rw [RuleConfig.nameSatisfies_congr hpath] at hd ⊢
    exact (hlisted rc (hrules rc hrc) (hreadable rc hrc)).nameSatisfies hR hdd hd
  · intro hall rc hrc hreadable hpatterns
    refine RuleConfig.spellingsListed_of_blind hpatterns fun d d' hcase hname => ?_
    obtain ⟨router, hrouter⟩ : ∃ router, Router.compile env (base.single rc) = .ok router :=
      Router.compile_isOk.mpr fun rc' hrc' => List.mem_singleton.mp hrc' ▸ hreadable
    have hlists := hname.lists
    have hpick : router.pick (rc.requestFor d) = router.pick (rc.requestFor d') :=
      hall (base.single rc) router rfl (fun rc' hrc' => List.mem_singleton.mp hrc' ▸ hrc) hrouter
        _ _ ⟨d, d', 80, rfl, rfl, hcase⟩
    rw [← RuleConfig.pick_single hrouter hlists, ← hpick, RuleConfig.pick_single hrouter hlists]
    exact hname

/-- An environment whose regular expressions are those of ECMAScript. -/
def sampleRouteEnv : RouteEnv := { Main.sampleEnv with regex := .dots }

/-- A rule for names below `12306`. -/
def digitsRule : RuleConfig := ⟨none, [], [ascii ".12306"], [], [], [], ascii "block"⟩

theorem routing_ignores_case_iff_digits : sampleRouteEnv.regex.Ecma ∧
    sampleRouteEnv.IgnoresCase (routeByName []) {digitsRule} := by
  refine ⟨StdRegex.dots_ecma,
    (routing_ignores_case_iff sampleRouteEnv StdRegex.dots_ecma (routeByName []) _).1 ?_⟩
  rintro rc rfl -
  exact .of_no_letters (by decide +kernel) (by decide +kernel) (by decide +kernel)

/-- A rule that blocks `weibo.cn` lets `Weibo.cn` through. -/
theorem routing_case_bypassed :
    ¬ ∀ (env : RouteEnv) (cfg : RouteConfig) (router : Router env.regex),
      Router.compile env cfg = .ok router →
        ∀ r r', r.SameButCase r' → router.pick r = router.pick r' := by
  intro hall
  have hsame := hall Main.sampleEnv (routeByName (ascii "weibo.cn")) _ rfl
    (Socks5Inbound.tcpRequest [] [] (.domain (ascii "weibo.cn") 80))
    (Socks5Inbound.tcpRequest [] [] (.domain (ascii "Weibo.cn") 80))
    ⟨ascii "weibo.cn", ascii "Weibo.cn", 80, rfl, rfl, by decide⟩
  exact absurd hsame (by decide)

end Shine
