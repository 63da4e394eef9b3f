import Shine.Route.GeoIp

/-!
# Geosite matching (`route/geo_matcher.cpp`)

`GeoSiteMatcher::load` sorts the entries of a country code into names, suffixes and
regular expressions; `match` tries a domain against them, the suffixes by a walk over its
labels. `std::regex` is a parameter.

`match_iff_applies` says what a category matches in terms of the entries of the file.
-/

namespace Shine

/-- `Domain_Type`. The enumeration is an open one: a file may hold other values. -/
inductive DomainType where
  | plain
  | regex
  | rootDomain
  | full
  | other
  deriving DecidableEq

/-- `Domain` of the data file. -/
structure Domain where
  type : DomainType
  value : Bytes
  deriving DecidableEq

/-- `GeoSite` of the data file. -/
structure GeoSite where
  countryCode : Bytes
  domain : List Domain
  deriving DecidableEq

/-- `std::regex`: its constructor, which throws on some texts, and `std::regex_search`. -/
structure StdRegex where
  Regex : Type
  compile : Bytes → Option Regex
  search : Bytes → Regex → Bool

namespace GeoSiteMatcher

variable {R : StdRegex}

/-- `Category`. -/
structure Category (R : StdRegex) where
  exact : Finset Bytes
  suffix : Finset Bytes
  regexes : List R.Regex

/-- `categories_`. -/
abbrev Categories (R : StdRegex) := Bytes → Option (Category R)

/-- `cat.regexes.emplace_back`, with the exception caught. -/
def addRegex (cat : Category R) (value : Bytes) : Category R :=
  match R.compile value with
  | some r => { cat with regexes := cat.regexes ++ [r] }
  | none => cat

/-- The body of the loop over the domains. A keyword is taken for a regular expression. -/
def addDomain (cat : Category R) (d : Domain) : Category R :=
  match d.type with
  | .full => { cat with exact := insert d.value cat.exact }
  | .rootDomain => { cat with suffix := insert d.value cat.suffix }
  | .regex => addRegex cat d.value
  | .plain => addRegex cat d.value
  | .other => cat

/-- The body of the loop over the entries. -/
def addEntry : Categories R → GeoSite → Categories R :=
  addItems ⟨∅, ∅, []⟩ addDomain (fun e => lowerCase e.countryCode) (·.domain)

/-- `GeoSiteMatcher::load`, of a file that holds `list`. -/
def load (m : Categories R) (list : List GeoSite) : Categories R := list.foldl addEntry m

/-- The loop over the labels behind its first test: `find` goes to the next dot, and the
name behind it is tried. -/
def walkOn (suffix : Finset Bytes) : Bytes → Bool
  | [] => false
  | b :: rest => (b = 46 && rest ∈ suffix) || walkOn suffix rest

/-- The loop over the labels. -/
def walk (suffix : Finset Bytes) (d : Bytes) : Bool := d ∈ suffix || walkOn suffix d

/-- `GeoSiteMatcher::match`. -/
def match_ (m : Categories R) (domain countryCode : Bytes) : Bool :=
  match m countryCode with
  | none => false
  | some cat =>
    domain ∈ cat.exact || walk cat.suffix domain || cat.regexes.any (R.search domain)

/-! ## What is matched -/

/-- The name is `v`, or ends with a dot and `v`. -/
def Under (d v : Bytes) : Prop := d = v ∨ ∃ labels, d = labels ++ 46 :: v

theorem walkOn_iff {suffix : Finset Bytes} {d : Bytes} :
    walkOn suffix d = true ↔ ∃ v ∈ suffix, ∃ labels, d = labels ++ 46 :: v := by
  induction d with
  | nil => simp [walkOn]
  | cons b rest ih =>
    simp only [walkOn, Bool.or_eq_true, Bool.and_eq_true, decide_eq_true_eq, ih]
    constructor
    · rintro (⟨rfl, hv⟩ | ⟨v, hv, labels, rfl⟩)
      · exact ⟨rest, hv, [], rfl⟩
      · exact ⟨v, hv, b :: labels, rfl⟩
    · rintro ⟨v, hv, labels, heq⟩
      cases labels with
      | nil =>
        obtain ⟨rfl, rfl⟩ := List.cons.inj heq
        exact .inl ⟨rfl, hv⟩
      | cons c labels =>
        obtain ⟨-, rfl⟩ := List.cons.inj heq
        exact .inr ⟨v, hv, labels, rfl⟩

/-- **The walk finds the suffixes that the name is under.** -/
theorem walk_iff {suffix : Finset Bytes} {d : Bytes} :
    walk suffix d = true ↔ ∃ v ∈ suffix, Under d v := by
  rw [walk, Bool.or_eq_true, decide_eq_true_eq, walkOn_iff]
  constructor
  · rintro (hd | ⟨v, hv, hlabels⟩)
    · exact ⟨d, hd, .inl rfl⟩
    · exact ⟨v, hv, .inr hlabels⟩
  · rintro ⟨v, hv, rfl | hlabels⟩
    · exact .inl hv
    · exact .inr ⟨v, hv, hlabels⟩

/-- The entry of the file applies to the name. -/
def Applies (R : StdRegex) (item : Domain) (d : Bytes) : Prop :=
  match item.type with
  | .full => d = item.value
  | .rootDomain => Under d item.value
  | .regex | .plain => ∃ r, R.compile item.value = some r ∧ R.search d r = true
  | .other => False

/-- The name is matched by the category. -/
def Category.Matches (cat : Category R) (d : Bytes) : Prop :=
  d ∈ cat.exact ∨ (∃ v ∈ cat.suffix, Under d v) ∨ ∃ r ∈ cat.regexes, R.search d r = true

theorem matches_addRegex {cat : Category R} {value d : Bytes} :
    (addRegex cat value).Matches d
      ↔ cat.Matches d ∨ ∃ r, R.compile value = some r ∧ R.search d r = true := by
  rw [addRegex]
  cases hr : R.compile value with
  | none => simp
  | some r =>
    simp only [Category.Matches, List.mem_append, List.mem_singleton, or_and_right, exists_or,
      exists_eq_left, Option.some.injEq, exists_eq_left', or_assoc]

/-- The names of a category. -/
def names (R : StdRegex) : View (⟨∅, ∅, []⟩ : Category R) addDomain Bytes where
  sees := Category.Matches
  gives := Applies R
  not_sees_empty d := by simp [Category.Matches]
  sees_add cat item d := by
    rw [addDomain, Applies]
    cases item.type with
    | full => simp only [Category.Matches, Finset.mem_insert, or_assoc, or_comm]
    | rootDomain =>
      rw [Category.Matches, Category.Matches, Finset.exists_mem_insert]
      grind
    | regex => exact matches_addRegex
    | plain => exact matches_addRegex
    | other => simp

/-- A matcher that has loaded `list`. -/
def loaded (R : StdRegex) (list : List GeoSite) : Categories R := load (fun _ => none) list

/-- **A category matches the names that one of its entries in the file applies to.** -/
theorem match_iff_applies {list : List GeoSite} {d code : Bytes} :
    match_ (loaded R list) d code = true
      ↔ ∃ e ∈ list, lowerCase e.countryCode = code ∧ ∃ item ∈ e.domain, Applies R item d := by
  have hshows : (names R).Shows (loaded R list) code d
      ↔ ∃ e ∈ list, lowerCase e.countryCode = code ∧ ∃ item ∈ e.domain, Applies R item d :=
    (names R).shows_load list
  rw [← hshows]
  rw [match_, View.Shows]
  cases hcat : loaded R list code with
  | none => simp
  | some cat => simp [names, Category.Matches, walk_iff, or_assoc]

end GeoSiteMatcher

end Shine
