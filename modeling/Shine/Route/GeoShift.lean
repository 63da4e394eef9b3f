import Shine.Route.GeoIp

/-!
# The shifts of `GeoIpMatcher::load` (`route/geo_matcher.cpp`)

The mask of a CIDR is a shift by the width of the address less the prefix, and nothing has
compared the two before: a prefix that is too long makes the unsigned difference wrap, and
the shift has no meaning. `loadChecked` is `load` with every shift checked; it has no value
where the code has none.

`shifts_defined_iff`: the files without such a shift are those whose prefixes fit, and on
them every range starts before it ends.
-/

namespace Shine

namespace GeoIpMatcher

/-- `x << amount`. By an amount of the width or more it has no meaning. -/
def shiftLeftChecked {w : Nat} (x : BitVec w) (amount : UInt32) : Option (BitVec w) :=
  if amount.toNat < w then some (x <<< amount.toNat) else none

/-- `cidrRange`, with the shift checked. -/
def cidrRangeChecked {w : Nat} (val : BitVec w) (prefixLen : UInt32) :
    Option (Interval (BitVec w)) := do
  let mask ←
    if prefixLen = 0 then some 0
    else shiftLeftChecked (BitVec.allOnes w) (w.toUInt32 - prefixLen)
  let val := val &&& mask
  return ⟨val, val ||| ~~~mask⟩

/-- `addCidr`, with the shift checked. -/
def addCidrChecked (cat : Category) (cidr : Cidr) : Option Category :=
  if cidr.ip.length = 4 then do
    let range ← cidrRangeChecked (toU32 cidr.ip) cidr.prefixLen
    return { cat with v4 := cat.v4 ++ [range] }
  else if cidr.ip.length = 16 then do
    let range ← cidrRangeChecked (toU128 cidr.ip) cidr.prefixLen
    return { cat with v6 := cat.v6 ++ [range] }
  else some cat

/-- `addEntry`, with the shifts checked. -/
def addEntryChecked (m : Categories) (e : GeoIP) : Option Categories := do
  let code := lowerCase e.countryCode
  let cat ← e.cidr.foldlM addCidrChecked ((m code).getD ⟨[], []⟩)
  return Function.update m code (some cat)

/-- `load`, with the shifts checked. -/
def loadChecked (S : StdSort) (m : Categories) (list : List GeoIP) : Option Categories := do
  let m ← list.foldlM addEntryChecked m
  return fun code => (m code).map (collapse S)

/-! ## Which shifts are defined -/

theorem cidrRangeChecked_eq {w : Nat} (hpos : 0 < w) (hw : w < 2 ^ 32) (val : BitVec w)
    (prefixLen : UInt32) :
    cidrRangeChecked val prefixLen
      = if prefixLen.toNat ≤ w then some (cidrRange val prefixLen) else none := by
  have hwidth : w.toUInt32.toNat = w := UInt32.toNat_ofNat_of_lt' hw
  have hlen := prefixLen.toNat_lt
  by_cases hzero : prefixLen = 0
  · simp [cidrRangeChecked, cidrRange, hzero]
  · have hne : prefixLen.toNat ≠ 0 := fun h => hzero (UInt32.toNat_inj.mp h)
    have hamount : (w.toUInt32 - prefixLen).toNat < w ↔ prefixLen.toNat ≤ w := by
      rw [UInt32.toNat_sub, hwidth]
      omega
    by_cases hfits : prefixLen.toNat ≤ w
    · simp [cidrRangeChecked, cidrRange, shiftLeftChecked, hzero, hamount.mpr hfits, hfits]
    · -- the difference has wrapped
      have hwrapped := mt hamount.mp hfits
      simp [cidrRangeChecked, shiftLeftChecked, hzero, hwrapped, hfits]

theorem addCidrChecked_eq (cat : Category) (c : Cidr) :
    addCidrChecked cat c = if c.Valid then some (addCidr cat c) else none := by
  have hvalid : c.Valid ↔ (c.ip.length = 4 → c.prefixLen.toNat ≤ 32) ∧
      (c.ip.length = 16 → c.prefixLen.toNat ≤ 128) :=
    and_congr (imp_congr_right fun _ => UInt32.le_iff_toNat_le)
      (imp_congr_right fun _ => UInt32.le_iff_toNat_le)
  rw [addCidrChecked, addCidr, cidrRangeChecked_eq (by decide) (by decide),
    cidrRangeChecked_eq (by decide) (by decide)]
  by_cases h4 : c.ip.length = 4
  · by_cases hfits : c.prefixLen.toNat ≤ 32
    · simp [hvalid, h4, hfits]
    · simp [hvalid, h4, hfits]
  · by_cases h16 : c.ip.length = 16
    · by_cases hfits : c.prefixLen.toNat ≤ 128
      · simp [hvalid, h16, hfits]
      · simp [hvalid, h16, hfits]
    · simp [hvalid, h4, h16]

theorem addEntryChecked_eq (m : Categories) (e : GeoIP) :
    addEntryChecked m e = if ∀ c ∈ e.cidr, c.Valid then some (addEntry m e) else none := by
  rw [addEntryChecked, foldlM_checked addCidrChecked_eq]
  split_ifs with hvalid
  · rfl
  · rfl

theorem loadChecked_eq (S : StdSort) (m : Categories) (list : List GeoIP) :
    loadChecked S m list
      = if ∀ e ∈ list, ∀ c ∈ e.cidr, c.Valid then some (load S m list) else none := by
  rw [loadChecked, foldlM_checked addEntryChecked_eq]
  split_ifs with hvalid
  · rfl
  · rfl

end GeoIpMatcher

/-! ## The ranges stored -/

namespace GeoIpMatcher

/-- Every range of the category starts before it ends. -/
structure Category.Ordered (cat : Category) : Prop where
  v4 : ∀ r ∈ cat.v4, r.Ordered
  v6 : ∀ r ∈ cat.v6, r.Ordered

/-- Whatever the mask is, the end has all the bits of the start. -/
theorem ordered_cidrRange {w : Nat} (val : BitVec w) (prefixLen : UInt32) :
    (cidrRange val prefixLen).Ordered := by
  rw [Interval.Ordered, cidrRange, BitVec.le_def, BitVec.toNat_or]
  exact Nat.left_le_or

theorem Category.Ordered.addCidr {cat : Category} (h : cat.Ordered) (c : Cidr) :
    (addCidr cat c).Ordered := by
  rw [GeoIpMatcher.addCidr]
  split_ifs with h4 h16
  · refine ⟨fun r hr => ?_, h.v6⟩
    rcases List.mem_append.mp hr with hr | hr
    · exact h.v4 r hr
    · rw [List.mem_singleton.mp hr]
      exact ordered_cidrRange _ _
  · refine ⟨h.v4, fun r hr => ?_⟩
    rcases List.mem_append.mp hr with hr | hr
    · exact h.v6 r hr
    · rw [List.mem_singleton.mp hr]
      exact ordered_cidrRange _ _
  · exact h

theorem Category.Ordered.foldl {cat : Category} (h : cat.Ordered) (cs : List Cidr) :
    (cs.foldl GeoIpMatcher.addCidr cat).Ordered := by
  induction cs generalizing cat with
  | nil => exact h
  | cons c cs ih => exact ih (h.addCidr c)

theorem Category.Ordered.collapse {cat : Category} (h : cat.Ordered) (S : StdSort) :
    (GeoIpMatcher.collapse S cat).Ordered := by
  constructor
  · exact Interval.ordered_merge fun r hr => h.v4 r ((S.perm _).mem_iff.mp hr)
  · exact Interval.ordered_merge fun r hr => h.v6 r ((S.perm _).mem_iff.mp hr)

/-- The entries keep the ranges of every category ordered. -/
theorem ordered_foldl {m : Categories} (h : ∀ code cat, m code = some cat → cat.Ordered)
    (list : List GeoIP) :
    ∀ code cat, list.foldl addEntry m code = some cat → cat.Ordered := by
  induction list generalizing m with
  | nil => exact h
  | cons e list ih =>
    refine ih fun code cat hcat => ?_
    rw [addEntry, addItems, amend, Function.update_apply] at hcat
    split_ifs at hcat with hcode
    · cases hcat
      refine Category.Ordered.foldl ?_ e.cidr
      cases hm : m (lowerCase e.countryCode) with
      | none => exact ⟨by simp, by simp⟩
      | some old => exact h _ old hm
    · exact h code cat hcat

theorem ordered_load {m : Categories} (h : ∀ code cat, m code = some cat → cat.Ordered)
    (S : StdSort) (list : List GeoIP) :
    ∀ code cat, load S m list code = some cat → cat.Ordered := by
  intro code cat hcat
  obtain ⟨old, hold, rfl⟩ := Option.map_eq_some_iff.mp hcat
  exact (ordered_foldl h list code old hold).collapse S

/-- **`load` makes no undefined shift exactly if every prefix fits.** A CIDR whose address
is neither of four nor of sixteen bytes is passed over, whatever its prefix. Where all shifts
are defined, `load` stores what it does without the check, and every range starts before it
ends. -/
theorem shifts_defined_iff (S : StdSort) (list : List GeoIP) :
    ((∃ m, loadChecked S (fun _ => none) list = some m)
      ↔ ∀ e ∈ list, ∀ c ∈ e.cidr, c.Valid) ∧
      ∀ m, loadChecked S (fun _ => none) list = some m →
        m = loaded S list ∧ ∀ code cat, m code = some cat → cat.Ordered := by
  rw [loadChecked_eq]
  constructor
  · split_ifs with hvalid
    · exact iff_of_true ⟨_, rfl⟩ hvalid
    · exact iff_of_false (by simp) hvalid
  · intro m hm
    split_ifs at hm with hvalid
    cases hm
    exact ⟨rfl, ordered_load (by simp) S list⟩

/-- A prefix of 33 bits for an IPv4 address: the shift is by `2 ^ 32 - 1`. -/
theorem shift_undefined_on_33 :
    loadChecked .stable (fun _ => none) [⟨ascii "cn", [⟨[1, 0, 0, 0], 33⟩]⟩] = none ∧
      ¬ ∀ list, ∃ m, loadChecked .stable (fun _ => none) list = some m := by
  have hnone : loadChecked .stable (fun _ => none) [⟨ascii "cn", [⟨[1, 0, 0, 0], 33⟩]⟩]
      = none := by
    rw [loadChecked_eq, if_neg (by decide)]
  refine ⟨hnone, fun h => ?_⟩
  obtain ⟨m, hm⟩ := h [⟨ascii "cn", [⟨[1, 0, 0, 0], 33⟩]⟩]
  rw [hnone] at hm
  cases hm

end GeoIpMatcher

end Shine
