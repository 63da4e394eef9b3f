import Shine.Lib.Grouped
import Shine.Lib.Intervals
import Shine.Route.IpRange

/-!
# GeoIP matching (`route/geo_matcher.cpp`)

`GeoIpMatcher::load` turns the CIDRs of each country code into intervals of numbers, sorts
them by their starts and merges them; `match` looks a number up by bisection. What
`std::sort` does with equal starts is left open.

The index answers as a scan over the CIDRs would, with the router's own comparison of
bytes (`match_iff`).
-/

namespace Shine

open Address (arrayAt)

/-- `CIDR` of the data file. -/
structure Cidr where
  ip : Bytes
  prefixLen : UInt32
  deriving DecidableEq

/-- `GeoIP` of the data file. -/
structure GeoIP where
  countryCode : Bytes
  cidr : List Cidr
  deriving DecidableEq

/-- `::tolower`, on a letter. -/
def toLower (b : UInt8) : UInt8 := if 65 ≤ b ∧ b ≤ 90 then b + 32 else b

/-- `std::transform` with `::tolower`. -/
def lowerCase (s : Bytes) : Bytes := s.map toLower

/-- `std::sort` by `start`, as documented. -/
structure StdSort where
  sort {w : Nat} : List (Interval (BitVec w)) → List (Interval (BitVec w))
  perm {w : Nat} (rs : List (Interval (BitVec w))) : (sort rs).Perm rs
  sorted {w : Nat} (rs : List (Interval (BitVec w))) : Interval.Sorted (sort rs)

/-- `(p[0] << 24) | (p[1] << 16) | (p[2] << 8) | p[3]`. -/
def u32At (p : Bytes) : BitVec 32 :=
  (p.getD 0 0).toBitVec.setWidth 32 <<< 24 ||| (p.getD 1 0).toBitVec.setWidth 32 <<< 16
    ||| (p.getD 2 0).toBitVec.setWidth 32 <<< 8 ||| (p.getD 3 0).toBitVec.setWidth 32

/-- The two loops over eight bytes each, and `MakeUint128`. -/
def u128At (p : Bytes) : BitVec 128 :=
  word 64 (arrayAt p 0 8).1 ++ word 64 (arrayAt p 8 8).1

/-- `toU32`. -/
def toU32 (s : Bytes) : BitVec 32 := if s.length ≠ 4 then 0 else u32At s

/-- `toU128`. -/
def toU128 (s : Bytes) : BitVec 128 := if s.length ≠ 16 then 0 else u128At s

/-- The range of a CIDR. The shift is defined for prefixes up to the width only. -/
def cidrRange {w : Nat} (val : BitVec w) (prefixLen : UInt32) : Interval (BitVec w) :=
  let mask : BitVec w :=
    if prefixLen = 0 then 0 else BitVec.allOnes w <<< (w.toUInt32 - prefixLen).toNat
  let val := val &&& mask
  ⟨val, val ||| ~~~mask⟩

namespace GeoIpMatcher

/-- `Category`. -/
structure Category where
  v4 : List (Interval (BitVec 32))
  v6 : List (Interval (BitVec 128))

/-- `categories_`. -/
abbrev Categories := Bytes → Option Category

/-- The body of the loop over the CIDRs; those of other sizes are passed over. -/
def addCidr (cat : Category) (cidr : Cidr) : Category :=
  if cidr.ip.length = 4 then
    { cat with v4 := cat.v4 ++ [cidrRange (toU32 cidr.ip) cidr.prefixLen] }
  else if cidr.ip.length = 16 then
    { cat with v6 := cat.v6 ++ [cidrRange (toU128 cidr.ip) cidr.prefixLen] }
  else cat

/-- The body of the loop over the entries. -/
def addEntry : Categories → GeoIP → Categories :=
  addItems ⟨[], []⟩ addCidr (fun e => lowerCase e.countryCode) (·.cidr)

/-- Sort and merge the intervals of a category. -/
def collapse (S : StdSort) (cat : Category) : Category :=
  ⟨Interval.merge (S.sort cat.v4), Interval.merge (S.sort cat.v6)⟩

/-- `GeoIpMatcher::load`, of a file that holds `list`. -/
def load (S : StdSort) (m : Categories) (list : List GeoIP) : Categories :=
  fun code => ((list.foldl addEntry m) code).map (collapse S)

/-- `GeoIpMatcher::match`. -/
def match_ (m : Categories) (ip : Bytes) (isV6 : Bool) (countryCode : Bytes) : Bool :=
  match m countryCode with
  | none => false
  | some cat =>
    if isV6 then Interval.lookup cat.v6 (u128At ip) else Interval.lookup cat.v4 (u32At ip)

/-! ## Numbers -/

theorem toNat_u32At (p : Bytes) : (u32At p).toNat = beNat (arrayAt p 0 4).1 := by
  have hword : u32At p = word 32 (arrayAt p 0 4).1 := (word_four _ _ _ _).symm
  rw [hword, toNat_word]
  rw [(arrayAt p 0 4).2]

theorem toNat_u128At (p : Bytes) : (u128At p).toNat = beNat (arrayAt p 0 16).1 := by
  have hsplit : (arrayAt p 0 16).1 = (arrayAt p 0 8).1 ++ (arrayAt p 8 8).1 := rfl
  have hlt := beNat_lt (arrayAt p 8 8).1
  have hhi := (arrayAt p 0 8).2
  have hlo := (arrayAt p 8 8).2
  rw [hlo] at hlt
  rw [u128At, BitVec.toNat_append, toNat_word (by omega), toNat_word (by omega), hsplit,
    beNat_append, hlo, ← Nat.shiftLeft_add_eq_or_of_lt hlt, Nat.shiftLeft_eq]

theorem take_arrayAt {p : Bytes} {n m : Nat} (h : n ≤ m) :
    (arrayAt p 0 m).1.take n = (arrayAt p 0 n).1 := by
  simp only [arrayAt]
  rw [← List.map_take, List.take_range, Nat.min_eq_left h]

/-- The comparison with a range looks at the bytes of its family only. -/
theorem contains_mk {n : Nat} (hn : n ≤ 16) {ip : Bytes} {addr : ByteArrayN 16} {len : UInt8}
    (hlen : len.toNat ≤ 8 * n) (v6 : Bool) :
    (IpRange.mk (arrayAt ip 0 16) len v6).contains addr.1 v6
      = bitsEqual (arrayAt ip 0 n).1 (arrayAt addr.1 0 n).1 len := by
  have haddr : arrayAt addr.1 0 16 = addr := by
    have := Address.arrayAt_append addr []
    rwa [List.append_nil] at this
  have htake : addr.1.take n = (arrayAt addr.1 0 n).1 := by
    rw [← take_arrayAt hn, haddr]
  rw [IpRange.contains, if_neg (not_not.mpr rfl), ← take_arrayAt hn, ← htake,
    bitsEqual_take hlen]

section Range

variable {n w : Nat} (hw : w = 8 * n) (hn : n ≤ 16) {val x : BitVec w} {prefixLen : UInt32}
  (hlen : prefixLen.toNat ≤ w)

include hw hn hlen

/-- The range of a CIDR holds the numbers with the same first bits. -/
theorem contains_cidrRange :
    (cidrRange val prefixLen).Contains x
      ↔ val.toNat / 2 ^ (w - prefixLen.toNat) = x.toNat / 2 ^ (w - prefixLen.toNat) := by
  have hshift : (w.toUInt32 - prefixLen).toNat = w - prefixLen.toNat := by
    have hlt : w < UInt32.size := by
      rw [UInt32.size]
      omega
    have hwidth : w.toUInt32.toNat = w := UInt32.toNat_ofNat_of_lt' hlt
    rw [UInt32.toNat_sub_of_le _ _ (UInt32.le_iff_toNat_le.mpr (by rwa [hwidth])), hwidth]
  have hmask : (if prefixLen = 0 then 0 else BitVec.allOnes w <<< (w.toUInt32 - prefixLen).toNat)
      = BitVec.allOnes w <<< (w - prefixLen.toNat) := by
    rw [hshift]
    split_ifs with hzero
    · simp [hzero]
    · rfl
  rw [Interval.Contains, cidrRange, hmask, and_high_le_iff _ _ (Nat.sub_le _ _), eq_comm]

/-- The range of a CIDR holds the addresses that `IpRange::contains` accepts. -/
theorem contains_cidrRange_iff {ip : Bytes} {addr : ByteArrayN 16} (v6 : Bool)
    (hval : val.toNat = beNat (arrayAt ip 0 n).1) (hx : x.toNat = beNat (arrayAt addr.1 0 n).1) :
    (cidrRange val prefixLen).Contains x
      ↔ (IpRange.mk (arrayAt ip 0 16) prefixLen.toUInt8 v6).contains addr.1 v6 = true := by
  have hprefix : prefixLen.toUInt8.toNat = prefixLen.toNat := by
    rw [UInt32.toNat_toUInt8, Nat.mod_eq_of_lt (by omega)]
  rw [contains_cidrRange hw hn hlen, hval, hx, contains_mk hn (by omega),
    bitsEqual_iff (arrayAt ip 0 n).2 (arrayAt addr.1 0 n).2 (by omega), hprefix, hw]

end Range

/-! ## The index -/

/-- Sorting and merging lose nothing that bisection looks for. -/
theorem lookup_merge_sort (S : StdSort) {w : Nat} {rs : List (Interval (BitVec w))}
    {x : BitVec w} :
    Interval.lookup (Interval.merge (S.sort rs)) x = true ↔ Interval.Covers rs x := by
  have hsorted := S.sorted rs
  rw [Interval.lookup_iff (Interval.sorted_merge hsorted) (Interval.separated_merge hsorted),
    Interval.covers_merge hsorted, Interval.covers_perm (S.perm rs)]

/-- The address is of the family of the CIDR, and lies in its range. -/
def InRange (c : Cidr) (addr : Address) : Prop :=
  if addr.isV6 then
    c.ip.length = 16 ∧ (cidrRange (toU128 c.ip) c.prefixLen).Contains (u128At addr.bytes.1)
  else c.ip.length = 4 ∧ (cidrRange (toU32 c.ip) c.prefixLen).Contains (u32At addr.bytes.1)

theorem covers_v4_addCidr {cat : Category} {c : Cidr} {x : BitVec 32} :
    Interval.Covers (addCidr cat c).v4 x
      ↔ Interval.Covers cat.v4 x ∨
        (c.ip.length = 4 ∧ (cidrRange (toU32 c.ip) c.prefixLen).Contains x) := by
  rw [addCidr]
  split_ifs with h4 h16
  · rw [Interval.covers_concat, and_iff_right h4]
  · simp [h4]
  · simp [h4]

theorem covers_v6_addCidr {cat : Category} {c : Cidr} {x : BitVec 128} :
    Interval.Covers (addCidr cat c).v6 x
      ↔ Interval.Covers cat.v6 x ∨
        (c.ip.length = 16 ∧ (cidrRange (toU128 c.ip) c.prefixLen).Contains x) := by
  rw [addCidr]
  split_ifs with h4 h16
  · simp [h4]
  · rw [Interval.covers_concat, and_iff_right h16]
  · simp [h16]

/-- The addresses of a category. -/
def addresses : View (⟨[], []⟩ : Category) addCidr Address where
  sees cat addr :=
    if addr.isV6 then Interval.Covers cat.v6 (u128At addr.bytes.1)
    else Interval.Covers cat.v4 (u32At addr.bytes.1)
  gives := InRange
  not_sees_empty addr := by simp [Interval.Covers]
  sees_add cat c addr := by
    rw [InRange]
    split_ifs with hv6
    · exact covers_v6_addCidr
    · exact covers_v4_addCidr

/-- A matcher that has loaded `list`. -/
def loaded (S : StdSort) (list : List GeoIP) : Categories := load S (fun _ => none) list

/-- The index answers by the ranges of the CIDRs. -/
theorem match_iff_inRange {S : StdSort} {list : List GeoIP} {code : Bytes} {addr : Address} :
    match_ (loaded S list) addr.bytes.1 addr.isV6 code = true
      ↔ ∃ e ∈ list, lowerCase e.countryCode = code ∧ ∃ c ∈ e.cidr, InRange c addr := by
  have hshows : addresses.Shows (list.foldl addEntry fun _ => none) code addr
      ↔ ∃ e ∈ list, lowerCase e.countryCode = code ∧ ∃ c ∈ e.cidr, InRange c addr :=
    addresses.shows_load list
  rw [← hshows]
  rw [match_, loaded, load, View.Shows]
  cases hcat : list.foldl addEntry (fun _ => none) code with
  | none => simp
  | some cat =>
    cases hv6 : addr.isV6 with
    | false => simp [collapse, lookup_merge_sort, addresses, hv6]
    | true => simp [collapse, lookup_merge_sort, addresses, hv6]

end GeoIpMatcher

/-! ## The scan -/

/-- The prefix is one of the family of the address. -/
def Cidr.Valid (c : Cidr) : Prop :=
  (c.ip.length = 4 → c.prefixLen ≤ 32) ∧ (c.ip.length = 16 → c.prefixLen ≤ 128)

/-- The CIDR as a range of the router's. -/
def Cidr.range (c : Cidr) : IpRange :=
  ⟨arrayAt c.ip 0 16, c.prefixLen.toUInt8, c.ip.length = 16⟩

/-- The CIDR is of the family of the address, and contains it. -/
def Cidr.Contains (c : Cidr) (addr : Address) : Prop :=
  c.ip.length = (if addr.isV6 then 16 else 4) ∧
    c.range.contains addr.bytes.1 addr.isV6 = true

instance (c : Cidr) : Decidable c.Valid := inferInstanceAs (Decidable (_ ∧ _))

instance (c : Cidr) (addr : Address) : Decidable (c.Contains addr) :=
  inferInstanceAs (Decidable (_ ∧ _))

theorem Cidr.inRange_iff_contains {c : Cidr} (hvalid : c.Valid) (addr : Address) :
    GeoIpMatcher.InRange c addr ↔ c.Contains addr := by
  rw [GeoIpMatcher.InRange, Cidr.Contains, Cidr.range]
  cases addr.isV6 with
  | false =>
    simp only [Bool.false_eq_true, if_false]
    refine and_congr_right fun h4 => ?_
    rw [decide_eq_false (show ¬ c.ip.length = 16 by omega)]
    refine GeoIpMatcher.contains_cidrRange_iff rfl (by decide) ?_ false ?_
      (GeoIpMatcher.toNat_u32At _)
    · exact UInt32.le_iff_toNat_le.mp (hvalid.1 h4)
    · rw [toU32, if_neg (not_not.mpr h4), GeoIpMatcher.toNat_u32At]
  | true =>
    simp only [if_true]
    refine and_congr_right fun h16 => ?_
    rw [decide_eq_true h16]
    refine GeoIpMatcher.contains_cidrRange_iff rfl (by decide) ?_ true ?_
      (GeoIpMatcher.toNat_u128At _)
    · exact UInt32.le_iff_toNat_le.mp (hvalid.2 h16)
    · rw [toU128, if_neg (not_not.mpr h16), GeoIpMatcher.toNat_u128At]

/-- **The index answers as the scan over the CIDRs does.** -/
theorem GeoIpMatcher.match_iff (S : StdSort) (list : List GeoIP)
    (hvalid : ∀ e ∈ list, ∀ c ∈ e.cidr, c.Valid) (code : Bytes) (addr : Address) :
    match_ (loaded S list) addr.bytes.1 addr.isV6 code = true
      ↔ ∃ e ∈ list, lowerCase e.countryCode = code ∧ ∃ c ∈ e.cidr, c.Contains addr := by
  rw [match_iff_inRange]
  refine exists_congr fun e => and_congr_right fun he => and_congr_right fun _ =>
    exists_congr fun c => and_congr_right fun hc => ?_
  exact c.inRange_iff_contains (hvalid e he c hc) addr

/-- A sort that keeps the order of equal starts. -/
def StdSort.stable : StdSort where
  sort rs := rs.insertionSort fun a b => a.start ≤ b.start
  perm rs := List.perm_insertionSort _ rs
  sorted {w} rs := by
    have : Std.Total fun a b : Interval (BitVec w) => a.start ≤ b.start :=
      ⟨fun a b => le_total a.start b.start⟩
    have : IsTrans (Interval (BitVec w)) fun a b => a.start ≤ b.start :=
      ⟨fun _ _ _ => le_trans⟩
    exact List.pairwise_insertionSort _ rs

/-- Two entries of one country, with ranges that overlap and touch. -/
def overlapping : List GeoIP :=
  [⟨ascii "CN", [⟨[1, 0, 1, 9], 24⟩, ⟨[1, 0, 0, 0], 24⟩]⟩, ⟨ascii "cn", [⟨[1, 0, 1, 0], 25⟩]⟩]

theorem GeoIpMatcher.match_iff_overlapping :
    match_ (loaded .stable overlapping) (Address.ipv4 ⟨[1, 0, 1, 200], rfl⟩ 80).bytes.1 false
      (ascii "cn") = true := by
  refine (match_iff .stable overlapping (by decide) _ (.ipv4 ⟨[1, 0, 1, 200], rfl⟩ 80)).mpr ?_
  decide

end Shine
