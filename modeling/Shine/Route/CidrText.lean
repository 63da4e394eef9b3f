import Shine.Main

/-!
# Prefixes of address ranges (`route/router.cpp`)

`parseCidr` reads the prefix of `host/prefix` as an `int`. A negative one counts as if there
were none, and any other is cut down to a byte before it is compared with the length of the
address: `10.0.0.0/256` is accepted, and stands for all of IPv4.
`cidr_validated_iff` says which prefixes are not affected.
-/

namespace Shine

open Address (arrayAt atoiInt)

namespace IpAddr

/-- The length of an address. -/
def bits : IpAddr → Nat
  | .v4 _ => 32
  | .v6 _ => 128

/-- `is_v6()`. -/
def isV6 : IpAddr → Bool
  | .v4 _ => false
  | .v6 _ => true

/-- The address in an array of 16 bytes. -/
def array : IpAddr → ByteArrayN 16
  | .v4 bytes => arrayAt bytes.1 0 16
  | .v6 bytes => bytes

/-- The addresses are of one family and have the first `len` bits in common. -/
def SharesBits (len : Nat) : IpAddr → IpAddr → Prop
  | .v4 a, .v4 b => beNat a.1 / 2 ^ (32 - len) = beNat b.1 / 2 ^ (32 - len)
  | .v6 a, .v6 b => beNat a.1 / 2 ^ (128 - len) = beNat b.1 / 2 ^ (128 - len)
  | _, _ => False

end IpAddr

/-- The text is an integer within the length of the address. -/
def PrefixInRange (ip : IpAddr) (text : Bytes) (v : Int) : Prop :=
  atoiInt text = some v ∧ 0 ≤ v ∧ v ≤ ip.bits

/-! ## What `parseCidr` does with the prefix -/

section Parse

variable {makeAddress : Bytes → Option IpAddr} {host text : Bytes} {ip : IpAddr} {v : Int}

/-- The byte that is kept of the prefix. -/
def IpAddr.prefixByte (ip : IpAddr) (v : Int) : UInt8 :=
  if v < 0 then ip.bits.toUInt8 else v.toNat.toUInt8

/-- The last step of both branches. -/
theorem refused_or_eq {len bits : UInt8} {st : Status} {range range' : IpRange} :
    (if len > bits then .error st else .ok range : StatusOr IpRange) = .ok range'
      ↔ len.toNat ≤ bits.toNat ∧ range' = range := by
  rw [← UInt8.le_iff_toNat_le]
  by_cases hlen : len > bits
  · rw [if_pos hlen]
    refine iff_of_false (by rintro ⟨⟩) fun h => ?_
    exact absurd h.1 (UInt8.not_le.mpr hlen)
  · rw [if_neg hlen, Except.ok.injEq, eq_comm]
    exact (and_iff_right (UInt8.not_lt.mp hlen)).symm

/-- The text is cut at its first slash. -/
theorem cut_at_slash (hslash : 47 ∉ host) :
    (host ++ 47 :: text).takeWhile (· ≠ 47) = host ∧
      (host ++ 47 :: text).dropWhile (· ≠ 47) = 47 :: text := by
  have hhost : ∀ b ∈ host, decide (b ≠ 47) = true := by
    intro b hb
    refine decide_eq_true fun heq => hslash ?_
    rwa [← heq]
  rw [List.takeWhile_append_of_pos hhost, List.dropWhile_append_of_pos hhost]
  simp

theorem parseCidr_eq_ok (hslash : 47 ∉ host) (hmake : makeAddress host = some ip)
    (hv : atoiInt text = some v) {range : IpRange} :
    parseCidr makeAddress (host ++ 47 :: text) = .ok range
      ↔ (ip.prefixByte v).toNat ≤ ip.bits ∧ range = ⟨ip.array, ip.prefixByte v, ip.isV6⟩ := by
  rw [parseCidr, (cut_at_slash hslash).1, (cut_at_slash hslash).2]
  simp only [hv, hmake]
  cases ip with
  | v4 bytes => exact refused_or_eq
  | v6 bytes => exact refused_or_eq

/-- A prefix that is not read is refused. -/
theorem parseCidr_unreadable (hslash : 47 ∉ host) (hv : atoiInt text = none) {range : IpRange} :
    parseCidr makeAddress (host ++ 47 :: text) ≠ .ok range := by
  rw [parseCidr, (cut_at_slash hslash).2]
  simp [hv, bind, Except.bind]

/-- The byte is the prefix, for those that are in range. -/
theorem prefixByte_toNat (h0 : 0 ≤ v) (hlt : v < 256) : (ip.prefixByte v).toNat = v.toNat := by
  rw [IpAddr.prefixByte, if_neg (by omega), Nat.toUInt8, UInt8.toNat_ofNat']
  omega

theorem bits_le (ip : IpAddr) : ip.bits ≤ 128 := by
  cases ip with
  | v4 bytes => exact Nat.le_of_ble_eq_true rfl
  | v6 bytes => exact Nat.le_refl 128

/-- Which prefixes pass. -/
theorem prefixByte_le_iff :
    (ip.prefixByte v).toNat ≤ ip.bits ↔ v < 0 ∨ v % 256 ≤ ip.bits := by
  have hbits := bits_le ip
  rw [IpAddr.prefixByte]
  by_cases h0 : v < 0
  · rw [if_pos h0, Nat.toUInt8, UInt8.toNat_ofNat']
    omega
  · rw [if_neg h0, Nat.toUInt8, UInt8.toNat_ofNat']
    omega

/-- Containment compares the first bits. -/
theorem contains_iff {len : UInt8} (hlen : len.toNat ≤ ip.bits) (addr : IpAddr) :
    (⟨ip.array, len, ip.isV6⟩ : IpRange).contains addr.array.1 addr.isV6 = true
      ↔ ip.SharesBits len.toNat addr := by
  cases ip with
  | v4 a =>
    cases addr with
    | v4 b =>
      have hfour (c : ByteArrayN 4) : (arrayAt c.1 0 16).1.take 4 = c.1 := by
        have happend := Address.arrayAt_append c []
        rw [List.append_nil] at happend
        rw [GeoIpMatcher.take_arrayAt (by decide), happend]
      show bitsEqual (arrayAt a.1 0 16).1 (arrayAt b.1 0 16).1 len = true ↔ _
      rw [← bitsEqual_take (n := 4) hlen, hfour, hfour, bitsEqual_iff a.2 b.2 hlen]
      rfl
    | v6 b => exact iff_of_false Bool.false_ne_true id
  | v6 a =>
    cases addr with
    | v4 b => exact iff_of_false Bool.false_ne_true id
    | v6 b =>
      show bitsEqual a.1 b.1 len = true ↔ _
      rw [bitsEqual_iff a.2 b.2 hlen]
      rfl

end Parse

/-! ## Rules with a range -/

section Rules

variable {env : RouteEnv} {cfg : RouteConfig} {text : Bytes}

/-- The text is listed, and all the others can be read. -/
structure RouteConfig.ListsCidr (env : RouteEnv) (cfg : RouteConfig) (text : Bytes) : Prop where
  listed : ∃ rc ∈ cfg.rules, text ∈ rc.cidrs
  others : ∀ rc ∈ cfg.rules, ∀ other ∈ rc.cidrs, other ≠ text →
    ∃ range, parseCidr env.makeAddress other = .ok range

/-- Then `compile` depends on this text. -/
theorem compile_isOk_iff_cidr (h : cfg.ListsCidr env text) :
    (∃ router, Router.compile env cfg = .ok router)
      ↔ ∃ range, parseCidr env.makeAddress text = .ok range := by
  rw [Router.compile_isOk]
  constructor
  · intro hall
    obtain ⟨rc, hrc, htext⟩ := h.listed
    exact hall rc hrc text htext
  · intro htext rc hrc other hother
    by_cases heq : other = text
    · rw [heq]
      exact htext
    · exact h.others rc hrc other hother heq

/-- The range of the text is in the router. -/
theorem mem_cidrs_of_compile {router : Router env.regex} {range : IpRange}
    (h : cfg.ListsCidr env text) (hrouter : Router.compile env cfg = .ok router)
    (hrange : parseCidr env.makeAddress text = .ok range) :
    ∃ rule ∈ router.rules, range ∈ rule.cidrs := by
  obtain ⟨rc, hrc, htext⟩ := h.listed
  obtain ⟨rule, hrule, hcompile⟩ := exists_related (Router.of_compile hrouter).rules hrc
  obtain ⟨ranges, hranges, heq⟩ := bind_eq_ok.mp hcompile
  obtain rfl := Except.ok.inj heq
  obtain ⟨range', hmem, hrange'⟩ := exists_related (mapM_eq_ok.mp hranges) htext
  obtain rfl := Except.ok.inj (hrange'.symm.trans hrange)
  exact ⟨_, hrule, hmem⟩

end Rules

/-- `compile` accepts the text exactly if its prefix is in range, and the range that it puts
into the router then contains the addresses with the same first bits. -/
def CidrValidated (env : RouteEnv) (cfg : RouteConfig) (host text : Bytes) (ip : IpAddr) : Prop :=
  ((∃ router, Router.compile env cfg = .ok router) ↔ ∃ v, PrefixInRange ip text v) ∧
    ∀ v, PrefixInRange ip text v → ∀ router, Router.compile env cfg = .ok router →
      ∃ range, parseCidr env.makeAddress (host ++ 47 :: text) = .ok range ∧
        (∃ rule ∈ router.rules, range ∈ rule.cidrs) ∧
        ∀ addr : IpAddr, range.contains addr.array.1 addr.isV6 = true
          ↔ ip.SharesBits v.toNat addr

section Validated

variable {env : RouteEnv} {cfg : RouteConfig} {host text : Bytes} {ip : IpAddr}

/-- What an accepted range contains is always as it should be. -/
theorem range_of_prefix (hslash : 47 ∉ host) (hmake : env.makeAddress host = some ip)
    (hlists : cfg.ListsCidr env (host ++ 47 :: text)) {v : Int} (hv : PrefixInRange ip text v)
    {router : Router env.regex} (hrouter : Router.compile env cfg = .ok router) :
    ∃ range, parseCidr env.makeAddress (host ++ 47 :: text) = .ok range ∧
      (∃ rule ∈ router.rules, range ∈ rule.cidrs) ∧
      ∀ addr : IpAddr, range.contains addr.array.1 addr.isV6 = true
        ↔ ip.SharesBits v.toNat addr := by
  obtain ⟨hread, h0, hle⟩ := hv
  have hbits := bits_le ip
  have hbyte : (ip.prefixByte v).toNat = v.toNat := prefixByte_toNat h0 (by omega)
  have hlen : (ip.prefixByte v).toNat ≤ ip.bits := by omega
  have hrange := (parseCidr_eq_ok hslash hmake hread).mpr ⟨hlen, rfl⟩
  refine ⟨_, hrange, mem_cidrs_of_compile hlists hrouter hrange, fun addr => ?_⟩
  rw [contains_iff hlen, hbyte]

/-- Which integers are accepted. -/
theorem parseCidr_isOk_iff (hslash : 47 ∉ host) (hmake : env.makeAddress host = some ip) {v : Int}
    (hv : atoiInt text = some v) :
    (∃ range, parseCidr env.makeAddress (host ++ 47 :: text) = .ok range)
      ↔ v < 0 ∨ v % 256 ≤ ip.bits := by
  rw [← prefixByte_le_iff]
  constructor
  · rintro ⟨range, hrange⟩
    exact ((parseCidr_eq_ok hslash hmake hv).mp hrange).1
  · intro hle
    exact ⟨_, (parseCidr_eq_ok hslash hmake hv).mpr ⟨hle, rfl⟩⟩

theorem exists_prefixInRange {v : Int} (hv : atoiInt text = some v) :
    (∃ v', PrefixInRange ip text v') ↔ 0 ≤ v ∧ v ≤ ip.bits := by
  constructor
  · rintro ⟨v', hread, hle⟩
    rw [hv, Option.some.injEq] at hread
    rwa [hread]
  · intro hle
    exact ⟨v, hv, hle⟩

end Validated

/-- **Prefixes are validated, but for the negative ones and those that get in range when they
are cut down to a byte.** -/
theorem cidr_validated_iff (env : RouteEnv) (cfg : RouteConfig) (host text : Bytes) (ip : IpAddr)
    (hslash : 47 ∉ host) (hmake : env.makeAddress host = some ip)
    (hlists : cfg.ListsCidr env (host ++ 47 :: text)) :
    CidrValidated env cfg host text ip
      ↔ ∀ v, atoiInt text = some v → 0 ≤ v ∧ (v < 256 ∨ ip.bits < v % 256) := by
  have hranges := fun v (hv : PrefixInRange ip text v) router
    (hrouter : Router.compile env cfg = .ok router) =>
      range_of_prefix hslash hmake hlists hv hrouter
  rw [CidrValidated, and_iff_left hranges, compile_isOk_iff_cidr hlists]
  cases hv : atoiInt text with
  | none =>
    refine iff_of_true (iff_of_false ?_ ?_) (by rintro v ⟨⟩)
    · rintro ⟨range, hrange⟩
      exact parseCidr_unreadable hslash hv hrange
    · rintro ⟨v, hread, -⟩
      rw [hv] at hread
      cases hread
  | some v =>
    have hbits := bits_le ip
    rw [parseCidr_isOk_iff hslash hmake hv, exists_prefixInRange hv]
    simp only [Option.some.injEq, forall_eq']
    omega

/-- A rule for `10.0.0.0/` and the text. -/
def tenConfig (text : Bytes) : RouteConfig where
  geoipPath := []
  geositePath := []
  rules := [⟨none, [], [], [ascii "10.0.0.0" ++ 47 :: text], [], [], ascii "direct"⟩]
  defaultOutbound := ascii "us"

theorem tenConfig_listsCidr (env : RouteEnv) (text : Bytes) :
    (tenConfig text).ListsCidr env (ascii "10.0.0.0" ++ 47 :: text) where
  listed := ⟨_, List.mem_cons_self, List.mem_cons_self⟩
  others := by
    intro rc hrc other hother hne
    obtain rfl := List.mem_singleton.mp hrc
    exact absurd (List.mem_singleton.mp hother) hne

theorem cidr_validated_iff_eight :
    CidrValidated Main.sampleEnv (tenConfig (ascii "8")) (ascii "10.0.0.0") (ascii "8")
        (.v4 ⟨[10, 0, 0, 0], rfl⟩) ∧
      ∃ router, Router.compile Main.sampleEnv (tenConfig (ascii "8")) = .ok router := by
  refine ⟨(cidr_validated_iff _ _ _ _ _ (by decide) rfl (tenConfig_listsCidr _ _)).mpr ?_, _, rfl⟩
  intro v hv
  obtain rfl := Option.some.inj ((show atoiInt (ascii "8") = some 8 from rfl).symm.trans hv)
  decide

/-- `10.0.0.0/256` is accepted, and the rule then applies to `8.8.8.8`. -/
theorem cidr_accepted_with_256 :
    (∃ router, Router.compile Main.sampleEnv (tenConfig (ascii "256")) = .ok router ∧
      router.pick ⟨ascii "in", ascii "socks5", .tcp, .ipv4 ⟨[8, 8, 8, 8], rfl⟩ 80, true, false⟩
        = ascii "direct") ∧
    ¬ ∀ (env : RouteEnv) (cfg : RouteConfig) (host text : Bytes) (ip : IpAddr),
      47 ∉ host → env.makeAddress host = some ip → cfg.ListsCidr env (host ++ 47 :: text) →
        CidrValidated env cfg host text ip := by
  refine ⟨⟨_, rfl, by decide⟩, fun hall => ?_⟩
  obtain ⟨haccepted, -⟩ := hall Main.sampleEnv (tenConfig (ascii "256")) (ascii "10.0.0.0")
    (ascii "256") (.v4 ⟨[10, 0, 0, 0], rfl⟩) (by decide) rfl (tenConfig_listsCidr _ _)
  obtain ⟨v, hv, -, hle⟩ := haccepted.mp ⟨_, rfl⟩
  obtain rfl := Option.some.inj ((show atoiInt (ascii "256") = some 256 from rfl).symm.trans hv)
  exact absurd hle (by decide)

end Shine
