import Shine.Config.YamlLoader
import Shine.Route.Router

/-!
# The names of geo categories (`route/geo_matcher.cpp`, `config/yaml_loader.cpp`)

`load` stores a category under its country code in lower case. A rule keeps the code as it is
spelled in the configuration, whichever way it is given there, and `match` looks it up as it
is. A file that spells a code `CN` can only be used with `cn`.

`geo_named_iff`: the codes by which a rule finds the category of an entry, spelled as in the
file, are those that have no capital letter.
-/

namespace Shine

/-! ## What a rule of the document names -/

namespace Yaml

/-- The text is among those under the key. -/
def Lists (n : Yaml) (key text : Bytes) : Prop := ∃ ts, n.texts key = .ok ts ∧ text ∈ ts

/-- The rule names the geosite category. -/
def NamesSite (n : Yaml) (code : Bytes) : Prop :=
  n.Lists (ascii "geosite") code ∨ n.Lists (ascii "domain") (ascii "geosite:" ++ code)

/-- The rule names the geoip category. -/
def NamesIp (n : Yaml) (code : Bytes) : Prop :=
  n.Lists (ascii "geoip") code ∨ n.Lists (ascii "ip") (ascii "geoip:" ++ code)

theorem lists_iff {n : Yaml} {key text : Bytes} {ts : List Bytes} (h : n.texts key = .ok ts) :
    n.Lists key text ↔ text ∈ ts := by
  constructor
  · rintro ⟨ts', h', htext⟩
    obtain rfl := Except.ok.inj (h.symm.trans h')
    exact htext
  · intro htext
    exact ⟨ts, h, htext⟩

end Yaml

namespace RuleConfig

/-- What the turns of a loop add to a list, if they add what they are given in some form. -/
theorem mem_foldl_add {ρ : Type} {field : ρ → List Bytes} {add : ρ → Bytes → ρ} {x : Bytes}
    {Gives : Bytes → Prop} (hadd : ∀ r d, x ∈ field (add r d) ↔ x ∈ field r ∨ Gives d)
    (ds : List Bytes) (r : ρ) :
    x ∈ field (ds.foldl add r) ↔ x ∈ field r ∨ ∃ d ∈ ds, Gives d := by
  induction ds generalizing r with
  | nil => simp
  | cons d ds ih => rw [List.foldl_cons, ih, hadd, List.exists_mem_cons_iff, or_assoc]

/-- The same where they add one text for another. -/
theorem mem_foldl_iff {ρ : Type} {field : ρ → List Bytes} {add : ρ → Bytes → ρ} {x given : Bytes}
    (hadd : ∀ r d, x ∈ field (add r d) ↔ x ∈ field r ∨ d = given) (ds : List Bytes) (r : ρ) :
    x ∈ field (ds.foldl add r) ↔ x ∈ field r ∨ given ∈ ds := by
  rw [mem_foldl_add hadd, exists_eq_right]

/-- The text behind a mark is the one that the mark was put in front of. -/
theorem mem_concat_drop {mark d x : Bytes} {xs : List Bytes} (h : mark <+: d) :
    x ∈ xs ++ [d.drop mark.length] ↔ x ∈ xs ∨ d = mark ++ x := by
  obtain ⟨rest, rfl⟩ := h
  rw [List.mem_append, List.mem_singleton, List.drop_left, List.append_cancel_left_eq, eq_comm]

theorem mem_geosite_addDomain (code : Bytes) (r : RuleConfig) (d : Bytes) :
    code ∈ (r.addDomain d).geosite ↔ code ∈ r.geosite ∨ d = ascii "geosite:" ++ code := by
  rw [addDomain]
  by_cases hsite : ascii "geosite:" <+: d
  · rw [if_pos hsite]
    exact mem_concat_drop hsite
  · have hne : d ≠ ascii "geosite:" ++ code := by
      rintro rfl
      exact hsite (List.prefix_append _ _)
    rw [if_neg hsite, or_iff_left hne]
    split_ifs
    all_goals rfl

theorem geoip_addDomain (r : RuleConfig) (d : Bytes) : (r.addDomain d).geoip = r.geoip := by
  rw [addDomain]
  split_ifs
  all_goals rfl

theorem mem_geoip_addIp (code : Bytes) (r : RuleConfig) (ip : Bytes) :
    code ∈ (r.addIp ip).geoip ↔ code ∈ r.geoip ∨ ip = ascii "geoip:" ++ code := by
  rw [addIp]
  by_cases hgeo : ascii "geoip:" <+: ip
  · rw [if_pos hgeo]
    exact mem_concat_drop hgeo
  · have hne : ip ≠ ascii "geoip:" ++ code := by
      rintro rfl
      exact hgeo (List.prefix_append _ _)
    rw [if_neg hgeo, or_iff_left hne]

theorem geosite_addIp (r : RuleConfig) (ip : Bytes) : (r.addIp ip).geosite = r.geosite := by
  rw [addIp]
  split_ifs
  all_goals rfl

theorem foldl_field {ρ γ : Type} {field : ρ → γ} {add : ρ → Bytes → ρ}
    (hadd : ∀ r d, field (add r d) = field r) (ds : List Bytes) (r : ρ) :
    field (ds.foldl add r) = field r := by
  induction ds generalizing r with
  | nil => rfl
  | cons d ds ih => rw [List.foldl_cons, ih, hadd]

end RuleConfig

/-- **A rule has the geo categories that its node names**, under their keys or with a mark in
front among the domains and addresses. -/
theorem parseRule_names {n : Yaml} {rc : RuleConfig} (h : parseRule n = .ok rc) (code : Bytes) :
    (code ∈ rc.geosite ↔ n.NamesSite code) ∧ (code ∈ rc.geoip ↔ n.NamesIp code) := by
  obtain ⟨inboundTag, -, h⟩ := bind_eq_ok.mp h
  obtain ⟨domain, hdomain, h⟩ := bind_eq_ok.mp h
  obtain ⟨suffix, -, h⟩ := bind_eq_ok.mp h
  obtain ⟨ip, hip, h⟩ := bind_eq_ok.mp h
  obtain ⟨cidr, -, h⟩ := bind_eq_ok.mp h
  obtain ⟨geoip, hgeoip, h⟩ := bind_eq_ok.mp h
  obtain ⟨geosite, hgeosite, h⟩ := bind_eq_ok.mp h
  obtain ⟨outbound, -, h⟩ := bind_eq_ok.mp h
  cases h
  constructor
  · rw [Yaml.NamesSite, Yaml.lists_iff hgeosite, Yaml.lists_iff hdomain, List.mem_append,
      RuleConfig.foldl_field RuleConfig.geosite_addIp,
      RuleConfig.mem_foldl_iff (RuleConfig.mem_geosite_addDomain code)]
    simp [or_comm]
  · rw [Yaml.NamesIp, Yaml.lists_iff hgeoip, Yaml.lists_iff hip, List.mem_append,
      RuleConfig.mem_foldl_iff (RuleConfig.mem_geoip_addIp code),
      RuleConfig.foldl_field RuleConfig.geoip_addDomain]
    simp [or_comm]

/-! ## Which codes are found -/

theorem toLower_toLower (b : UInt8) : toLower (toLower b) = toLower b := by
  by_cases hcapital : 65 ≤ b ∧ b ≤ 90
  · have hsmall : ¬ (65 ≤ b + 32 ∧ b + 32 ≤ 90) := by
      have h65 : (65 : UInt8).toNat = 65 := rfl
      have h90 : (90 : UInt8).toNat = 90 := rfl
      have h32 : (32 : UInt8).toNat = 32 := rfl
      simp only [UInt8.le_iff_toNat_le, UInt8.toNat_add] at hcapital ⊢
      omega
    have hlower : toLower b = b + 32 := if_pos hcapital
    rw [hlower, toLower, if_neg hsmall]
  · have hlower : toLower b = b := if_neg hcapital
    rw [hlower, hlower]

theorem lowerCase_lowerCase (s : Bytes) : lowerCase (lowerCase s) = lowerCase s := by
  rw [lowerCase, lowerCase, List.map_map]
  exact List.map_congr_left fun b _ => toLower_toLower b

section Named

variable (env : RouteEnv) (cfg : RouteConfig) (router : Router env.regex)

/-- The rule of the node, as compiled. -/
def RuleOf (n : Yaml) (rc : RuleConfig) (rule : CompiledRule) : Prop :=
  parseRule n = .ok rc ∧ Router.compileRule env rc = .ok rule

/-- A request from an inbound that the rule is for. -/
def RuleConfig.From (rc : RuleConfig) (r : SessionRequest) : Prop :=
  ∀ tag, rc.inboundTag = some tag → tag = r.inboundTag

/-- A rule that names the code of an entry of the geosite file matches the full names of the
entry. -/
def SitesNamed : Prop :=
  ∀ e ∈ env.entries env.parseGeoSiteList cfg.geositePath, ∀ n rc rule,
    n.NamesSite e.countryCode → RuleOf env n rc rule →
    ∀ item ∈ e.domain, item.type = .full → ∀ r port, r.target = .domain item.value port →
      rc.From r → rule.matches_ router r = true

/-- A rule that names the code of an entry of the geoip file matches the addresses in the
valid CIDRs of the entry. -/
def AddressesNamed : Prop :=
  ∀ e ∈ env.entries env.parseGeoIPList cfg.geoipPath, ∀ n rc rule,
    n.NamesIp e.countryCode → RuleOf env n rc rule →
    ∀ c ∈ e.cidr, c.Valid → ∀ r : SessionRequest, r.target.isIP = true → c.Contains r.target →
      rc.From r → rule.matches_ router r = true

/-- The entries of the geosite file with full names have codes without capital letters. -/
def SitesLowerCase : Prop :=
  ∀ e ∈ env.entries env.parseGeoSiteList cfg.geositePath,
    (∃ item ∈ e.domain, item.type = .full) → lowerCase e.countryCode = e.countryCode

/-- The entries of the geoip file with valid CIDRs have codes without capital letters. -/
def AddressesLowerCase : Prop :=
  ∀ e ∈ env.entries env.parseGeoIPList cfg.geoipPath,
    (∃ c ∈ e.cidr, c.Valid ∧ (c.ip.length = 4 ∨ c.ip.length = 16)) →
      lowerCase e.countryCode = e.countryCode

variable {env cfg router}

/-- A node that names one geosite category and nothing else, and its rule. -/
theorem ruleOf_site (code : Bytes) :
    RuleOf env (.map [(.scalar (ascii "geosite"), .sequence [.scalar code])])
      ⟨none, [], [], [], [], [code], []⟩ ⟨none, ∅, [], [], [], [code], []⟩ :=
  ⟨rfl, rfl⟩

theorem namesSite_node (code : Bytes) :
    Yaml.NamesSite (.map [(.scalar (ascii "geosite"), .sequence [.scalar code])]) code :=
  .inl ⟨[code], rfl, List.mem_cons_self⟩

theorem ruleOf_ip (code : Bytes) :
    RuleOf env (.map [(.scalar (ascii "geoip"), .sequence [.scalar code])])
      ⟨none, [], [], [], [code], [], []⟩ ⟨none, ∅, [], [], [code], [], []⟩ :=
  ⟨rfl, rfl⟩

theorem namesIp_node (code : Bytes) :
    Yaml.NamesIp (.map [(.scalar (ascii "geoip"), .sequence [.scalar code])]) code :=
  .inl ⟨[code], rfl, List.mem_cons_self⟩

theorem sitesNamed_iff (hrouter : Router.Of env cfg router) :
    SitesNamed env cfg router ↔ SitesLowerCase env cfg := by
  constructor
  · rintro hnamed e he ⟨item, hitem, hfull⟩
    have hmatch := hnamed e he _ _ _ (namesSite_node _) (ruleOf_site _) item hitem hfull
      ⟨[], [], .tcp, .domain item.value 80, true, false⟩ 80 rfl (by simp [RuleConfig.From])
    rw [matches_iff hrouter (ruleOf_site e.countryCode).2] at hmatch
    -- the rule has no other criterion, so that some entry is stored under the code
    obtain ⟨-, ⟨-, htag⟩ | ⟨d, port, -, hexact | ⟨suffix, hsuffix, -⟩ | hsite⟩ | ⟨hip, -⟩⟩ := hmatch
    · exact absurd rfl htag
    · cases hexact
    · cases hsuffix
    · obtain ⟨code, hcode, e', -, hlower, -⟩ := hsite
      rw [← List.mem_singleton.mp hcode, ← hlower]
      exact lowerCase_lowerCase _
    · cases hip
  · intro hlower e he n rc rule hnames hrule item hitem hfull r port htarget hfrom
    rw [matches_iff hrouter hrule.2]
    refine ⟨hfrom, .inr (.inl ⟨item.value, port, htarget, .inr (.inr ?_)⟩)⟩
    refine ⟨e.countryCode, ((parseRule_names hrule.1 _).1).mpr hnames, e, he, ?_, item, hitem, ?_⟩
    · exact hlower e he ⟨item, hitem, hfull⟩
    · rw [GeoSiteMatcher.Applies, hfull]

/-- An address in an array is read as without it. -/
theorem toNat_u32At_bytes (ip : ByteArrayN 4) (port : UInt16) :
    (u32At (Address.ipv4 ip port).bytes.1).toNat = (u32At ip.1).toNat := by
  have harray : (Address.arrayAt (Address.arrayAt ip.1 0 16).1 0 4).1
      = (Address.arrayAt ip.1 0 4).1 := rfl
  rw [GeoIpMatcher.toNat_u32At, GeoIpMatcher.toNat_u32At, Address.bytes, harray]

/-- A valid CIDR contains its own address. -/
theorem Cidr.exists_contains {c : Cidr} (hvalid : c.Valid)
    (hlen : c.ip.length = 4 ∨ c.ip.length = 16) :
    ∃ addr : Address, addr.isIP = true ∧ c.Contains addr := by
  rcases hlen with h4 | h16
  · refine ⟨.ipv4 ⟨c.ip, h4⟩ 80, rfl, (c.inRange_iff_contains hvalid _).mp ?_⟩
    have hfits := UInt32.le_iff_toNat_le.mp (hvalid.1 h4)
    refine ⟨h4, (GeoIpMatcher.contains_cidrRange (n := 4) rfl (by decide) hfits).mpr ?_⟩
    rw [toU32, if_neg (not_not.mpr h4), toNat_u32At_bytes]
  · refine ⟨.ipv6 ⟨c.ip, h16⟩ 80, rfl, (c.inRange_iff_contains hvalid _).mp ?_⟩
    have hfits := UInt32.le_iff_toNat_le.mp (hvalid.2 h16)
    refine ⟨h16, (GeoIpMatcher.contains_cidrRange (n := 16) rfl (by decide) hfits).mpr ?_⟩
    rw [toU128, if_neg (not_not.mpr h16), Address.bytes]

theorem addressesNamed_iff (hrouter : Router.Of env cfg router) :
    AddressesNamed env cfg router ↔ AddressesLowerCase env cfg := by
  constructor
  · rintro hnamed e he ⟨c, hc, hvalid, hlen⟩
    obtain ⟨addr, hip, hcontains⟩ := c.exists_contains hvalid hlen
    have hmatch := hnamed e he _ _ _ (namesIp_node _) (ruleOf_ip _) c hc hvalid
      ⟨[], [], .tcp, addr, true, false⟩ hip hcontains (by simp [RuleConfig.From])
    rw [matches_iff hrouter (ruleOf_ip e.countryCode).2] at hmatch
    obtain ⟨-, ⟨-, htag⟩ | ⟨d, port, htarget, -⟩ | ⟨-, ⟨cidr, hcidr, -⟩ | hgeo⟩⟩ := hmatch
    · exact absurd rfl htag
    · obtain rfl : addr = .domain d port := htarget
      cases hip
    · cases hcidr
    · obtain ⟨code, hcode, e', -, hlower, -⟩ := hgeo
      rw [← List.mem_singleton.mp hcode, ← hlower]
      exact lowerCase_lowerCase _
  · intro hlower e he n rc rule hnames hrule c hc hvalid r hip hcontains hfrom
    have hlen : c.ip.length = 4 ∨ c.ip.length = 16 := by
      have hfamily := hcontains.1
      split_ifs at hfamily with hv6
      · exact .inr hfamily
      · exact .inl hfamily
    rw [matches_iff hrouter hrule.2]
    refine ⟨hfrom, .inr (.inr ⟨hip, .inr ?_⟩)⟩
    refine ⟨e.countryCode, ((parseRule_names hrule.1 _).2).mpr hnames, e, he, ?_, c, hc, ?_⟩
    · exact hlower e he ⟨c, hc, hvalid, hlen⟩
    · exact (c.inRange_iff_contains hvalid _).mpr hcontains

end Named

/-- **A rule can name a geo category as the file spells it exactly if the spelling has no
capital letter**, for the entries with a full name or a valid CIDR. The rule may name it in
either way that the configuration has. -/
theorem geo_named_iff (env : RouteEnv) (cfg : RouteConfig) (router : Router env.regex)
    (h : Router.compile env cfg = .ok router) :
    (SitesNamed env cfg router ∧ AddressesNamed env cfg router)
      ↔ SitesLowerCase env cfg ∧ AddressesLowerCase env cfg := by
  have hrouter := Router.of_compile h
  rw [sitesNamed_iff hrouter, addressesNamed_iff hrouter]

/-- Geo files with one entry each, both with this code. -/
def geoEnv (code : Bytes) : RouteEnv where
  makeAddress _ := none
  regex := ⟨Bytes, some, fun d r => r <:+: d⟩
  sort := .stable
  readFile _ := some []
  parseGeoSiteList _ := some [⟨code, [⟨.full, ascii "weibo.cn"⟩]⟩]
  parseGeoIPList _ := some [⟨code, [⟨[1, 0, 0, 0], 24⟩]⟩]

/-- A route that uses them. -/
def geoConfig : RouteConfig := ⟨ascii "geoip.dat", ascii "geosite.dat", [], []⟩

theorem sitesLowerCase_geoEnv {code : Bytes} :
    SitesLowerCase (geoEnv code) geoConfig ↔ lowerCase code = code := by
  have hentries : (geoEnv code).entries (geoEnv code).parseGeoSiteList geoConfig.geositePath
      = [⟨code, [⟨.full, ascii "weibo.cn"⟩]⟩] := rfl
  rw [SitesLowerCase, hentries]
  simp

theorem addressesLowerCase_geoEnv {code : Bytes} :
    AddressesLowerCase (geoEnv code) geoConfig ↔ lowerCase code = code := by
  have hentries : (geoEnv code).entries (geoEnv code).parseGeoIPList geoConfig.geoipPath
      = [⟨code, [⟨[1, 0, 0, 0], 24⟩]⟩] := rfl
  have hvalid : Cidr.Valid ⟨[1, 0, 0, 0], 24⟩ := by decide
  rw [AddressesLowerCase, hentries]
  simp [hvalid]

theorem geo_named_iff_cn :
    ∃ router, Router.compile (geoEnv (ascii "cn")) geoConfig = .ok router ∧
      SitesNamed (geoEnv (ascii "cn")) geoConfig router ∧
      AddressesNamed (geoEnv (ascii "cn")) geoConfig router := by
  refine ⟨_, rfl, (geo_named_iff (geoEnv (ascii "cn")) geoConfig _ rfl).mpr ?_⟩
  rw [sitesLowerCase_geoEnv, addressesLowerCase_geoEnv]
  decide

/-- Both files spell the code `CN`: no rule that names `CN` finds an entry. -/
theorem geo_named_fails_on_capitals :
    ∃ router, Router.compile (geoEnv (ascii "CN")) geoConfig = .ok router ∧
      ¬ SitesNamed (geoEnv (ascii "CN")) geoConfig router ∧
      ¬ AddressesNamed (geoEnv (ascii "CN")) geoConfig router := by
  refine ⟨_, rfl, ?_⟩
  rw [sitesNamed_iff (Router.of_compile rfl), addressesNamed_iff (Router.of_compile rfl),
    sitesLowerCase_geoEnv, addressesLowerCase_geoEnv]
  decide

end Shine
