import Shine.Config.Schema
import Shine.Outbound.Dial
import Shine.Route.GeoSite

/-!
# Routing (`route/router.cpp`)

`Router::compile` turns the rules of the configuration into the form in which `pick`
tries them. The environment gives what lies outside: the text form of addresses, the
regular expressions, `std::sort` and the geo files with their protobuf parser.

The abstract layer is what the configuration says: `RuleConfig.Matches` is the meaning of a
rule and `RouteConfig.Decides` the tag of the first one that matches. `pick_decides`
connects the two.
-/

namespace Shine

/-- What the router takes from outside. -/
structure RouteEnv where
  /-- `ip::make_address`. -/
  makeAddress : Bytes → Option IpAddr
  regex : StdRegex
  sort : StdSort
  /-- The contents of a file, if it can be opened. -/
  readFile : Bytes → Option Bytes
  /-- `GeoSiteList::ParseFromIstream`. -/
  parseGeoSiteList : Bytes → Option (List GeoSite)
  /-- `GeoIPList::ParseFromIstream`. -/
  parseGeoIPList : Bytes → Option (List GeoIP)

/-- `CompiledRule`. -/
structure CompiledRule where
  inboundTag : Option Bytes
  domainExact : Finset Bytes
  domainSuffix : List Bytes
  cidrs : List IpRange
  geoip : List Bytes
  geosite : List Bytes
  outboundTag : Bytes

/-- `Router`. -/
structure Router (R : StdRegex) where
  rules : List CompiledRule
  defaultOutbound : Bytes
  geoSite : Option (GeoSiteMatcher.Categories R)
  geoIp : Option GeoIpMatcher.Categories

/-- `endsWithSuffix`. -/
def endsWithSuffix (domain suffix : Bytes) : Bool :=
  if suffix = [] then false
  else if domain.length < suffix.length then false
  else
    suffix <:+ domain &&
      (domain.length = suffix.length || suffix.head? = some 46 ||
        domain.getD (domain.length - suffix.length - 1) 0 = 46)

namespace CompiledRule

variable {R : StdRegex} (rule : CompiledRule) (router : Router R)

/-- Criteria for domain names are listed. -/
def listsNames : Bool := rule.domainExact ≠ ∅ ∨ rule.domainSuffix ≠ [] ∨ rule.geosite ≠ []

/-- Criteria for IP addresses are listed. -/
def listsAddresses : Bool := rule.cidrs ≠ [] ∨ rule.geoip ≠ []

/-- The target is a domain name, and one of the criteria for names applies. -/
def matchesName : Address → Bool
  | .domain d _ =>
    d ∈ rule.domainExact || rule.domainSuffix.any (endsWithSuffix d ·) ||
      router.geoSite.any fun m => rule.geosite.any (GeoSiteMatcher.match_ m d ·)
  | _ => false

/-- The target is an IP address, and one of the criteria for addresses applies. -/
def matchesAddress (target : Address) : Bool :=
  target.isIP &&
    (rule.cidrs.any (·.contains target.bytes.1 target.isV6) ||
      router.geoIp.any fun m =>
        rule.geoip.any (GeoIpMatcher.match_ m target.bytes.1 target.isV6 ·))

/-- `CompiledRule::matches`. -/
def matches_ (r : SessionRequest) : Bool :=
  if rule.inboundTag.any (· ≠ r.inboundTag) then false
  else
    let anyRule := rule.listsNames || rule.listsAddresses
    let anyMatch :=
      (rule.listsNames && rule.matchesName router r.target) ||
        (rule.listsAddresses && rule.matchesAddress router r.target)
    -- only the inbound tag is given, or nothing
    if !anyRule then rule.inboundTag.isSome else anyMatch

end CompiledRule

namespace Router

variable (env : RouteEnv)

/-- Load a geo file. -/
def loadFile {C E : Type} (name : Bytes) (parse : Bytes → Option (List E)) (build : List E → C)
    (path : Bytes) : StatusOr C :=
  match env.readFile path with
  | none => .error (.notFound (ascii "cannot open " ++ name ++ ascii ": " ++ path))
  | some content =>
    match parse content with
    | none => .error (.invalidArgument (ascii "failed to parse " ++ name ++ ascii " protobuf"))
    | some list => .ok (build list)

/-- `GeoSiteMatcher::load`, on a new matcher. -/
def loadGeoSite : Bytes → StatusOr (GeoSiteMatcher.Categories env.regex) :=
  loadFile env (ascii "geosite.dat") env.parseGeoSiteList (GeoSiteMatcher.loaded env.regex)

/-- `GeoIpMatcher::load`, on a new matcher. -/
def loadGeoIp : Bytes → StatusOr GeoIpMatcher.Categories :=
  loadFile env (ascii "geoip.dat") env.parseGeoIPList (GeoIpMatcher.loaded env.sort)

/-- A matcher for the file, if one is configured. A failure to load is logged, and leaves the
matcher empty. -/
def matcher {C : Type} (load : Bytes → StatusOr (Bytes → Option C)) (path : Bytes) :
    Option (Bytes → Option C) :=
  if path = [] then none
  else match load path with
    | .ok m => some m
    | .error _ => some fun _ => none

/-- The body of the loop over the rules. -/
def compileRule (rc : RuleConfig) : StatusOr CompiledRule := do
  let cidrs ← rc.cidrs.mapM (parseCidr env.makeAddress)
  return {
    inboundTag := rc.inboundTag
    domainExact := rc.domainExact.toFinset
    domainSuffix := rc.domainSuffix
    cidrs := cidrs
    geoip := rc.geoip
    geosite := rc.geosite
    outboundTag := rc.outboundTag }

/-- `Router::compile`. -/
def compile (cfg : RouteConfig) : StatusOr (Router env.regex) := do
  let rules ← cfg.rules.mapM (compileRule env)
  return {
    rules := rules
    defaultOutbound := cfg.defaultOutbound
    geoSite := matcher (loadGeoSite env) cfg.geositePath
    geoIp := matcher (loadGeoIp env) cfg.geoipPath }

/-- `Router::pick`. -/
def pick {R : StdRegex} (router : Router R) (r : SessionRequest) : Bytes :=
  match router.rules.find? (·.matches_ router r) with
  | some rule => rule.outboundTag
  | none => router.defaultOutbound

end Router

/-! ## What the configuration says -/

/-- The name ends with the suffix, at the border of a label: the name is the suffix, the
suffix starts with a dot, or there is a dot in front of it. -/
def HasSuffix (d suffix : Bytes) : Prop :=
  suffix ≠ [] ∧ ∃ rest, d = rest ++ suffix ∧
    (rest = [] ∨ suffix.head? = some 46 ∨ rest.getLast? = some 46)

/-- The entries of a geo file; none if it is not configured or cannot be loaded. -/
def RouteEnv.entries {E : Type} (env : RouteEnv) (parse : Bytes → Option (List E))
    (path : Bytes) : List E :=
  if path = [] then [] else ((env.readFile path).bind parse).getD []

namespace RuleConfig

/-- Some criterion is listed. -/
def Lists (rc : RuleConfig) : Prop :=
  rc.domainExact ≠ [] ∨ rc.domainSuffix ≠ [] ∨ rc.geosite ≠ [] ∨ rc.cidrs ≠ [] ∨ rc.geoip ≠ []

/-- A criterion for names is satisfied. -/
def NameSatisfies (env : RouteEnv) (cfg : RouteConfig) (rc : RuleConfig) (d : Bytes) : Prop :=
  d ∈ rc.domainExact ∨ (∃ suffix ∈ rc.domainSuffix, HasSuffix d suffix) ∨
    ∃ code ∈ rc.geosite, ∃ e ∈ env.entries env.parseGeoSiteList cfg.geositePath,
      lowerCase e.countryCode = code ∧
        ∃ item ∈ e.domain, GeoSiteMatcher.Applies env.regex item d

/-- A criterion for addresses is satisfied. -/
def AddressSatisfies (env : RouteEnv) (cfg : RouteConfig) (rc : RuleConfig) (addr : Address) :
    Prop :=
  (∃ cidr ∈ rc.cidrs, ∃ range, parseCidr env.makeAddress cidr = .ok range ∧
      range.contains addr.bytes.1 addr.isV6 = true) ∨
    ∃ code ∈ rc.geoip, ∃ e ∈ env.entries env.parseGeoIPList cfg.geoipPath,
      lowerCase e.countryCode = code ∧ ∃ c ∈ e.cidr, GeoIpMatcher.InRange c addr

/-- The rule matches the request. -/
def Matches (env : RouteEnv) (cfg : RouteConfig) (rc : RuleConfig) (r : SessionRequest) : Prop :=
  (∀ tag, rc.inboundTag = some tag → tag = r.inboundTag) ∧
    ((¬ rc.Lists ∧ rc.inboundTag ≠ none) ∨
      (∃ d port, r.target = .domain d port ∧ rc.NameSatisfies env cfg d) ∨
      (r.target.isIP = true ∧ rc.AddressSatisfies env cfg r.target))

end RuleConfig

/-- The tag of the first rule that matches, or the default. -/
def RouteConfig.Decides (env : RouteEnv) (cfg : RouteConfig) (r : SessionRequest) (tag : Bytes) :
    Prop :=
  (∃ before rc behind, cfg.rules = before ++ rc :: behind ∧
      (∀ rc' ∈ before, ¬ rc'.Matches env cfg r) ∧ rc.Matches env cfg r ∧ tag = rc.outboundTag) ∨
    ((∀ rc ∈ cfg.rules, ¬ rc.Matches env cfg r) ∧ tag = cfg.defaultOutbound)

/-- There is one such tag. -/
theorem RouteConfig.Decides.unique {env : RouteEnv} {cfg : RouteConfig} {r : SessionRequest}
    {tag tag' : Bytes} (h : cfg.Decides env r tag) (h' : cfg.Decides env r tag') : tag = tag' := by
  rcases h with ⟨before, rc, behind, hrules, hbefore, hrc, rfl⟩ | ⟨hnone, rfl⟩
  · have hmem : rc ∈ cfg.rules := by
      rw [hrules]
      exact List.mem_append_right _ List.mem_cons_self
    rcases h' with ⟨before', rc', behind', hrules', hbefore', hrc', rfl⟩ | ⟨hnone', -⟩
    · -- neither of the two comes before the other
      rcases List.append_eq_append_iff.mp (hrules.symm.trans hrules') with
        ⟨between, rfl, heq⟩ | ⟨between, rfl, heq⟩
      · cases between with
        | nil => rw [(List.cons.inj heq).1]
        | cons x xs =>
          rw [(List.cons.inj heq).1] at hrc
          exact absurd hrc (hbefore' x (by simp))
      · cases between with
        | nil => rw [(List.cons.inj heq).1]
        | cons x xs =>
          rw [(List.cons.inj heq).1] at hrc'
          exact absurd hrc' (hbefore x (by simp))
    · exact absurd hrc (hnone' rc hmem)
  · rcases h' with ⟨before', rc', behind', hrules', -, hrc', -⟩ | ⟨-, rfl⟩
    · refine absurd hrc' (hnone rc' ?_)
      rw [hrules']
      exact List.mem_append_right _ List.mem_cons_self
    · rfl

/-! ## The criteria -/

/-- What is tested where the suffix starts. -/
theorem suffix_border {rest suffix : Bytes} :
    ((rest ++ suffix).length = suffix.length ∨ suffix.head? = some 46 ∨
        (rest ++ suffix).getD ((rest ++ suffix).length - suffix.length - 1) 0 = 46)
      ↔ rest = [] ∨ suffix.head? = some 46 ∨ rest.getLast? = some 46 := by
  rcases List.eq_nil_or_concat rest with rfl | ⟨rest, b, rfl⟩
  · simp
  · have hindex : (rest ++ [b] ++ suffix).length - suffix.length - 1 = rest.length := by
      simp only [List.length_append, List.length_singleton]
      omega
    have hlen : (rest ++ [b] ++ suffix).length ≠ suffix.length := by
      simp only [List.length_append, List.length_singleton]
      omega
    have hlast : (rest ++ [b] ++ suffix).getD rest.length 0 = b := by simp
    rw [List.concat_eq_append, hindex, hlast, or_iff_right hlen]
    simp

theorem endsWithSuffix_iff {d suffix : Bytes} :
    endsWithSuffix d suffix = true ↔ HasSuffix d suffix := by
  rw [endsWithSuffix, HasSuffix]
  by_cases hne : suffix = []
  · simp [hne]
  · rw [if_neg hne]
    by_cases hlen : d.length < suffix.length
    · rw [if_pos hlen]
      refine iff_of_false Bool.false_ne_true ?_
      rintro ⟨-, rest, rfl, -⟩
      simp at hlen
    · rw [if_neg hlen]
      simp only [Bool.and_eq_true, Bool.or_eq_true, decide_eq_true_eq, or_assoc]
      constructor
      · rintro ⟨⟨rest, rfl⟩, hborder⟩
        exact ⟨hne, rest, rfl, suffix_border.mp hborder⟩
      · rintro ⟨-, rest, rfl, hborder⟩
        exact ⟨⟨rest, rfl⟩, suffix_border.mpr hborder⟩

section Compiled

variable {env : RouteEnv}

/-- A matcher answers from the entries of its file, whatever it is asked. -/
theorem matcher_any {C E : Type} (name : Bytes) (parse : Bytes → Option (List E))
    (build : List E → Bytes → Option C) (ask : (Bytes → Option C) → Bytes → Bool)
    (hempty : build [] = fun _ => none) (hask : ∀ code, ask (fun _ => none) code = false)
    {path : Bytes} {codes : List Bytes} :
    ((Router.matcher (Router.loadFile env name parse build) path).any
        fun m => codes.any (ask m ·)) = true
      ↔ ∃ code ∈ codes, ask (build (env.entries parse path)) code = true := by
  rw [Router.matcher, RouteEnv.entries]
  by_cases hpath : path = []
  · simp [hpath, hempty, hask]
  · rw [if_neg hpath, if_neg hpath, Router.loadFile]
    cases env.readFile path with
    | none => simp [hempty, hask]
    | some content =>
      cases hparse : parse content with
      | none => simp [hparse, hempty, hask]
      | some list => simp [hparse]

theorem geoSite_any {path d : Bytes} {codes : List Bytes} :
    ((Router.matcher (Router.loadGeoSite env) path).any
        fun m => codes.any (GeoSiteMatcher.match_ m d ·)) = true
      ↔ ∃ code ∈ codes, ∃ e ∈ env.entries env.parseGeoSiteList path,
        lowerCase e.countryCode = code ∧
          ∃ item ∈ e.domain, GeoSiteMatcher.Applies env.regex item d := by
  rw [Router.loadGeoSite, matcher_any _ _ _ (fun m code => GeoSiteMatcher.match_ m d code) rfl
    fun code => rfl]
  simp only [GeoSiteMatcher.match_iff_applies]

theorem geoIp_any {path : Bytes} {addr : Address} {codes : List Bytes} :
    ((Router.matcher (Router.loadGeoIp env) path).any
        fun m => codes.any (GeoIpMatcher.match_ m addr.bytes.1 addr.isV6 ·)) = true
      ↔ ∃ code ∈ codes, ∃ e ∈ env.entries env.parseGeoIPList path,
        lowerCase e.countryCode = code ∧ ∃ c ∈ e.cidr, GeoIpMatcher.InRange c addr := by
  rw [Router.loadGeoIp, matcher_any _ _ _
    (fun m code => GeoIpMatcher.match_ m addr.bytes.1 addr.isV6 code) rfl fun code => rfl]
  simp only [GeoIpMatcher.match_iff_inRange]

/-- The ranges of a rule are those of its texts. -/
theorem cidrs_any {texts : List Bytes} {ranges : List IpRange} {addr : Address}
    (h : List.Forall₂ (fun text range => parseCidr env.makeAddress text = .ok range)
      texts ranges) :
    ranges.any (·.contains addr.bytes.1 addr.isV6) = true
      ↔ ∃ cidr ∈ texts, ∃ range, parseCidr env.makeAddress cidr = .ok range ∧
        range.contains addr.bytes.1 addr.isV6 = true := by
  induction h with
  | nil => simp
  | cons hrange _ ih =>
    rw [List.any_cons, Bool.or_eq_true, ih, List.exists_mem_cons_iff, hrange]
    simp

end Compiled

/-- The first hit in a list, told from a list that is related to it. -/
theorem find?_related {α β : Type} {Rel : α → β → Prop} {p : α → Prop} {q : β → Bool}
    {as : List α} {bs : List β} (h : List.Forall₂ Rel as bs)
    (hpq : ∀ a b, Rel a b → (q b = true ↔ p a)) :
    (∃ before a behind b, as = before ++ a :: behind ∧ (∀ x ∈ before, ¬ p x) ∧ p a ∧ Rel a b ∧
        bs.find? q = some b) ∨
      ((∀ a ∈ as, ¬ p a) ∧ bs.find? q = none) := by
  induction h with
  | nil => simp
  | @cons a b as bs hab _ ih =>
    by_cases hq : q b = true
    · exact .inl ⟨[], a, as, b, rfl, by simp, (hpq a b hab).mp hq, hab, by simp [hq]⟩
    · have hp : ¬ p a := fun hp => hq ((hpq a b hab).mpr hp)
      rw [List.find?_cons_of_neg hq]
      rcases ih with ⟨before, a', behind, b', rfl, hbefore, hhit⟩ | ⟨hnone, hfind⟩
      · refine .inl ⟨a :: before, a', behind, b', rfl, fun x hx => ?_, hhit⟩
        rcases List.mem_cons.mp hx with rfl | hx
        · exact hp
        · exact hbefore x hx
      · exact .inr ⟨List.forall_mem_cons.mpr ⟨hp, hnone⟩, hfind⟩

section Rule

variable {R : StdRegex} {rule : CompiledRule} {router : Router R} {target : Address}

/-- A criterion that applies is listed. -/
theorem listsNames_of_matchesName (h : rule.matchesName router target = true) :
    rule.listsNames = true := by
  cases target with
  | ipv4 bytes port => cases h
  | ipv6 bytes port => cases h
  | domain d port =>
    refine decide_eq_true ?_
    simp only [CompiledRule.matchesName, Bool.or_eq_true, decide_eq_true_eq] at h
    rcases h with (hexact | hsuffix) | hsite
    · exact .inl (Finset.ne_empty_of_mem hexact)
    · refine .inr (.inl fun hnil => ?_)
      simp [hnil] at hsuffix
    · refine .inr (.inr fun hnil => ?_)
      simp [hnil] at hsite

theorem listsAddresses_of_matchesAddress (h : rule.matchesAddress router target = true) :
    rule.listsAddresses = true := by
  refine decide_eq_true ?_
  simp only [CompiledRule.matchesAddress, Bool.and_eq_true, Bool.or_eq_true] at h
  rcases h.2 with hcidr | hgeo
  · refine .inl fun hnil => ?_
    simp [hnil] at hcidr
  · refine .inr fun hnil => ?_
    simp [hnil] at hgeo

/-- The flags of `matches`, as one condition. -/
theorem matches_eq_true {r : SessionRequest} :
    rule.matches_ router r = true
      ↔ (∀ tag, rule.inboundTag = some tag → tag = r.inboundTag) ∧
        ((rule.listsNames = false ∧ rule.listsAddresses = false ∧ rule.inboundTag ≠ none) ∨
          rule.matchesName router r.target = true ∨
          rule.matchesAddress router r.target = true) := by
  have hinbound : rule.inboundTag.any (· ≠ r.inboundTag) = false
      ↔ ∀ tag, rule.inboundTag = some tag → tag = r.inboundTag := by
    cases rule.inboundTag with
    | none => simp
    | some tag => simp
  -- what is not listed does not apply either
  have hname : (rule.listsNames && rule.matchesName router r.target)
      = rule.matchesName router r.target := by
    rw [Bool.and_eq_right_iff_imp]
    exact listsNames_of_matchesName
  have haddr : (rule.listsAddresses && rule.matchesAddress router r.target)
      = rule.matchesAddress router r.target := by
    rw [Bool.and_eq_right_iff_imp]
    exact listsAddresses_of_matchesAddress
  rw [← hinbound, CompiledRule.matches_, hname, haddr]
  cases rule.inboundTag.any (· ≠ r.inboundTag) with
  | true => simp
  | false =>
    cases hn : rule.listsNames with
    | true => simp
    | false =>
      cases ha : rule.listsAddresses with
      | true => simp
      | false =>
        have hname' : rule.matchesName router r.target = false := by rw [← hname, hn]; rfl
        have haddr' : rule.matchesAddress router r.target = false := by rw [← haddr, ha]; rfl
        simp [hname', haddr', Option.isSome_iff_ne_none]

end Rule

section Compiled

variable {env : RouteEnv} {cfg : RouteConfig} {router : Router env.regex}

/-- The router was made for `cfg`. -/
structure Router.Of (env : RouteEnv) (cfg : RouteConfig) (router : Router env.regex) : Prop where
  rules : List.Forall₂ (fun rc rule => compileRule env rc = .ok rule) cfg.rules router.rules
  defaultOutbound : router.defaultOutbound = cfg.defaultOutbound
  geoSite : router.geoSite = matcher (loadGeoSite env) cfg.geositePath
  geoIp : router.geoIp = matcher (loadGeoIp env) cfg.geoipPath

theorem Router.of_compile (h : compile env cfg = .ok router) : Router.Of env cfg router := by
  obtain ⟨rules, hrules, heq⟩ := bind_eq_ok.mp h
  obtain rfl := Except.ok.inj heq
  exact ⟨mapM_eq_ok.mp hrules, rfl, rfl, rfl⟩

/-- Every text in CIDR notation can be read. -/
def RuleConfig.Readable (env : RouteEnv) (rc : RuleConfig) : Prop :=
  ∀ text ∈ rc.cidrs, ∃ range, parseCidr env.makeAddress text = .ok range

theorem Router.compileRule_isOk {rc : RuleConfig} :
    (∃ rule, compileRule env rc = .ok rule) ↔ rc.Readable env := by
  rw [RuleConfig.Readable, ← mapM_isOk]
  constructor
  · rintro ⟨rule, hrule⟩
    obtain ⟨ranges, hranges, -⟩ := bind_eq_ok.mp hrule
    exact ⟨ranges, hranges⟩
  · rintro ⟨ranges, hranges⟩
    exact ⟨_, bind_eq_ok.mpr ⟨ranges, hranges, rfl⟩⟩

/-- `compile` fails on such a text only. -/
theorem Router.compile_isOk :
    (∃ router, compile env cfg = .ok router) ↔ ∀ rc ∈ cfg.rules, rc.Readable env := by
  simp only [← Router.compileRule_isOk]
  rw [← mapM_isOk]
  constructor
  · rintro ⟨router, hrouter⟩
    obtain ⟨rules, hrules, -⟩ := bind_eq_ok.mp hrouter
    exact ⟨rules, hrules⟩
  · rintro ⟨rules, hrules⟩
    exact ⟨_, bind_eq_ok.mpr ⟨rules, hrules, rfl⟩⟩

variable {rc : RuleConfig} {rule : CompiledRule} (hrouter : Router.Of env cfg router)
  (hrule : Router.compileRule env rc = .ok rule)

include hrule in
theorem lists_iff : ¬ rc.Lists ↔ rule.listsNames = false ∧ rule.listsAddresses = false := by
  obtain ⟨ranges, hranges, heq⟩ := bind_eq_ok.mp hrule
  obtain rfl := Except.ok.inj heq
  have hnil : rc.cidrs = [] ↔ ranges = [] := by
    have hlen := (mapM_eq_ok.mp hranges).length_eq
    rw [← List.length_eq_zero_iff, ← List.length_eq_zero_iff, hlen]
  simp [RuleConfig.Lists, CompiledRule.listsNames, CompiledRule.listsAddresses, hnil, and_assoc]

include hrouter hrule

theorem matchesName_iff {target : Address} :
    rule.matchesName router target = true
      ↔ ∃ d port, target = .domain d port ∧ rc.NameSatisfies env cfg d := by
  obtain ⟨ranges, -, heq⟩ := bind_eq_ok.mp hrule
  obtain rfl := Except.ok.inj heq
  cases target with
  | ipv4 bytes port => simp [CompiledRule.matchesName]
  | ipv6 bytes port => simp [CompiledRule.matchesName]
  | domain d port =>
    rw [CompiledRule.matchesName, hrouter.geoSite, Bool.or_eq_true, geoSite_any]
    simp [RuleConfig.NameSatisfies, endsWithSuffix_iff, or_assoc]

theorem matchesAddress_iff {target : Address} :
    rule.matchesAddress router target = true
      ↔ target.isIP = true ∧ rc.AddressSatisfies env cfg target := by
  obtain ⟨ranges, hranges, heq⟩ := bind_eq_ok.mp hrule
  obtain rfl := Except.ok.inj heq
  rw [CompiledRule.matchesAddress, hrouter.geoIp, Bool.and_eq_true, Bool.or_eq_true, geoIp_any,
    cidrs_any (mapM_eq_ok.mp hranges), RuleConfig.AddressSatisfies]

/-- **A compiled rule matches what the rule of the configuration does.** -/
theorem matches_iff {r : SessionRequest} :
    rule.matches_ router r = true ↔ rc.Matches env cfg r := by
  have htag : rule.inboundTag = rc.inboundTag := by
    obtain ⟨ranges, -, heq⟩ := bind_eq_ok.mp hrule
    exact (Except.ok.inj heq).symm ▸ rfl
  rw [matches_eq_true, RuleConfig.Matches, matchesName_iff hrouter hrule,
    matchesAddress_iff hrouter hrule, lists_iff hrule, htag, and_assoc]

omit hrule in
/-- **`pick` decides as the configuration says.** -/
theorem Router.pick_decides (r : SessionRequest) : cfg.Decides env r (router.pick r) := by
  rcases find?_related hrouter.rules fun rc rule hrule => matches_iff hrouter hrule with
    ⟨before, rc, behind, rule, hrules, hbefore, hrc, hrule, hfind⟩ | ⟨hnone, hfind⟩
  · refine .inl ⟨before, rc, behind, hrules, hbefore, hrc, ?_⟩
    obtain ⟨ranges, -, heq⟩ := bind_eq_ok.mp hrule
    obtain rfl := Except.ok.inj heq
    rw [Router.pick, hfind]
  · refine .inr ⟨hnone, ?_⟩
    rw [Router.pick, hfind]
    exact hrouter.defaultOutbound

end Compiled

end Shine
