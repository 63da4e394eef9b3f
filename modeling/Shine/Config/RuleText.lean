import Shine.Main
import Shine.Route.GeoNames

/-!
# What a configuration document says about routing (`config/yaml_loader.cpp`, `route/router.cpp`)

The abstract layer here is a reading of the document itself: `Yaml.Matches` says which requests
a node under `route.rules` is for, in terms of the texts in it, and `Yaml.Decides` that the
first such node gives the tag. Between the document and a decision of the running program
there are `parseRule`, which sorts the texts into lists by the marks in front of them,
`validate`, `Router::compile` and `Router::pick`. `document_routes` says that they keep the
meaning of the document.

The reading has one peculiarity. A criterion is an item of a sequence. A key with a single text
instead of a sequence has no items, so a rule that writes all its criteria in this way has
none (`Yaml.Bare`): it is for everything that comes from its inbound.
-/

namespace Shine

namespace Yaml

/-! ## The nodes of a document -/

/-- The node under a key. It is not defined where there is none, or none can be. -/
def child (n : Yaml) (key : Bytes) : Yaml :=
  match n.get key with
  | .ok v => v
  | .error _ => .undefined

/-- The text under a key. -/
def text (n : Yaml) (key : Bytes) : Bytes := (n.child key).asStringOr []

/-- The node for the routes. -/
def route (root : Yaml) : Yaml := root.child (ascii "route")

/-- The nodes of the rules. -/
def rules (root : Yaml) : List Yaml := (root.route.child (ascii "rules")).items

/-- The nodes of the outbounds. -/
def outbounds (root : Yaml) : List Yaml := (root.child (ascii "outbounds")).items

/-- What the node of an outbound says. -/
def outbound (n : Yaml) : OutboundConfig where
  tag := n.text (ascii "tag")
  protocol := n.text (ascii "protocol")
  server := n.text (ascii "server")
  user := n.text (ascii "user")
  pass := n.text (ascii "pass")

/-! ## The meaning of a rule -/

/-- The keys of the criteria. -/
def criteria : List Bytes :=
  [ascii "domain", ascii "domain_suffix", ascii "ip", ascii "cidr", ascii "geoip",
    ascii "geosite"]

/-- The rule has no criterion. -/
def Bare (n : Yaml) : Prop := ∀ key ∈ criteria, (n.child key).items = []

/-- The rule names the domain: with the mark `full:`, or without a mark. -/
def NamesExact (n : Yaml) (d : Bytes) : Prop :=
  n.Lists (ascii "domain") (ascii "full:" ++ d) ∨
    (n.Lists (ascii "domain") d ∧
      ∀ mark ∈ [ascii "geosite:", ascii "domain:", ascii "full:"], ¬ mark <+: d)

/-- The rule names the suffix. -/
def NamesSuffix (n : Yaml) (suffix : Bytes) : Prop :=
  n.Lists (ascii "domain_suffix") suffix ∨ n.Lists (ascii "domain") (ascii "domain:" ++ suffix)

/-- The rule names the network. -/
def NamesCidr (n : Yaml) (cidr : Bytes) : Prop :=
  n.Lists (ascii "cidr") cidr ∨ (n.Lists (ascii "ip") cidr ∧ ¬ ascii "geoip:" <+: cidr)

section Meaning

variable (env : RouteEnv) (n route : Yaml)

/-- The domain satisfies a criterion of the rule. -/
def ForName (d : Bytes) : Prop :=
  n.NamesExact d ∨ (∃ suffix, n.NamesSuffix suffix ∧ HasSuffix d suffix) ∨
    ∃ code, n.NamesSite code ∧
      ∃ e ∈ env.entries env.parseGeoSiteList (route.text (ascii "geosite_path")),
        lowerCase e.countryCode = code ∧
          ∃ item ∈ e.domain, GeoSiteMatcher.Applies env.regex item d

/-- The IP address satisfies a criterion of the rule. -/
def ForAddress (addr : Address) : Prop :=
  (∃ cidr, n.NamesCidr cidr ∧ ∃ range, parseCidr env.makeAddress cidr = .ok range ∧
      range.contains addr.bytes.1 addr.isV6 = true) ∨
    ∃ code, n.NamesIp code ∧
      ∃ e ∈ env.entries env.parseGeoIPList (route.text (ascii "geoip_path")),
        lowerCase e.countryCode = code ∧ ∃ c ∈ e.cidr, GeoIpMatcher.InRange c addr

/-- The rule is for the request. -/
def Matches (r : SessionRequest) : Prop :=
  (∀ tag, (n.child (ascii "inbound")).asString = .ok tag → tag = r.inboundTag) ∧
    ((n.Bare ∧ (n.child (ascii "inbound")).isDefined = true) ∨
      (∃ d port, r.target = .domain d port ∧ n.ForName env route d) ∨
      (r.target.isIP = true ∧ n.ForAddress env route r.target))

end Meaning

/-- The document sends the request to the outbound with the tag: that of the first rule which
is for the request, or the default. -/
def Decides (env : RouteEnv) (root : Yaml) (r : SessionRequest) (tag : Bytes) : Prop :=
  (∃ before n behind, root.rules = before ++ n :: behind ∧
      (∀ n' ∈ before, ¬ n'.Matches env root.route r) ∧ n.Matches env root.route r ∧
      tag = n.text (ascii "outbound")) ∨
    ((∀ n ∈ root.rules, ¬ n.Matches env root.route r) ∧
      tag = root.route.text (ascii "default"))

/-! ## What the loader reads -/

variable {n v : Yaml} {key s : Bytes}

theorem child_of_get (h : n.get key = .ok v) : n.child key = v := by rw [child, h]

theorem eq_undefined (h : n.isDefined = false) : n = undefined := by
  cases n with
  | undefined => rfl
  | _ => cases h

theorem getStr_eq_text (h : getStr n key [] = .ok s) : s = n.text key := by
  obtain ⟨found, hfound, h⟩ := bind_eq_ok.mp h
  rw [find] at hfound
  cases hn : n.isDefined with
  | false =>
    obtain rfl := eq_undefined hn
    cases hfound
    cases h
    rfl
  | true =>
    rw [hn] at hfound
    obtain ⟨v, hv, hfound⟩ := bind_eq_ok.mp hfound
    rw [text, child_of_get hv]
    cases v with
    | undefined =>
      cases hfound
      cases h
      rfl
    | _ =>
      cases hfound
      cases h
      rfl

theorem texts_eq_nil_iff {ts : List Bytes} (h : n.texts key = .ok ts) :
    ts = [] ↔ (n.child key).items = [] := by
  obtain ⟨v, hv, hts⟩ := bind_eq_ok.mp h
  have hlen := (mapM_eq_ok.mp hts).length_eq
  rw [child_of_get hv, ← List.length_eq_zero_iff, ← List.length_eq_zero_iff, hlen]

theorem parseInboundTag_eq_ok {inboundTag : Option Bytes}
    (h : parseInboundTag n = .ok inboundTag) :
    (∀ tag, inboundTag = some tag ↔ (n.child (ascii "inbound")).asString = .ok tag) ∧
      (inboundTag ≠ none ↔ (n.child (ascii "inbound")).isDefined = true) := by
  obtain ⟨v, hv, h⟩ := bind_eq_ok.mp h
  rw [child_of_get hv]
  cases hdef : v.isDefined with
  | false =>
    rw [hdef] at h
    obtain rfl := eq_undefined hdef
    cases h
    simp [asString]
  | true =>
    rw [hdef] at h
    obtain ⟨tag, htag, h⟩ := bind_eq_ok.mp h
    cases h
    simp [htag]

end Yaml

namespace RuleConfig

/-! ## The loops over the texts -/

theorem mem_domainSuffix_addDomain (suffix : Bytes) (r : RuleConfig) (d : Bytes) :
    suffix ∈ (r.addDomain d).domainSuffix
      ↔ suffix ∈ r.domainSuffix ∨ d = ascii "domain:" ++ suffix := by
  rw [addDomain]
  by_cases hsite : ascii "geosite:" <+: d
  · have hne : d ≠ ascii "domain:" ++ suffix := by
      rintro rfl
      obtain ⟨rest, hrest⟩ := hsite
      cases hrest
    rw [if_pos hsite, or_iff_left hne]
  · rw [if_neg hsite]
    by_cases hdomain : ascii "domain:" <+: d
    · rw [if_pos hdomain]
      exact mem_concat_drop hdomain
    · have hne : d ≠ ascii "domain:" ++ suffix := by
        rintro rfl
        exact hdomain (List.prefix_append _ _)
      rw [if_neg hdomain, or_iff_left hne]
      split_ifs
      all_goals rfl

/-- A text among the domains that names `x` itself. -/
def Plainly (d x : Bytes) : Prop :=
  d = ascii "full:" ++ x ∨
    (d = x ∧ ∀ mark ∈ [ascii "geosite:", ascii "domain:", ascii "full:"], ¬ mark <+: d)

theorem mem_domainExact_addDomain (x : Bytes) (r : RuleConfig) (d : Bytes) :
    x ∈ (r.addDomain d).domainExact ↔ x ∈ r.domainExact ∨ Plainly d x := by
  rw [addDomain]
  by_cases hsite : ascii "geosite:" <+: d
  · have hnot : ¬ Plainly d x := by
      rintro (rfl | ⟨-, hmarks⟩)
      · obtain ⟨rest, hrest⟩ := hsite
        cases hrest
      · exact hmarks _ (by simp) hsite
    rw [if_pos hsite, or_iff_left hnot]
  · rw [if_neg hsite]
    by_cases hdomain : ascii "domain:" <+: d
    · have hnot : ¬ Plainly d x := by
        rintro (rfl | ⟨-, hmarks⟩)
        · obtain ⟨rest, hrest⟩ := hdomain
          cases hrest
        · exact hmarks _ (by simp) hdomain
      rw [if_pos hdomain, or_iff_left hnot]
    · rw [if_neg hdomain]
      by_cases hfull : ascii "full:" <+: d
      · have hplain : Plainly d x ↔ d = ascii "full:" ++ x := by
          refine or_iff_left ?_
          rintro ⟨-, hmarks⟩
          exact hmarks _ (by simp) hfull
        rw [if_pos hfull, hplain]
        exact mem_concat_drop hfull
      · have hplain : Plainly d x ↔ x = d := by
          rw [Plainly]
          constructor
          · rintro (rfl | ⟨rfl, -⟩)
            · exact absurd (List.prefix_append _ _) hfull
            · rfl
          · rintro rfl
            exact .inr ⟨rfl, by simp [hsite, hdomain, hfull]⟩
        rw [if_neg hfull, hplain, List.mem_append, List.mem_singleton]

theorem mem_cidrs_addIp (x : Bytes) (r : RuleConfig) (ip : Bytes) :
    x ∈ (r.addIp ip).cidrs ↔ x ∈ r.cidrs ∨ (ip = x ∧ ¬ ascii "geoip:" <+: ip) := by
  rw [addIp]
  by_cases hgeo : ascii "geoip:" <+: ip
  · simp [hgeo]
  · simp [hgeo, eq_comm]

theorem domainSuffix_addIp (r : RuleConfig) (ip : Bytes) :
    (r.addIp ip).domainSuffix = r.domainSuffix := by
  rw [addIp]
  split_ifs
  all_goals rfl

theorem domainExact_addIp (r : RuleConfig) (ip : Bytes) :
    (r.addIp ip).domainExact = r.domainExact := by
  rw [addIp]
  split_ifs
  all_goals rfl

theorem cidrs_addDomain (r : RuleConfig) (d : Bytes) : (r.addDomain d).cidrs = r.cidrs := by
  rw [addDomain]
  split_ifs
  all_goals rfl

theorem inboundTag_addDomain (r : RuleConfig) (d : Bytes) :
    (r.addDomain d).inboundTag = r.inboundTag := by
  rw [addDomain]
  split_ifs
  all_goals rfl

theorem inboundTag_addIp (r : RuleConfig) (ip : Bytes) :
    (r.addIp ip).inboundTag = r.inboundTag := by
  rw [addIp]
  split_ifs
  all_goals rfl

/-- The number of criteria. -/
def size (r : RuleConfig) : Nat :=
  r.domainExact.length + r.domainSuffix.length + r.geosite.length + r.cidrs.length
    + r.geoip.length

theorem size_eq_zero {r : RuleConfig} : r.size = 0 ↔ ¬ r.Lists := by
  simp [size, Lists, List.length_eq_zero_iff, and_assoc]

theorem size_addDomain (r : RuleConfig) (d : Bytes) : (r.addDomain d).size = r.size + 1 := by
  rw [addDomain]
  split_ifs
  all_goals
    simp only [size, List.length_append, List.length_singleton]
    omega

theorem size_addIp (r : RuleConfig) (ip : Bytes) : (r.addIp ip).size = r.size + 1 := by
  rw [addIp]
  split_ifs
  all_goals
    simp only [size, List.length_append, List.length_singleton]
    omega

theorem size_foldl {add : RuleConfig → Bytes → RuleConfig}
    (hadd : ∀ r d, (add r d).size = r.size + 1) (ds : List Bytes) (r : RuleConfig) :
    (ds.foldl add r).size = r.size + ds.length := by
  induction ds generalizing r with
  | nil => rfl
  | cons d ds ih =>
    rw [List.foldl_cons, ih, hadd, List.length_cons]
    omega

end RuleConfig

/-! ## A rule of the document and the rule that is loaded -/

section Rule

variable {n : Yaml} {rc : RuleConfig}

/-- A rule names the domains, suffixes and networks that its node names. -/
theorem parseRule_texts (h : parseRule n = .ok rc) (x : Bytes) :
    (x ∈ rc.domainExact ↔ n.NamesExact x) ∧ (x ∈ rc.domainSuffix ↔ n.NamesSuffix x) ∧
      (x ∈ rc.cidrs ↔ n.NamesCidr x) := by
  obtain ⟨inboundTag, -, h⟩ := bind_eq_ok.mp h
  obtain ⟨domain, hdomain, h⟩ := bind_eq_ok.mp h
  obtain ⟨suffix, hsuffix, h⟩ := bind_eq_ok.mp h
  obtain ⟨ip, hip, h⟩ := bind_eq_ok.mp h
  obtain ⟨cidr, hcidr, h⟩ := bind_eq_ok.mp h
  obtain ⟨geoip, -, h⟩ := bind_eq_ok.mp h
  obtain ⟨geosite, -, h⟩ := bind_eq_ok.mp h
  obtain ⟨outbound, -, h⟩ := bind_eq_ok.mp h
  cases h
  refine ⟨?_, ?_, ?_⟩
  · rw [Yaml.NamesExact, Yaml.lists_iff hdomain, Yaml.lists_iff hdomain,
      RuleConfig.foldl_field RuleConfig.domainExact_addIp,
      RuleConfig.mem_foldl_add (RuleConfig.mem_domainExact_addDomain x)]
    simp only [RuleConfig.Plainly]
    grind
  · rw [Yaml.NamesSuffix, Yaml.lists_iff hsuffix, Yaml.lists_iff hdomain,
      RuleConfig.foldl_field RuleConfig.domainSuffix_addIp, List.mem_append,
      RuleConfig.mem_foldl_iff (RuleConfig.mem_domainSuffix_addDomain x)]
    simp [or_comm]
  · rw [Yaml.NamesCidr, Yaml.lists_iff hcidr, Yaml.lists_iff hip, List.mem_append,
      RuleConfig.mem_foldl_add (RuleConfig.mem_cidrs_addIp x),
      RuleConfig.foldl_field RuleConfig.cidrs_addDomain]
    grind

/-- Every item under the keys of the criteria is one criterion. -/
theorem parseRule_bare (h : parseRule n = .ok rc) : ¬ rc.Lists ↔ n.Bare := by
  obtain ⟨inboundTag, -, h⟩ := bind_eq_ok.mp h
  obtain ⟨domain, hdomain, h⟩ := bind_eq_ok.mp h
  obtain ⟨suffix, hsuffix, h⟩ := bind_eq_ok.mp h
  obtain ⟨ip, hip, h⟩ := bind_eq_ok.mp h
  obtain ⟨cidr, hcidr, h⟩ := bind_eq_ok.mp h
  obtain ⟨geoip, hgeoip, h⟩ := bind_eq_ok.mp h
  obtain ⟨geosite, hgeosite, h⟩ := bind_eq_ok.mp h
  obtain ⟨outbound, -, h⟩ := bind_eq_ok.mp h
  cases h
  have hnamed := RuleConfig.size_foldl RuleConfig.size_addDomain domain
    ⟨inboundTag, [], [], [], [], [], []⟩
  generalize domain.foldl RuleConfig.addDomain ⟨inboundTag, [], [], [], [], [], []⟩ = named
    at hnamed ⊢
  have hread := RuleConfig.size_foldl RuleConfig.size_addIp ip
    { named with domainSuffix := named.domainSuffix ++ suffix }
  generalize ip.foldl RuleConfig.addIp
    { named with domainSuffix := named.domainSuffix ++ suffix } = read at hread ⊢
  rw [← RuleConfig.size_eq_zero]
  simp only [Yaml.Bare, Yaml.criteria, List.forall_mem_cons, ← Yaml.texts_eq_nil_iff hdomain,
    ← Yaml.texts_eq_nil_iff hsuffix, ← Yaml.texts_eq_nil_iff hip, ← Yaml.texts_eq_nil_iff hcidr,
    ← Yaml.texts_eq_nil_iff hgeoip, ← Yaml.texts_eq_nil_iff hgeosite]
  simp only [RuleConfig.size, List.length_append, List.length_nil] at hnamed hread ⊢
  simp only [← List.length_eq_zero_iff, List.not_mem_nil, false_imp_iff, implies_true, and_true]
  omega

theorem parseRule_inbound (h : parseRule n = .ok rc) :
    (∀ tag, rc.inboundTag = some tag ↔ (n.child (ascii "inbound")).asString = .ok tag) ∧
      (rc.inboundTag ≠ none ↔ (n.child (ascii "inbound")).isDefined = true) := by
  obtain ⟨inboundTag, hinbound, h⟩ := bind_eq_ok.mp h
  iterate 7 obtain ⟨_, -, h⟩ := bind_eq_ok.mp h
  have htag : rc.inboundTag = inboundTag := by
    cases h
    rw [RuleConfig.foldl_field RuleConfig.inboundTag_addIp,
      RuleConfig.foldl_field RuleConfig.inboundTag_addDomain]
  rw [htag]
  exact Yaml.parseInboundTag_eq_ok hinbound

theorem parseRule_outbound (h : parseRule n = .ok rc) :
    rc.outboundTag = n.text (ascii "outbound") := by
  iterate 7 obtain ⟨_, -, h⟩ := bind_eq_ok.mp h
  obtain ⟨outbound, houtbound, h⟩ := bind_eq_ok.mp h
  cases h
  exact Yaml.getStr_eq_text houtbound

/-- **A rule is loaded with its meaning.** -/
theorem parseRule_matches {env : RouteEnv} {cfg : RouteConfig} {route : Yaml}
    (hsites : cfg.geositePath = route.text (ascii "geosite_path"))
    (hips : cfg.geoipPath = route.text (ascii "geoip_path")) (h : parseRule n = .ok rc)
    (r : SessionRequest) : rc.Matches env cfg r ↔ n.Matches env route r := by
  obtain ⟨htag, hdefined⟩ := parseRule_inbound h
  have hname : ∀ d, rc.NameSatisfies env cfg d ↔ n.ForName env route d := by
    intro d
    simp only [RuleConfig.NameSatisfies, Yaml.ForName, parseRule_texts h, parseRule_names h,
      hsites]
  have haddr : ∀ addr, rc.AddressSatisfies env cfg addr ↔ n.ForAddress env route addr := by
    intro addr
    simp only [RuleConfig.AddressSatisfies, Yaml.ForAddress, parseRule_texts h,
      parseRule_names h, hips]
  simp only [RuleConfig.Matches, Yaml.Matches, htag, hdefined, parseRule_bare h, hname, haddr]

end Rule

/-! ## The document -/

/-- The first hit in a list, found in a list that it is made from. -/
theorem first_related {α β : Type} {Made : α → β → Prop} {p : α → Prop} {q : β → Prop}
    {as : List α} {before behind : List β} {b : β}
    (h : List.Forall₂ Made as (before ++ b :: behind)) (hpq : ∀ a b, Made a b → (q b ↔ p a))
    (hbefore : ∀ x ∈ before, ¬ q x) :
    ∃ before' a behind', as = before' ++ a :: behind' ∧ (∀ x ∈ before', ¬ p x) ∧ Made a b := by
  induction before generalizing as with
  | nil =>
    obtain ⟨a, as', hab, -, rfl⟩ := List.forall₂_cons_right_iff.mp h
    exact ⟨[], a, as', rfl, by simp, hab⟩
  | cons x before ih =>
    obtain ⟨a, as', hax, has, rfl⟩ := List.forall₂_cons_right_iff.mp h
    obtain ⟨hx, hbefore⟩ := List.forall_mem_cons.mp hbefore
    obtain ⟨before', a', behind', rfl, hnot, hmade⟩ := ih has hbefore
    refine ⟨a :: before', a', behind', rfl, ?_, hmade⟩
    exact List.forall_mem_cons.mpr ⟨fun hp => hx ((hpq a x hax).mpr hp), hnot⟩

section Document

variable {lenv : LoaderEnv} {root : Yaml} {c : Settings}

theorem parseRoute_reads {r : Yaml} {cfg : RouteConfig} (h : parseRoute r = .ok cfg) :
    List.Forall₂ (fun n rc => parseRule n = .ok rc) (r.child (ascii "rules")).items cfg.rules ∧
      cfg.defaultOutbound = r.text (ascii "default") ∧
      cfg.geositePath = r.text (ascii "geosite_path") ∧
      cfg.geoipPath = r.text (ascii "geoip_path") := by
  rw [parseRoute] at h
  cases hdef : r.isDefined with
  | false =>
    obtain rfl := Yaml.eq_undefined hdef
    cases h
    exact ⟨.nil, rfl, rfl, rfl⟩
  | true =>
    rw [hdef] at h
    obtain ⟨geoipPath, hip, h⟩ := bind_eq_ok.mp h
    obtain ⟨geositePath, hsite, h⟩ := bind_eq_ok.mp h
    obtain ⟨rr, hrr, h⟩ := bind_eq_ok.mp h
    obtain ⟨rules, hrules, h⟩ := bind_eq_ok.mp h
    obtain ⟨defaultOutbound, hdefault, h⟩ := bind_eq_ok.mp h
    cases h
    rw [Yaml.child_of_get hrr]
    exact ⟨mapM_eq_ok.mp hrules, Yaml.getStr_eq_text hdefault, Yaml.getStr_eq_text hsite,
      Yaml.getStr_eq_text hip⟩

theorem parseRoot_route (h : parseRoot lenv root = .ok c) :
    parseRoute root.route = .ok c.route ∧ c.config.Valid := by
  -- log, server, metrics, inbounds and outbounds come first
  iterate 13 obtain ⟨_, -, h⟩ := bind_eq_ok.mp h
  obtain ⟨r, hr, h⟩ := bind_eq_ok.mp h
  obtain ⟨route, hroute, h⟩ := bind_eq_ok.mp h
  obtain ⟨_, hvalid, h⟩ := bind_eq_ok.mp h
  cases h
  rw [Yaml.route, Yaml.child_of_get hr]
  exact ⟨hroute, Config.validate_iff.mp (ofStatus_eq_ok.mp hvalid)⟩

theorem parseOutbound_texts {n : Yaml} {o : OutboundSettings} (h : parseOutbound lenv n = .ok o) :
    o.toOutboundConfig = n.outbound := by
  obtain ⟨tag, htag, h⟩ := bind_eq_ok.mp h
  obtain ⟨protocol, hprotocol, h⟩ := bind_eq_ok.mp h
  obtain ⟨server, hserver, h⟩ := bind_eq_ok.mp h
  obtain ⟨password, -, h⟩ := bind_eq_ok.mp h
  obtain ⟨user, huser, h⟩ := bind_eq_ok.mp h
  obtain ⟨pass, hpass, h⟩ := bind_eq_ok.mp h
  iterate 5 obtain ⟨_, -, h⟩ := bind_eq_ok.mp h
  cases h
  rw [Yaml.outbound, ← Yaml.getStr_eq_text htag, ← Yaml.getStr_eq_text hprotocol,
    ← Yaml.getStr_eq_text hserver, ← Yaml.getStr_eq_text huser, ← Yaml.getStr_eq_text hpass]

/-- The outbounds of the configuration are those of the document. -/
theorem parseRoot_outbounds (h : parseRoot lenv root = .ok c) {o : OutboundConfig}
    (ho : o ∈ c.config.outbounds) : ∃ n ∈ root.outbounds, o = n.outbound := by
  obtain ⟨-, outs, houts, hall⟩ := parseRoot_bounds h
  obtain ⟨settings, hsettings, rfl⟩ := List.mem_map.mp ho
  rw [Yaml.outbounds, Yaml.child_of_get houts]
  obtain ⟨n, hn, hparse⟩ := exists_related hall.flip hsettings
  exact ⟨n, hn, parseOutbound_texts hparse⟩

/-- The tag in a rule is that of an outbound, and not empty. -/
theorem rule_outbound_ne (h : parseRoot lenv root = .ok c) {n : Yaml} (hn : n ∈ root.rules) :
    n.text (ascii "outbound") ≠ [] := by
  obtain ⟨hroute, hvalid⟩ := parseRoot_route h
  obtain ⟨rc, hrc, hmade⟩ := exists_related (parseRoute_reads hroute).1 hn
  obtain ⟨o, ho, htag⟩ := List.mem_map.mp (hvalid.rules rc hrc)
  rw [← parseRule_outbound hmade, ← htag]
  exact hvalid.outboundNamed o ho

/-- **The routes are loaded with their meaning.** -/
theorem parseRoot_decides {env : RouteEnv} {r : SessionRequest} {tag : Bytes}
    (h : parseRoot lenv root = .ok c) (hdecides : c.route.Decides env r tag) :
    root.Decides env r tag := by
  obtain ⟨hrules, hdefault, hsites, hips⟩ := parseRoute_reads (parseRoot_route h).1
  have hmeans : ∀ n rc, parseRule n = .ok rc →
      (rc.Matches env c.route r ↔ n.Matches env root.route r) :=
    fun n rc hrc => parseRule_matches hsites hips hrc r
  rcases hdecides with ⟨before, rc, behind, heq, hbefore, hrc, rfl⟩ | ⟨hnone, rfl⟩
  · rw [heq] at hrules
    obtain ⟨before', n, behind', hnodes, hnot, hmade⟩ := first_related hrules hmeans hbefore
    exact .inl ⟨before', n, behind', hnodes, hnot, (hmeans n rc hmade).mp hrc,
      parseRule_outbound hmade⟩
  · refine .inr ⟨fun n hn hmatch => ?_, hdefault⟩
    obtain ⟨rc, hrc, hmade⟩ := exists_related hrules hn
    exact hnone rc hrc ((hmeans n rc hmade).mpr hmatch)

/-- **The running program routes as the document says.** If a document is loaded and the
program starts with it, then every request is handed to the outbound of the document whose tag
is written in the first rule for it, or in the default. A request is dropped exactly if no
rule is for it and there is no default. -/
theorem document_routes (lenv : LoaderEnv) (env : RouteEnv) (A : Asio)
    (links : OutboundConfig → ShineOutbound) (content : Bytes) (c : Settings) (d : Dispatcher)
    (hload : loadFromString lenv content = .ok c) (hstart : Main.start env A links c.config = .ok d)
    (req : SessionRequest) :
    ∃ root, lenv.load content = .ok root ∧ root.Decides env req (d.pick req) ∧
      (d.pick req ≠ [] → ∃ n ∈ root.outbounds, ∃ ob,
        n.text (ascii "tag") = d.pick req ∧ makeOutbound links n.outbound = .ok ob ∧
          ∀ sid, d.dispatch sid req = (do let _ ← ob.handle A sid req; return ())) ∧
      (d.pick req = [] ↔ (∀ n ∈ root.rules, ¬ n.Matches env root.route req) ∧
        root.route.text (ascii "default") = []) := by
  obtain ⟨root, hroot, hparse⟩ := loadFromString_eq_ok.mp hload
  have hvalid := (parseRoot_route hparse).2
  have hdecides : c.config.route.Decides env req (d.pick req) := Main.start_decides hstart req
  have hdocument := parseRoot_decides hparse hdecides
  have hmem : ∀ {before n behind}, root.rules = before ++ n :: behind → n ∈ root.rules :=
    fun hrules => hrules ▸ List.mem_append_right _ List.mem_cons_self
  refine ⟨root, hroot, hdocument, fun hne => ?_, ?_, ?_⟩
  · obtain ⟨o, ho, htag⟩ := Main.pick_mem hvalid hdecides hne
    obtain ⟨ob, hob, hlookup⟩ := Main.start_outbounds hstart hvalid ho
    obtain ⟨n, hn, rfl⟩ := parseRoot_outbounds hparse ho
    have hasio : d.asio = A := by
      obtain ⟨outbounds, router, -, -, rfl⟩ := Main.start_eq_ok hstart
      rfl
    refine ⟨n, hn, ob, htag, hob, fun sid => ?_⟩
    rw [htag] at hlookup
    rw [Dispatcher.dispatch, if_neg hne]
    simp only [hlookup, hasio]
  · intro hnil
    rcases hdocument with ⟨before, n, behind, hrules, -, -, htag⟩ | ⟨hnone, htag⟩
    · exact absurd (htag.symm.trans hnil) (rule_outbound_ne hparse (hmem hrules))
    · exact ⟨hnone, htag.symm.trans hnil⟩
  · rintro ⟨hnone, hdefault⟩
    rcases hdocument with ⟨before, n, behind, hrules, -, hn, -⟩ | ⟨-, htag⟩
    · exact absurd hn (hnone n (hmem hrules))
    · exact htag.trans hdefault

end Document

/-- A map with texts as keys. -/
def Yaml.ofEntries (entries : List (String × Yaml)) : Yaml :=
  .map (entries.map fun e => (.scalar (ascii e.1), e.2))

/-- A node with a text. -/
def Yaml.ofText (s : String) : Yaml := .scalar (ascii s)

/-- A document whose rule gives its domain as a text, not as a sequence. -/
def scalarRule : Yaml := .ofEntries [
  ("inbounds", .sequence [.ofEntries [("tag", .ofText "in"), ("listen", .ofText ":1080")]]),
  ("outbounds", .sequence [
    .ofEntries [("tag", .ofText "direct"), ("protocol", .ofText "direct")],
    .ofEntries [("tag", .ofText "deny"), ("protocol", .ofText "block")]]),
  ("route", .ofEntries [
    ("rules", .sequence [.ofEntries [("inbound", .ofText "in"),
      ("domain", .ofText "full:ads.example"), ("outbound", .ofText "deny")]]),
    ("default", .ofText "direct")])]

/-- The rule is for every request from `in`: one for another name is denied as well. -/
theorem document_routes_scalar_rule :
    ∃ c d, loadFromString (.constant scalarRule) [] = .ok c ∧
      Main.start Main.sampleEnv (.sample (.error []) (.error []) (.error [])) (fun _ => ⟨false, none⟩) c.config = .ok d ∧
      scalarRule.Decides Main.sampleEnv Main.sampleReq (d.pick Main.sampleReq) ∧
      d.pick Main.sampleReq = ascii "deny" := by
  refine ⟨_, _, rfl, rfl, ?_, rfl⟩
  obtain ⟨root, hroot, hdecides, -⟩ := document_routes (.constant scalarRule) Main.sampleEnv
    (.sample (.error []) (.error []) (.error [])) (fun _ => ⟨false, none⟩) [] _ _ rfl rfl Main.sampleReq
  obtain rfl := Except.ok.inj hroot
  exact hdecides

end Shine
