import Shine.Core.Common

/-!
# The configuration (`config/schema.hpp`, `Config::validate`)

The parts of the configuration that decide where a request goes. `validate` is a pass over
them with two sets of tags; `validate_iff` says what it accepts.
-/

namespace Shine

/-- `InboundConfig`. -/
structure InboundConfig where
  tag : Bytes
  protocol : Bytes
  listen : Bytes
  user : Bytes
  pass : Bytes
  deriving DecidableEq

/-- `OutboundConfig`. -/
structure OutboundConfig where
  tag : Bytes
  protocol : Bytes
  server : Bytes
  user : Bytes
  pass : Bytes
  deriving DecidableEq

/-- `RuleConfig`. -/
structure RuleConfig where
  inboundTag : Option Bytes
  domainExact : List Bytes
  domainSuffix : List Bytes
  cidrs : List Bytes
  geoip : List Bytes
  geosite : List Bytes
  outboundTag : Bytes
  deriving DecidableEq

/-- `RouteConfig`. -/
structure RouteConfig where
  geoipPath : Bytes
  geositePath : Bytes
  rules : List RuleConfig
  defaultOutbound : Bytes
  deriving DecidableEq

/-- `Config`. -/
structure Config where
  inbounds : List InboundConfig
  outbounds : List OutboundConfig
  route : RouteConfig
  deriving DecidableEq

namespace Config

/-- The loop over the inbounds; `tags` has been seen. -/
def validateInbounds (tags : Finset Bytes) : List InboundConfig → StatusOr Unit
  | [] => .ok ()
  | i :: rest =>
    if i.tag = [] then .error (.invalidArgument (ascii "inbound tag empty"))
    else if ascii "in:" ++ i.tag ∈ tags then
      .error (.invalidArgument (ascii "duplicate inbound tag: " ++ i.tag))
    else if i.listen = [] then
      .error (.invalidArgument (ascii "inbound " ++ i.tag ++ ascii " missing listen"))
    else validateInbounds (insert (ascii "in:" ++ i.tag) tags) rest

/-- The loop over the outbounds, with `out_tags` and `has_direct`. -/
def validateOutbounds (outTags : Finset Bytes) (hasDirect : Bool) :
    List OutboundConfig → StatusOr (Finset Bytes × Bool)
  | [] => .ok (outTags, hasDirect)
  | o :: rest =>
    if o.tag = [] then .error (.invalidArgument (ascii "outbound tag empty"))
    else if o.tag ∈ outTags then
      .error (.invalidArgument (ascii "duplicate outbound tag: " ++ o.tag))
    else
      validateOutbounds (insert o.tag outTags) (hasDirect || o.protocol = ascii "direct") rest

/-- The loop over the rules. -/
def validateRules (outTags : Finset Bytes) : List RuleConfig → StatusOr Unit
  | [] => .ok ()
  | r :: rest =>
    if r.outboundTag ∉ outTags then
      .error (.invalidArgument (ascii "rule outbound not found: " ++ r.outboundTag))
    else validateRules outTags rest

/-- `Config::validate`. -/
def validate (c : Config) : StatusOr Unit := do
  validateInbounds ∅ c.inbounds
  if c.inbounds = [] then .error (.invalidArgument (ascii "no inbounds configured"))
  else do
    let (outTags, hasDirect) ← validateOutbounds ∅ false c.outbounds
    if hasDirect = false then
      .error (.invalidArgument (ascii "at least one direct outbound is required"))
    else if c.route.defaultOutbound ≠ [] ∧ c.route.defaultOutbound ∉ outTags then
      .error (.invalidArgument (ascii "default outbound not found: " ++ c.route.defaultOutbound))
    else validateRules outTags c.route.rules

/-! ## What is accepted -/

/-- What a configuration must be like. -/
structure Valid (c : Config) : Prop where
  inbounds : c.inbounds ≠ []
  inboundNamed : ∀ i ∈ c.inbounds, i.tag ≠ [] ∧ i.listen ≠ []
  inboundTags : (c.inbounds.map (·.tag)).Nodup
  outboundNamed : ∀ o ∈ c.outbounds, o.tag ≠ []
  outboundTags : (c.outbounds.map (·.tag)).Nodup
  direct : ∃ o ∈ c.outbounds, o.protocol = ascii "direct"
  default_ : c.route.defaultOutbound ≠ [] → c.route.defaultOutbound ∈ c.outbounds.map (·.tag)
  rules : ∀ r ∈ c.route.rules, r.outboundTag ∈ c.outbounds.map (·.tag)

theorem validateInbounds_iff {tags : Finset Bytes} (is : List InboundConfig) :
    validateInbounds tags is = .ok ()
      ↔ (∀ i ∈ is, i.tag ≠ [] ∧ i.listen ≠ []) ∧ (is.map (·.tag)).Nodup ∧
        ∀ i ∈ is, ascii "in:" ++ i.tag ∉ tags := by
  induction is generalizing tags with
  | nil => simp [validateInbounds]
  | cons i rest ih =>
    rw [validateInbounds]
    split_ifs with htag hseen hlisten
    · simp [htag]
    · simp [hseen]
    · simp [hlisten]
    · rw [ih]
      simp only [List.mem_cons, forall_eq_or_imp, List.map_cons, List.nodup_cons, List.mem_map,
        Finset.mem_insert, not_or, not_exists, not_and, List.append_cancel_left_eq]
      grind

theorem validateOutbounds_iff {outTags tags : Finset Bytes} {hasDirect direct : Bool}
    (os : List OutboundConfig) :
    validateOutbounds outTags hasDirect os = .ok (tags, direct)
      ↔ (∀ o ∈ os, o.tag ≠ []) ∧ (os.map (·.tag)).Nodup ∧ (∀ o ∈ os, o.tag ∉ outTags) ∧
        tags = outTags ∪ (os.map (·.tag)).toFinset ∧
        direct = (hasDirect || os.any (·.protocol = ascii "direct")) := by
  induction os generalizing outTags hasDirect with
  | nil => simp [validateOutbounds, eq_comm]
  | cons o rest ih =>
    rw [validateOutbounds]
    split_ifs with htag hseen
    · simp [htag]
    · simp [hseen]
    · rw [ih]
      simp only [List.mem_cons, forall_eq_or_imp, List.map_cons, List.nodup_cons, List.mem_map,
        Finset.mem_insert, not_or, not_exists, not_and, List.toFinset_cons, List.any_cons,
        Finset.insert_union, Finset.union_insert, Bool.or_assoc]
      grind

theorem validateRules_iff {outTags : Finset Bytes} (rs : List RuleConfig) :
    validateRules outTags rs = .ok () ↔ ∀ r ∈ rs, r.outboundTag ∈ outTags := by
  induction rs with
  | nil => simp [validateRules]
  | cons r rest ih =>
    rw [validateRules]
    by_cases hseen : r.outboundTag ∈ outTags
    · rw [if_neg (not_not.mpr hseen), ih]
      simp [hseen]
    · rw [if_pos hseen]
      simp [hseen]

/-- **`validate` accepts the valid configurations.** -/
theorem validate_iff {c : Config} : c.validate = .ok () ↔ c.Valid := by
  have hmem (tag : Bytes) :
      tag ∈ ∅ ∪ (c.outbounds.map (·.tag)).toFinset ↔ tag ∈ c.outbounds.map (·.tag) := by
    rw [Finset.empty_union, List.mem_toFinset]
  rw [validate, bind_eq_ok]
  constructor
  · rintro ⟨⟨⟩, hins, h⟩
    split_ifs at h with hnone
    obtain ⟨⟨outTags, hasDirect⟩, houts, h⟩ := bind_eq_ok.mp h
    obtain ⟨hnamed, hnodup, -, rfl, rfl⟩ := (validateOutbounds_iff _).mp houts
    obtain ⟨hinNamed, hinNodup, -⟩ := (validateInbounds_iff _).mp hins
    dsimp only at h
    split_ifs at h with hdirect hdefault
    refine ⟨hnone, hinNamed, hinNodup, hnamed, hnodup, ?_, fun hne => ?_, fun r hr => ?_⟩
    · simpa using hdirect
    · by_contra hnot
      exact hdefault ⟨hne, fun hin => hnot ((hmem _).mp hin)⟩
    · exact (hmem _).mp ((validateRules_iff _).mp h r hr)
  · intro hv
    refine ⟨(), (validateInbounds_iff _).mpr ⟨hv.inboundNamed, hv.inboundTags, by simp⟩, ?_⟩
    rw [if_neg hv.inbounds, bind_eq_ok]
    refine ⟨(_, _), (validateOutbounds_iff _).mpr
      ⟨hv.outboundNamed, hv.outboundTags, by simp, rfl, rfl⟩, ?_⟩
    have hdirect : (false || c.outbounds.any (·.protocol = ascii "direct")) ≠ false := by
      simpa using hv.direct
    have hdefault : ¬ (c.route.defaultOutbound ≠ [] ∧
        c.route.defaultOutbound ∉ ∅ ∪ (c.outbounds.map (·.tag)).toFinset) := by
      rintro ⟨hne, hnot⟩
      exact hnot ((hmem _).mpr (hv.default_ hne))
    dsimp only
    rw [if_neg hdirect, if_neg hdefault, validateRules_iff]
    exact fun r hr => (hmem _).mpr (hv.rules r hr)

end Config

end Shine
