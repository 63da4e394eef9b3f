import Shine.Outbound.Handle
import Shine.Route.Router

/-!
# Starting up (`main.cpp`, `outbound/factory.cpp`)

From a configuration that has been validated, `main` makes the outbounds and the router
and passes both to every inbound. A request is dispatched to the outbound whose tag the
router picks.
-/

namespace Shine

/-- What a proxy outbound takes from its configuration. -/
def OutboundConfig.proxy (cfg : OutboundConfig) : ProxyConfig := ⟨cfg.server, cfg.user, cfg.pass⟩

/-- `makeOutbound`. What the pool of a shine outbound holds at a request is given by `links`. -/
def makeOutbound (links : OutboundConfig → ShineOutbound) (cfg : OutboundConfig) :
    StatusOr Outbound :=
  if cfg.protocol = ascii "direct" then .ok .direct
  else if cfg.protocol = ascii "block" then .ok .block
  else if cfg.protocol = ascii "shine-client" then .ok (.shine (links cfg))
  else if cfg.protocol = ascii "socks5" then .ok (.socks5 cfg.proxy)
  else if cfg.protocol = ascii "http-connect" then .ok (.httpConnect cfg.proxy)
  else .error (.invalidArgument (ascii "unknown outbound protocol: " ++ cfg.protocol))

namespace Main

/-- `outbounds->emplace`; a tag that is there keeps its outbound. -/
def emplace (m : Bytes → Option Outbound) (tag : Bytes) (ob : Outbound) : Bytes → Option Outbound :=
  Function.update m tag ((m tag).or (some ob))

/-- The loop that makes the outbounds. -/
def makeOutbounds (links : OutboundConfig → ShineOutbound) (m : Bytes → Option Outbound) :
    List OutboundConfig → StatusOr (Bytes → Option Outbound)
  | [] => .ok m
  | oc :: rest => do
    let ob ← makeOutbound links oc
    makeOutbounds links (emplace m oc.tag ob) rest

/-- What `main` passes to the inbounds: the router and the outbounds. -/
def start (env : RouteEnv) (A : Asio) (links : OutboundConfig → ShineOutbound) (cfg : Config) :
    StatusOr Dispatcher := do
  let outbounds ← makeOutbounds links (fun _ => none) cfg.outbounds
  let router ← Router.compile env cfg.route
  return ⟨A, router.pick, outbounds⟩

section Outbounds

variable {links : OutboundConfig → ShineOutbound} {m m' : Bytes → Option Outbound}

/-- What is in the table stays there. -/
theorem makeOutbounds_keeps {os : List OutboundConfig} (h : makeOutbounds links m os = .ok m')
    {tag : Bytes} {ob : Outbound} (htag : m tag = some ob) : m' tag = some ob := by
  induction os generalizing m with
  | nil =>
    obtain rfl := Except.ok.inj h
    exact htag
  | cons o os ih =>
    obtain ⟨ob', -, hrest⟩ := bind_eq_ok.mp h
    refine ih hrest ?_
    by_cases heq : tag = o.tag
    · subst heq
      simp [emplace, htag]
    · rwa [emplace, Function.update_of_ne heq]

/-- Outbounds with different tags all get into the table. -/
theorem lookup_makeOutbounds {os : List OutboundConfig} (h : makeOutbounds links m os = .ok m')
    (hnodup : (os.map (·.tag)).Nodup) (hfresh : ∀ o ∈ os, m o.tag = none)
    {o : OutboundConfig} (ho : o ∈ os) :
    ∃ ob, makeOutbound links o = .ok ob ∧ m' o.tag = some ob := by
  induction os generalizing m with
  | nil => cases ho
  | cons o' os ih =>
    obtain ⟨ob', hob', hrest⟩ := bind_eq_ok.mp h
    obtain ⟨hnew, hnodup⟩ := List.nodup_cons.mp hnodup
    rcases List.mem_cons.mp ho with rfl | ho
    · refine ⟨ob', hob', makeOutbounds_keeps hrest ?_⟩
      simp [emplace, hfresh o List.mem_cons_self]
    · refine ih hrest hnodup (fun o ho => ?_) ho
      have hne : o.tag ≠ o'.tag := fun heq => hnew (List.mem_map.mpr ⟨o, ho, heq⟩)
      rw [emplace, Function.update_of_ne hne]
      exact hfresh o (List.mem_cons_of_mem _ ho)

end Outbounds

theorem start_eq_ok {env : RouteEnv} {A : Asio} {links : OutboundConfig → ShineOutbound}
    {cfg : Config} {d : Dispatcher} (h : start env A links cfg = .ok d) :
    ∃ outbounds router, makeOutbounds links (fun _ => none) cfg.outbounds = .ok outbounds ∧
      Router.compile env cfg.route = .ok router ∧ d = ⟨A, router.pick, outbounds⟩ := by
  obtain ⟨outbounds, houts, hrest⟩ := bind_eq_ok.mp h
  obtain ⟨router, hrouter, heq⟩ := bind_eq_ok.mp hrest
  exact ⟨outbounds, router, houts, hrouter, (Except.ok.inj heq).symm⟩

/-- Every outbound of the configuration can be found under its tag. -/
theorem start_outbounds {env : RouteEnv} {A : Asio} {links : OutboundConfig → ShineOutbound}
    {cfg : Config} {d : Dispatcher} (h : start env A links cfg = .ok d) (hvalid : cfg.Valid)
    {o : OutboundConfig} (ho : o ∈ cfg.outbounds) :
    ∃ ob, makeOutbound links o = .ok ob ∧ d.outbounds o.tag = some ob := by
  obtain ⟨outbounds, router, houts, -, rfl⟩ := start_eq_ok h
  exact lookup_makeOutbounds houts hvalid.outboundTags (fun _ _ => rfl) ho

/-- The tag that is picked is the one that the routes decide on. -/
theorem start_decides {env : RouteEnv} {A : Asio} {links : OutboundConfig → ShineOutbound}
    {cfg : Config} {d : Dispatcher} (h : start env A links cfg = .ok d) (req : SessionRequest) :
    cfg.route.Decides env req (d.pick req) := by
  obtain ⟨outbounds, router, -, hrouter, rfl⟩ := start_eq_ok h
  exact Router.pick_decides (Router.of_compile hrouter) req

/-- What is picked is the tag of an outbound, if it is anything. -/
theorem pick_mem {env : RouteEnv} {cfg : Config} (hvalid : cfg.Valid) {req : SessionRequest}
    {tag : Bytes} (hdecides : cfg.route.Decides env req tag) (hne : tag ≠ []) :
    ∃ o ∈ cfg.outbounds, o.tag = tag := by
  apply List.mem_map.mp
  rcases hdecides with ⟨before, rc, behind, hrules, -, -, rfl⟩ | ⟨-, rfl⟩
  · refine hvalid.rules rc ?_
    rw [hrules]
    exact List.mem_append_right _ List.mem_cons_self
  · exact hvalid.default_ hne

/-- **The tag that is picked is that of the first rule that matches, or the default, and it
leads to an outbound.** -/
theorem routing_decision (env : RouteEnv) (cfg : Config) (hvalid : cfg.validate = .ok ())
    (router : Router env.regex) (hcompile : Router.compile env cfg.route = .ok router)
    (req : SessionRequest) :
    cfg.route.Decides env req (router.pick req) ∧
      (router.pick req ≠ [] → ∃ o ∈ cfg.outbounds, o.tag = router.pick req) ∧
      ∀ A links d, start env A links cfg = .ok d → d.pick req ≠ [] →
        ∃ ob, d.outbounds (d.pick req) = some ob ∧
          ∀ sid, d.dispatch sid req = (do let _ ← ob.handle A sid req; return ()) := by
  have hdecides := Router.pick_decides (Router.of_compile hcompile) req
  have hmem := pick_mem (Config.validate_iff.mp hvalid) hdecides
  refine ⟨hdecides, hmem, fun A links d hstart hne => ?_⟩
  have htag : d.pick req = router.pick req := (start_decides hstart req).unique hdecides
  obtain ⟨o, ho, ho_tag⟩ := hmem (htag ▸ hne)
  obtain ⟨ob, -, hob⟩ := start_outbounds hstart (Config.validate_iff.mp hvalid) ho
  rw [ho_tag, ← htag] at hob
  have hasio : d.asio = A := by
    obtain ⟨outbounds, router', -, -, rfl⟩ := start_eq_ok hstart
    rfl
  refine ⟨ob, hob, fun sid => ?_⟩
  rw [Dispatcher.dispatch, if_neg hne]
  simp only [hob, hasio]

/-- An environment without geo files, in which a regular expression is a plain text. -/
def sampleEnv : RouteEnv where
  makeAddress s := if s = ascii "10.0.0.0" then some (.v4 ⟨[10, 0, 0, 0], rfl⟩) else none
  regex := ⟨Bytes, some, fun d r => r <:+: d⟩
  sort := .stable
  readFile _ := none
  parseGeoSiteList _ := none
  parseGeoIPList _ := none

/-- Names under `.cn` and one network go out directly, the rest through a proxy. -/
def sampleConfig : Config where
  inbounds := [⟨ascii "in", ascii "socks5", ascii ":1080", [], []⟩]
  outbounds := [⟨ascii "direct", ascii "direct", [], [], []⟩,
    ⟨ascii "us", ascii "socks5", ascii "1.2.3.4:80", [], []⟩]
  route := {
    geoipPath := []
    geositePath := []
    rules := [⟨none, [], [ascii ".cn"], [ascii "10.0.0.0/8"], [], [], ascii "direct"⟩]
    defaultOutbound := ascii "us" }

/-- A request for a name under `.cn`. -/
def sampleReq : SessionRequest :=
  ⟨ascii "in", ascii "socks5", .tcp, .domain (ascii "weibo.cn") 80, true, false⟩

theorem routing_decision_weibo :
    ∃ router, sampleConfig.validate = .ok () ∧
      Router.compile sampleEnv sampleConfig.route = .ok router ∧
      sampleConfig.route.Decides sampleEnv sampleReq (router.pick sampleReq) ∧
      router.pick sampleReq = ascii "direct" :=
  ⟨_, by decide, rfl,
    (routing_decision sampleEnv sampleConfig (by decide) _ rfl sampleReq).1, by decide⟩

end Main

end Shine
