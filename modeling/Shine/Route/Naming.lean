import Shine.Inbound.Requests
import Shine.Main

/-!
# One destination, two inbounds

An HTTP client names its destination as `host:port`, and the inbound turns a dotted quad
into an IPv4 address (`Address::parseHostPort`). A SOCKS5 client can send the same text as a
domain name, and it stays one. The rules treat addresses and names by disjoint criteria, so
that the two requests are routed alike only where the text is no dotted quad
(`routed_alike_iff`).
-/

namespace Shine

/-- Four integers from 0 to 255, separated by dots, as `absl::SimpleAtoi` reads them. -/
def DottedQuad (host : Bytes) : Prop :=
  ∃ parts : List Bytes, host = [46].intercalate parts ∧ parts.length = 4 ∧
    ∀ part ∈ parts, 46 ∉ part ∧ ∃ v, Address.atoiInt part = some v ∧ 0 ≤ v ∧ v ≤ 255

namespace Address

theorem parseOctet_isSome {part : Bytes} :
    (parseOctet part).isSome = true ↔ ∃ v, atoiInt part = some v ∧ 0 ≤ v ∧ v ≤ 255 := by
  rw [parseOctet]
  cases atoiInt part with
  | none => simp
  | some v =>
    by_cases hv : v < 0 ∨ v > 255
    · simp only [if_pos hv]
      simp
      omega
    · simp only [if_neg hv]
      simp
      omega

theorem parseIPv4_isSome_iff_split {host : Bytes} :
    (parseIPv4 host).isSome = true ↔ (host.splitOn 46).length = 4 ∧
      ∀ part ∈ host.splitOn 46, (parseOctet part).isSome = true := by
  rw [parseIPv4]
  split
  · next a b c d hsplit =>
    rw [hsplit]
    cases ha : parseOctet a <;> cases hb : parseOctet b <;> cases hc : parseOctet c <;>
      cases hd : parseOctet d <;> simp [ha, hb, hc, hd]
  · next hother =>
    refine iff_of_false Bool.false_ne_true ?_
    rintro ⟨hlen, -⟩
    obtain ⟨a, b, c, d, hsplit⟩ := List.length_eq_four.mp hlen
    exact hother a b c d hsplit

/-- `parseIPv4` reads the dotted quads. -/
theorem parseIPv4_isSome {host : Bytes} : (parseIPv4 host).isSome = true ↔ DottedQuad host := by
  simp only [parseIPv4_isSome_iff_split, parseOctet_isSome, DottedQuad]
  constructor
  · rintro ⟨hlen, hparts⟩
    refine ⟨host.splitOn 46, (List.intercalate_splitOn 46).symm, hlen, fun part hpart => ?_⟩
    exact ⟨fun hdot => (mem_of_mem_splitOn hpart 46 hdot).1 rfl, hparts part hpart⟩
  · rintro ⟨parts, rfl, hlen, hparts⟩
    have hne : parts ≠ [] := by
      rintro rfl
      cases hlen
    rw [List.splitOn_intercalate 46 (fun part hpart => (hparts part hpart).1) hne]
    exact ⟨hlen, fun part hpart => (hparts part hpart).2⟩

end Address

/-! ## The two targets -/

/-- The router sees the inbound tag and the target of a request. -/
theorem Router.pick_congr {R : StdRegex} (router : Router R) {r r' : SessionRequest}
    (htag : r.inboundTag = r'.inboundTag) (htarget : r.target = r'.target) :
    router.pick r = router.pick r' := by
  simp only [Router.pick, CompiledRule.matches_, htag, htarget]

/-- An HTTP client that asks for `h:p` and a SOCKS5 client that asks for the domain name `h`
and port `p` are given targets that every router treats alike. -/
def RoutedAlike (A : Asio) (h : Bytes) (p : UInt16) : Prop :=
  ∃ http socks,
    Address.parseHostPort A (h ++ 58 :: strDec p.toNat) = .ok http ∧
    (∀ localEp rest, (Socks5Inbound.request localEp).feed
      ([5, 1, 0, 3, h.length.toUInt8] ++ h ++ Address.portBytes p ++ rest)
        = some (some (.connect socks), rest)) ∧
    ∀ env cfg router, Router.compile env cfg = .ok router →
      ∀ tag protocol protocol',
        router.pick (HttpConnectInbound.sessionRequest tag protocol http)
          = router.pick (Socks5Inbound.tcpRequest tag protocol' socks)

/-- The target of the SOCKS5 client. -/
theorem request_domain {h : Bytes} (hlen : h.length ≤ 255) (p : UInt16)
    (localEp : Except Bytes (ByteArrayN 4 × UInt16)) (rest : Bytes) :
    (Socks5Inbound.request localEp).feed
      ([5, 1, 0, 3, h.length.toUInt8] ++ h ++ Address.portBytes p ++ rest)
        = some (some (.connect (.domain h p)), rest) := by
  refine Socks5.request_feed_iff.mpr ⟨_, ⟨0, _, ⟨hlen, rfl⟩, rfl⟩, ?_⟩
  simp

/-- A route for one name. -/
def routeByName (h : Bytes) : RouteConfig where
  geoipPath := []
  geositePath := []
  rules := [⟨none, [h], [], [], [], [], ascii "block"⟩]
  defaultOutbound := ascii "direct"

/-- It tells the name from an address. -/
theorem routeByName_tells (h : Bytes) (bytes : ByteArrayN 4) (p : UInt16) :
    ∃ router, Router.compile Main.sampleEnv (routeByName h) = .ok router ∧
      router.pick (HttpConnectInbound.sessionRequest [] [] (.ipv4 bytes p)) = ascii "direct" ∧
      router.pick (Socks5Inbound.tcpRequest [] [] (.domain h p)) = ascii "block" := by
  refine ⟨_, rfl, ?_, ?_⟩
  · simp [Router.pick, CompiledRule.matches_, CompiledRule.listsNames, CompiledRule.listsAddresses,
      CompiledRule.matchesName, HttpConnectInbound.sessionRequest, routeByName]
  · simp [Router.pick, CompiledRule.matches_, CompiledRule.listsNames, CompiledRule.listsAddresses,
      CompiledRule.matchesName, Socks5Inbound.tcpRequest]

theorem not_routedAlike {A : Asio} {h : Bytes} {p : UInt16} (hlen : h.length ≤ 255)
    (hbracket : h.head? ≠ some 91) (hp : p ≠ 0) (hquad : DottedQuad h) : ¬ RoutedAlike A h p := by
  rintro ⟨http, socks, hhttp, hsocks, hpick⟩
  obtain ⟨bytes, hbytes⟩ := Option.isSome_iff_exists.mp (Address.parseIPv4_isSome.mpr hquad)
  -- one target is an address, the other one a name
  rw [Address.parseHostPort_host A hbracket hp, hbytes] at hhttp
  obtain rfl := Except.ok.inj hhttp
  have hdomain := (hsocks (.error []) []).symm.trans (request_domain hlen p (.error []) [])
  simp only [Option.some.injEq, Prod.mk.injEq, Socks5Inbound.Granted.connect.injEq, and_true]
    at hdomain
  subst hdomain
  obtain ⟨router, hcompile, hdirect, hblock⟩ := routeByName_tells h bytes p
  have hsame := hpick Main.sampleEnv (routeByName h) router hcompile [] [] []
  rw [hdirect, hblock] at hsame
  exact absurd hsame (by decide)

/-- **A destination is routed alike for both kinds of clients exactly if its text is no
dotted quad.** -/
theorem routed_alike_iff (A : Asio) (h : Bytes) (p : UInt16)
    (hlen : 1 ≤ h.length ∧ h.length ≤ 255) (hbytes : 58 ∉ h ∧ 91 ∉ h ∧ 32 ∉ h) (hp : p ≠ 0) :
    RoutedAlike A h p ↔ ¬ DottedQuad h := by
  have hbracket : h.head? ≠ some 91 := fun hhead => hbytes.2.1 (List.mem_of_head? hhead)
  constructor
  · intro halike hquad
    exact not_routedAlike hlen.2 hbracket hp hquad halike
  · intro hquad
    have hnone : Address.parseIPv4 h = none := by
      rw [← Option.not_isSome_iff_eq_none, Address.parseIPv4_isSome]
      exact hquad
    refine ⟨.domain h p, .domain h p, ?_, request_domain hlen.2 p,
      fun env cfg router _ tag _ _ => ?_⟩
    · rw [Address.parseHostPort_host A hbracket hp, hnone]
    · exact router.pick_congr rfl rfl

theorem routed_alike_iff_weibo : RoutedAlike Asio.unary (ascii "weibo.cn") 80 := by
  refine (routed_alike_iff Asio.unary (ascii "weibo.cn") 80 (by decide) (by decide)
    (by decide)).mpr ?_
  rw [← Address.parseIPv4_isSome]
  decide

/-- A rule for the name is not applied to an HTTP client that asks for it. -/
theorem routed_alike_fails_on_dotted_quad :
    ¬ ∀ (A : Asio) (h : Bytes) (p : UInt16), 1 ≤ h.length ∧ h.length ≤ 255 →
      58 ∉ h ∧ 91 ∉ h ∧ 32 ∉ h → p ≠ 0 → RoutedAlike A h p := by
  intro hall
  refine not_routedAlike (h := ascii "1.2.3.4") (by decide) (by decide) (by decide) ?_
    (hall Asio.unary (ascii "1.2.3.4") 80 (by decide) (by decide) (by decide))
  rw [← Address.parseIPv4_isSome]
  decide

end Shine
