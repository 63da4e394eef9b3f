import Shine.Transport.Endpoint

/-!
# Addresses survive their text form (`transport/address.cpp`)

`Address::toString` renders a target without escaping anything and `parseHostPort` reads
such a text. `parseHostPort_toText` says for which addresses the second undoes the first,
and `parseHostPort_eq_ok` that it yields no other ones; so a text that has been read, and is
written and read once more, gives the same address (`parseHostPort_normalises`).
-/

namespace Shine

/-- What is documented of the texts that the libraries produce: an IPv6 address is read
back and is written with hexadecimal digits, colons and dots, and Base64 has its own
alphabet. -/
structure Asio.Texts (A : Asio) : Prop where
  makeAddressV6 (bytes : ByteArrayN 16) :
    A.makeAddressV6 (A.addressV6ToString bytes) = some bytes
  addressV6ToString (bytes : ByteArrayN 16) (b : UInt8) (h : b ∈ A.addressV6ToString bytes) :
    b ∈ ascii "0123456789abcdef:."
  base64Escape (s : Bytes) (b : UInt8) (h : b ∈ A.base64Escape s) :
    b ∈ ascii "ABCDEFGHIJKLMNOPQRSTUVWXYZabcdefghijklmnopqrstuvwxyz0123456789+/="

/-- Of these, what the text of an address needs: `make_address_v6` undoes `to_string`, which
writes no bracket. -/
structure Asio.V6Texts (A : Asio) : Prop where
  makeAddressV6 (bytes : ByteArrayN 16) :
    A.makeAddressV6 (A.addressV6ToString bytes) = some bytes
  bracket (bytes : ByteArrayN 16) : 93 ∉ A.addressV6ToString bytes

theorem Asio.Texts.v6 {A : Asio} (hA : A.Texts) : A.V6Texts where
  makeAddressV6 := hA.makeAddressV6
  bracket bytes h := absurd (hA.addressV6ToString bytes 93 h) (by decide)

namespace Address

/-- The port of an address. -/
def port : Address → UInt16
  | .ipv4 _ port => port
  | .ipv6 _ port => port
  | .domain _ port => port

/-- `parseHostPort` takes the name of the address for a domain name, and its port. -/
def Textual (a : Address) : Prop :=
  a.port ≠ 0 ∧ ∀ name port, a = .domain name port →
    name.head? ≠ some 91 ∧ parseIPv4 name = none

/-! ## Ports and dotted quads -/

theorem atoiInt_strDec {n : Nat} (h : n < 2 ^ 31) : atoiInt (strDec n) = some (n : Int) := by
  rw [atoiInt, simpleAtoi_strDec, if_pos (by omega)]

theorem not_mem_strDec {n : Nat} {b : UInt8} (h : isDigit b = false) : b ∉ strDec n := by
  intro hb
  rw [isDigit_of_mem_strDec hb] at h
  cases h

theorem parsePort_strDec {port : UInt16} (h : port ≠ 0) :
    parsePort (strDec port.toNat) = .ok port := by
  have hlt : port.toNat < 65536 := port.toNat_lt
  have hpos : port.toNat ≠ 0 := fun h0 => h (UInt16.toNat_inj.mp h0)
  rw [parsePort, atoiInt_strDec (by omega)]
  simp only
  rw [if_neg (by omega), Int.toNat_natCast, Nat.toUInt16, UInt16.ofNat_toNat]

/-- A port that is read is not zero. -/
theorem parsePort_ne_zero {s : Bytes} {port : UInt16} (h : parsePort s = .ok port) :
    port ≠ 0 := by
  rw [parsePort] at h
  split at h
  · next v _ =>
    split at h
    · cases h
    · next hrange =>
      cases h
      intro h0
      have hv := congrArg UInt16.toNat h0
      rw [Nat.toUInt16, UInt16.toNat_ofNat'] at hv
      have hzero : (0 : UInt16).toNat = 0 := rfl
      omega
  · cases h

theorem parseOctet_strDec (b : UInt8) : parseOctet (strDec b.toNat) = some b := by
  have hlt : b.toNat < 256 := b.toNat_lt
  rw [parseOctet, atoiInt_strDec (by omega)]
  simp only
  rw [if_neg (by omega), Int.toNat_natCast, Nat.toUInt8, UInt8.ofNat_toNat]

/-- The dotted text of an IPv4 address. -/
def dotted (bytes : ByteArrayN 4) : Bytes :=
  [46].intercalate (bytes.1.map fun b => strDec b.toNat)

theorem mem_intercalate {x b : UInt8} {parts : List Bytes} (h : b ∈ [x].intercalate parts) :
    b = x ∨ ∃ part ∈ parts, b ∈ part := by
  induction parts with
  | nil => simp at h
  | cons part parts ih =>
    cases parts with
    | nil => exact .inr ⟨part, List.mem_cons_self .., by simpa using h⟩
    | cons next parts =>
      rw [List.intercalate_cons_cons, List.mem_append, List.mem_append, List.mem_singleton] at h
      rcases h with (h | h) | h
      · exact .inr ⟨part, List.mem_cons_self .., h⟩
      · exact .inl h
      · rcases ih h with h | ⟨p, hp, hb⟩
        · exact .inl h
        · exact .inr ⟨p, List.mem_cons_of_mem _ hp, hb⟩

/-- It consists of digits and dots. -/
theorem mem_dotted {bytes : ByteArrayN 4} {b : UInt8} (h : b ∈ dotted bytes) :
    isDigit b = true ∨ b = 46 := by
  rcases mem_intercalate h with rfl | ⟨part, hpart, hb⟩
  · exact .inr rfl
  · obtain ⟨v, _, rfl⟩ := List.mem_map.mp hpart
    exact .inl (isDigit_of_mem_strDec hb)

theorem parseIPv4_dotted (bytes : ByteArrayN 4) : parseIPv4 (dotted bytes) = some bytes := by
  obtain ⟨bytes, hbytes⟩ := bytes
  obtain ⟨a, b, c, d, rfl⟩ := List.length_eq_four.mp hbytes
  have hsplit : (dotted ⟨[a, b, c, d], hbytes⟩).splitOn 46
      = [strDec a.toNat, strDec b.toNat, strDec c.toNat, strDec d.toNat] := by
    apply List.splitOn_intercalate
    · intro part hpart
      obtain ⟨x, _, rfl⟩ := List.mem_map.mp hpart
      exact not_mem_strDec (by decide)
    · exact List.cons_ne_nil _ _
  rw [parseIPv4, hsplit]
  simp only [parseOctet_strDec]

/-! ## `host:port` -/

/-- The text behind the last colon. -/
def afterColon (s : Bytes) : Bytes := (s.reverse.takeWhile (· ≠ 58)).reverse

theorem afterColon_append {host portS : Bytes} (h : 58 ∉ portS) :
    afterColon (host ++ 58 :: portS) = portS := by
  have hdigits : ∀ b ∈ portS.reverse, decide (b ≠ 58) = true := by
    intro b hb
    refine decide_eq_true fun heq => h ?_
    rw [← heq]
    exact List.mem_reverse.mp hb
  rw [afterColon, List.reverse_append, List.reverse_cons, List.append_assoc,
    List.takeWhile_append_of_pos hdigits]
  simp

/-- `parseHostPort` on a text without a bracket in front. -/
theorem parseHostPort_plain (A : Asio) {s : Bytes} (hne : s ≠ []) (hhead : s.head? ≠ some 91) :
    parseHostPort A s
      = if 58 ∈ s then do
          let port ← parsePort (afterColon s)
          match parseIPv4 (s.take (s.length - (afterColon s).length - 1)) with
          | some bytes => .ok (.ipv4 bytes port)
          | none => .ok (.domain (s.take (s.length - (afterColon s).length - 1)) port)
        else .error (.invalidArgument (ascii "missing :port")) := by
  unfold parseHostPort
  split
  · exact absurd rfl hne
  · exact absurd rfl hhead
  · rfl

/-- The host ends at the last colon. -/
theorem parseHostPort_host (A : Asio) {host : Bytes} {port : UInt16}
    (hhost : host.head? ≠ some 91) (hport : port ≠ 0) :
    parseHostPort A (host ++ 58 :: strDec port.toNat)
      = match parseIPv4 host with
        | some bytes => .ok (.ipv4 bytes port)
        | none => .ok (.domain host port) := by
  have hcolon : (58 : UInt8) ∉ strDec port.toNat := not_mem_strDec (by decide)
  have hlen : (host ++ 58 :: strDec port.toNat).length - (strDec port.toNat).length - 1
      = host.length := by
    simp only [List.length_append, List.length_cons]
    omega
  have hhead : (host ++ 58 :: strDec port.toNat).head? ≠ some 91 := by
    cases host with
    | nil => simp
    | cons b rest => exact hhost
  rw [parseHostPort_plain A (by simp) hhead, if_pos (by simp), afterColon_append hcolon,
    parsePort_strDec hport, hlen, List.take_left]
  rfl

/-- The text of an IPv6 address stands between its brackets. -/
theorem parseHostPort_bracketed {A : Asio} (hA : A.V6Texts) (bytes : ByteArrayN 16) {port : UInt16}
    (hport : port ≠ 0) :
    parseHostPort A ([91] ++ A.addressV6ToString bytes ++ [93, 58] ++ strDec port.toNat)
      = .ok (.ipv6 bytes port) := by
  have hinner : ∀ b ∈ A.addressV6ToString bytes, decide (b ≠ 93) = true := by
    intro b hb
    refine decide_eq_true fun heq => ?_
    subst heq
    exact hA.bracket bytes hb
  have hdrop : (A.addressV6ToString bytes ++ 93 :: 58 :: strDec port.toNat).dropWhile (· ≠ 93)
      = 93 :: 58 :: strDec port.toNat := by
    rw [List.dropWhile_append_of_pos hinner]
    rfl
  have htake : (A.addressV6ToString bytes ++ 93 :: 58 :: strDec port.toNat).takeWhile (· ≠ 93)
      = A.addressV6ToString bytes := by
    rw [List.takeWhile_append_of_pos hinner]
    simp
  have htext : [91] ++ A.addressV6ToString bytes ++ [93, 58] ++ strDec port.toNat
      = 91 :: (A.addressV6ToString bytes ++ 93 :: 58 :: strDec port.toNat) := by simp
  rw [htext, parseHostPort, parseBracketed, hdrop, htake]
  simp only [parsePort_strDec hport, hA.makeAddressV6]
  rfl

/-- **A target is read back from its text if its port is not zero and its name, for a
domain, is not taken for an address.** -/
theorem parseHostPort_toText {A : Asio} (hA : A.V6Texts) {a : Address} (h : a.Textual) :
    parseHostPort A (a.toText A) = .ok a := by
  obtain ⟨hport, hname⟩ := h
  cases a with
  | ipv4 bytes port =>
    replace hport : port ≠ 0 := hport
    have hdigit : (dotted bytes).head? ≠ some 91 := by
      intro hbracket
      -- a bracket is neither a digit nor a dot
      rcases mem_dotted (List.mem_of_head? hbracket) with h | h
      · exact absurd h (by decide)
      · exact absurd h (by decide)
    have htext : toText A (.ipv4 bytes port) = dotted bytes ++ 58 :: strDec port.toNat := by
      simp [toText, dotted]
    rw [htext, parseHostPort_host A hdigit hport, parseIPv4_dotted]
  | ipv6 bytes port => exact parseHostPort_bracketed hA bytes hport
  | domain name port =>
    replace hport : port ≠ 0 := hport
    obtain ⟨hhead, hip⟩ := hname name port rfl
    have htext : toText A (.domain name port) = name ++ 58 :: strDec port.toNat := by
      simp [toText]
    rw [htext, parseHostPort_host A hhead hport, hip]

/-- `parseHostPort` yields no other addresses, and takes a domain name from its text. -/
theorem parseHostPort_eq_ok {A : Asio} {s : Bytes} {a : Address}
    (h : parseHostPort A s = .ok a) :
    a.Textual ∧ ∀ name port, a = .domain name port → name <+: s := by
  cases s with
  | nil => cases h
  | cons b rest =>
    by_cases hb : b = 91
    · -- only an IPv6 address can come from a text in brackets
      subst hb
      rw [parseHostPort, parseBracketed] at h
      split at h
      · cases h
      · obtain ⟨port, hport, h⟩ := bind_eq_ok.mp h
        split at h
        · cases h
        · cases h
          refine ⟨⟨parsePort_ne_zero hport, ?_⟩, ?_⟩
          · rintro name port ⟨⟩
          · rintro name port ⟨⟩
      · cases h
    · have hhead : (b :: rest).head? ≠ some 91 := fun heq => hb (Option.some.inj heq)
      rw [parseHostPort_plain A (List.cons_ne_nil _ _) hhead] at h
      by_cases hcolon : 58 ∈ b :: rest
      · rw [if_pos hcolon] at h
        generalize hhost : (b :: rest).take _ = host at h
        have hpre : host <+: b :: rest := by rw [← hhost]; exact List.take_prefix _ _
        obtain ⟨port, hport, h⟩ := bind_eq_ok.mp h
        split at h
        · cases h
          refine ⟨⟨parsePort_ne_zero hport, ?_⟩, ?_⟩
          · rintro name port ⟨⟩
          · rintro name port ⟨⟩
        · next hip =>
          cases h
          refine ⟨⟨parsePort_ne_zero hport, ?_⟩, ?_⟩
          · rintro name port ⟨⟩
            refine ⟨fun hbracket => hhead ?_, hip⟩
            -- the name starts where the text starts
            obtain ⟨tail, htail⟩ := hpre
            rw [← htail, List.head?_append, hbracket]
            rfl
          · rintro name port ⟨⟩
            exact hpre
      · rw [if_neg hcolon] at h
        cases h

end Address

/-- A network with the documented texts: the IPv6 address writes its bytes in unary. -/
def Asio.unary : Asio :=
  { Asio.sample (.ok []) (.error []) (.ok ()) with
    makeAddressV6 := fun s =>
      let bytes := (s.splitOn 58).map fun part => part.length.toUInt8
      if h : bytes.length = 16 then some ⟨bytes, h⟩ else none
    addressV6ToString := fun bytes =>
      [58].intercalate (bytes.1.map fun b => List.replicate b.toNat 48)
    base64Escape := fun _ => [] }

theorem Asio.unary_texts : Asio.unary.Texts where
  makeAddressV6 bytes := by
    obtain ⟨bytes, hbytes⟩ := bytes
    have hsplit :
        ([58].intercalate (bytes.map fun b => List.replicate b.toNat (48 : UInt8))).splitOn 58
          = bytes.map fun b => List.replicate b.toNat 48 := by
      apply List.splitOn_intercalate
      · intro part hpart
        obtain ⟨b, _, rfl⟩ := List.mem_map.mp hpart
        intro h58
        exact absurd (List.eq_of_mem_replicate h58) (by decide)
      · rintro hnil
        rw [List.map_eq_nil_iff] at hnil
        rw [hnil] at hbytes
        cases hbytes
    simp [unary, hsplit, hbytes, Function.comp_def]
  addressV6ToString bytes b h := by
    rcases Address.mem_intercalate h with rfl | ⟨part, hpart, hb⟩
    · decide
    · obtain ⟨v, _, rfl⟩ := List.mem_map.mp hpart
      rw [List.eq_of_mem_replicate hb]
      decide
  base64Escape s b h := absurd h List.not_mem_nil

namespace Address

/-- **What is read from a text is read from its own text again.** -/
theorem parseHostPort_normalises (A : Asio) (hA : A.V6Texts) (s : Bytes) (a : Address)
    (h : parseHostPort A s = .ok a) : parseHostPort A (a.toText A) = .ok a :=
  parseHostPort_toText hA (parseHostPort_eq_ok h).1

/-- Signs, blanks and leading zeros are gone after the first time. -/
theorem parseHostPort_normalises_blanks :
    parseHostPort .unary (ascii "+1.02. 3.4: 080 ") = .ok (.ipv4 ⟨[1, 2, 3, 4], rfl⟩ 80) ∧
      parseHostPort .unary (ascii "1.2.3.4:80") = .ok (.ipv4 ⟨[1, 2, 3, 4], rfl⟩ 80) := by
  have hread : parseHostPort .unary (ascii "+1.02. 3.4: 080 ")
      = .ok (.ipv4 ⟨[1, 2, 3, 4], rfl⟩ 80) := by decide
  exact ⟨hread, parseHostPort_normalises .unary Asio.unary_texts.v6 _ _ hread⟩

/-! ## The texts that are read -/

/-- A decimal port, as `absl::SimpleAtoi` reads it. -/
def PortText (portS : Bytes) : Prop := ∃ v, atoiInt portS = some v ∧ 0 < v ∧ v ≤ 65535

/-- `host:port`, or `[address]:port` with an IPv6 address. -/
def HostPortText (makeAddressV6 : Bytes → Option (ByteArrayN 16)) (s : Bytes) : Prop :=
  ∃ portS, PortText portS ∧
    ((∃ v6, s = 91 :: (v6 ++ 93 :: 58 :: portS) ∧ 93 ∉ v6 ∧ (makeAddressV6 v6).isSome = true) ∨
      (∃ host, s = host ++ 58 :: portS ∧ 58 ∉ portS ∧ s.head? ≠ some 91))

theorem parsePort_isOk {portS : Bytes} :
    (∃ port, parsePort portS = .ok port) ↔ PortText portS := by
  rw [PortText, parsePort]
  cases atoiInt portS with
  | none => simp
  | some v =>
    by_cases hv : v ≤ 0 ∨ v > 65535
    · simp only [if_pos hv]
      simp
      omega
    · simp only [if_neg hv]
      simp
      omega

/-- The last colon of a text. -/
theorem exists_host {s : Bytes} (h : 58 ∈ s) :
    ∃ host, s = host ++ 58 :: afterColon s ∧ 58 ∉ afterColon s := by
  obtain ⟨portS, host, hsplit, hport⟩ := List.eq_append_cons_of_mem (List.mem_reverse.mpr h)
  have hs : s = host.reverse ++ 58 :: portS.reverse := by
    rw [← List.reverse_reverse s, hsplit]
    simp
  have hport' : 58 ∉ portS.reverse := fun hmem => hport (List.mem_reverse.mp hmem)
  have hafter : afterColon s = portS.reverse := by rw [hs, afterColon_append hport']
  exact ⟨host.reverse, by rw [hafter]; exact hs, by rw [hafter]; exact hport'⟩

theorem parseBracketed_isOk {A : Asio} {s : Bytes} :
    (∃ a, parseBracketed A s = .ok a)
      ↔ ∃ v6 portS, s = v6 ++ 93 :: 58 :: portS ∧ 93 ∉ v6 ∧
        (A.makeAddressV6 v6).isSome = true ∧ PortText portS := by
  constructor
  · rintro ⟨a, h⟩
    have hsplit := List.takeWhile_append_dropWhile (p := (· ≠ 93)) (l := s)
    rw [parseBracketed] at h
    split at h
    · cases h
    · next b portS hdrop =>
      obtain ⟨port, hport, h⟩ := bind_eq_ok.mp h
      have hb : b = 93 := by
        have hfirst := List.head?_dropWhile_not (fun c => decide (c ≠ 93)) s
        rw [hdrop] at hfirst
        simpa using hfirst
      refine ⟨s.takeWhile (· ≠ 93), portS, ?_, fun hmem => ?_, ?_, parsePort_isOk.mp ⟨port, hport⟩⟩
      · rw [hdrop, hb] at hsplit
        exact hsplit.symm
      · simpa using List.mem_takeWhile_imp hmem
      · cases hv6 : A.makeAddressV6 (s.takeWhile (· ≠ 93)) with
        | none =>
          rw [hv6] at h
          cases h
        | some bytes => rfl
    · cases h
  · rintro ⟨v6, portS, rfl, hv6, hmake, hport⟩
    have hinner : ∀ b ∈ v6, decide (b ≠ 93) = true := by
      intro b hb
      refine decide_eq_true fun heq => hv6 ?_
      rwa [← heq]
    obtain ⟨port, hport⟩ := parsePort_isOk.mpr hport
    obtain ⟨bytes, hbytes⟩ := Option.isSome_iff_exists.mp hmake
    refine ⟨.ipv6 bytes port, ?_⟩
    rw [parseBracketed, List.dropWhile_append_of_pos hinner, List.takeWhile_append_of_pos hinner]
    simp [hport, hbytes, bind, Except.bind]

theorem parsePlain_isOk {A : Asio} {s : Bytes} (hne : s ≠ []) (hhead : s.head? ≠ some 91) :
    (∃ a, parseHostPort A s = .ok a)
      ↔ ∃ host portS, s = host ++ 58 :: portS ∧ 58 ∉ portS ∧ PortText portS := by
  rw [parseHostPort_plain A hne hhead]
  constructor
  · rintro ⟨a, h⟩
    split_ifs at h with hcolon
    obtain ⟨port, hport, -⟩ := bind_eq_ok.mp h
    obtain ⟨host, hs, hafter⟩ := exists_host hcolon
    exact ⟨host, afterColon s, hs, hafter, parsePort_isOk.mp ⟨port, hport⟩⟩
  · rintro ⟨host, portS, rfl, hcolon, hport⟩
    obtain ⟨port, hport⟩ := parsePort_isOk.mpr hport
    rw [if_pos (by simp), afterColon_append hcolon, hport]
    simp only [bind, Except.bind]
    split
    · exact ⟨_, rfl⟩
    · exact ⟨_, rfl⟩

/-- **`parseHostPort` reads exactly these texts.** -/
theorem parseHostPort_isOk {A : Asio} {s : Bytes} :
    (∃ a, parseHostPort A s = .ok a) ↔ HostPortText A.makeAddressV6 s := by
  rw [HostPortText]
  cases s with
  | nil => simp [parseHostPort]
  | cons b rest =>
    by_cases hb : b = 91
    · subst hb
      rw [parseHostPort, parseBracketed_isOk]
      constructor
      · rintro ⟨v6, portS, rfl, hv6, hmake, hport⟩
        exact ⟨portS, hport, .inl ⟨v6, rfl, hv6, hmake⟩⟩
      · rintro ⟨portS, hport, ⟨v6, heq, hv6, hmake⟩ | ⟨_, _, _, hhead⟩⟩
        · exact ⟨v6, portS, (List.cons.inj heq).2, hv6, hmake, hport⟩
        · exact absurd rfl hhead
    · have hhead : (b :: rest).head? ≠ some 91 := fun heq => hb (Option.some.inj heq)
      rw [parsePlain_isOk (List.cons_ne_nil _ _) hhead]
      constructor
      · rintro ⟨host, portS, hs, hcolon, hport⟩
        exact ⟨portS, hport, .inr ⟨host, hs, hcolon, hhead⟩⟩
      · rintro ⟨portS, hport, ⟨_, heq, _⟩ | ⟨host, hs, hcolon, _⟩⟩
        · exact absurd (List.cons.inj heq).1 hb
        · exact ⟨host, portS, hs, hcolon, hport⟩

end Address

end Shine
