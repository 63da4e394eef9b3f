import Shine.Inbound.Socks5
import Shine.Transport.AddressBlob

/-!
# What a SOCKS5 inbound accepts (`inbound/socks5_inbound.cpp`)

`Socks5Inbound::handleClient` reads a chain of fields whose lengths come from the client.
The grammar below says what a client has to send: a method selection, credentials where
they are required, and a request. `connect_iff` states that the inbound grants a CONNECT
for exactly these streams, with the target that they encode, and that it leaves what
follows the request to the stream of the session.
-/

namespace Shine

namespace Socks5

open Address (portAt arrayAt portBytes)
open Socks5Inbound (Handling Granted)

/-! ## The grammar -/

/-- A method selection that offers the method `m`. -/
def Offers (m : UInt8) (b : Bytes) : Prop :=
  ∃ methods : Bytes, m ∈ methods ∧ methods.length ≤ 255 ∧
    b = [5, methods.length.toUInt8] ++ methods

/-- The RFC 1929 message with this user name and password. -/
def Credentials (user pass b : Bytes) : Prop :=
  user.length ≤ 255 ∧ pass.length ≤ 255 ∧
    b = [1, user.length.toUInt8] ++ user ++ ([pass.length.toUInt8] ++ pass)

/-- ATYP, address and port. -/
def Encodes : Address → Bytes → Prop
  | .ipv4 bytes port, b => b = [1] ++ (bytes.1 ++ portBytes port)
  | .domain name port, b =>
    name.length ≤ 255 ∧ b = [3, name.length.toUInt8] ++ name ++ portBytes port
  | .ipv6 bytes port, b => b = [4] ++ (bytes.1 ++ portBytes port)

/-- A CONNECT request; the reserved byte is not looked at. -/
def Connects (target : Address) (b : Bytes) : Prop :=
  ∃ rsv addr, Encodes target addr ∧ b = [5, 1, rsv] ++ addr

/-- A stream that asks for `target`, up to the end of the request. -/
def Accepted (user pass : Bytes) (target : Address) (b : Bytes) : Prop :=
  ∃ select auth request, b = select ++ auth ++ request ∧
    (if user ≠ [] ∨ pass ≠ [] then Offers 2 select ∧ Credentials user pass auth
      else Offers 0 select ∧ auth = []) ∧
    Connects target request

/-! ## Fields -/

section Fields

variable {α : Type} {input : Bytes} {out : α × Bytes}

/-- A byte. -/
theorem feed_readByte_iff {next : Bytes → Proc UInt8 α} :
    (Proc.readExact 1 next).feed input = some out
      ↔ ∃ b rest, input = b :: rest ∧ (next [b]).feed rest = some out := by
  rw [Proc.feed_readExact_iff]
  constructor
  · rintro ⟨xs, rest, rfl, hlen, h⟩
    obtain ⟨b, rfl⟩ := List.length_eq_one_iff.mp hlen
    exact ⟨b, rest, rfl, h⟩
  · rintro ⟨b, rest, rfl, h⟩
    exact ⟨[b], rest, rfl, rfl, h⟩

/-- A string behind its length byte. -/
theorem feed_readString_iff {next : Bytes → Proc UInt8 α} :
    (Proc.readExact 1 fun len => .readExact (len.getD 0 0).toNat next).feed input = some out
      ↔ ∃ s rest, s.length ≤ 255 ∧ input = s.length.toUInt8 :: (s ++ rest) ∧
        (next s).feed rest = some out := by
  rw [feed_readByte_iff]
  constructor
  · rintro ⟨len, rest, rfl, h⟩
    obtain ⟨s, rest, rfl, hlen, h⟩ := Proc.feed_readExact_iff.mp h
    replace hlen : s.length = len.toNat := hlen
    have hlt : len.toNat < 256 := len.toNat_lt
    refine ⟨s, rest, by omega, ?_, h⟩
    rw [hlen, Nat.toUInt8, UInt8.ofNat_toNat]
  · rintro ⟨s, rest, hlen, rfl, h⟩
    refine ⟨s.length.toUInt8, s ++ rest, rfl, Proc.feed_readExact_iff.mpr ⟨s, rest, rfl, ?_, h⟩⟩
    exact (Address.toNat_length_toUInt8 hlen).symm

theorem array_append_port {n : Nat} {buf : Bytes} (h : buf.length = n + 2) :
    buf = (arrayAt buf 0 n).1 ++ portBytes (portAt buf n) := by
  obtain ⟨hi, lo, tail, hport⟩ := Address.exists_cons_cons (l := buf.drop n) (by
    rw [List.length_drop]
    omega)
  have htail : tail = [] := by
    have hlen := congrArg List.length hport
    rw [List.length_drop, List.length_cons, List.length_cons] at hlen
    exact List.length_eq_zero_iff.mp (by omega)
  subst htail
  have hbuf : buf = buf.take n ++ [hi, lo] := by rw [← hport, List.take_append_drop]
  have htake : (buf.take n).length = n := by
    rw [List.length_take]
    omega
  have harray : arrayAt buf 0 n = ⟨buf.take n, htake⟩ := by
    have happ := Address.arrayAt_append (⟨buf.take n, htake⟩ : ByteArrayN n) [hi, lo]
    rwa [← hbuf] at happ
  have hport : portAt buf n = Address.portOf hi lo := by
    have happ := Address.portAt_append (buf.take n) [] (Address.portOf hi lo)
    rwa [Address.portBytes_portOf, List.append_nil, ← hbuf, htake] at happ
  rw [harray, hport, Address.portBytes_portOf]
  exact hbuf

/-- An address of fixed length, with its port. -/
theorem feed_readArray_iff {n : Nat} (next : ByteArrayN n → UInt16 → Proc UInt8 α) :
    (Proc.readExact (n + 2) fun buf => next (arrayAt buf 0 n) (portAt buf n)).feed input = some out
      ↔ ∃ bytes port rest, input = bytes.1 ++ portBytes port ++ rest ∧
        (next bytes port).feed rest = some out := by
  rw [Proc.feed_readExact_iff]
  constructor
  · rintro ⟨buf, rest, rfl, hlen, h⟩
    refine ⟨arrayAt buf 0 n, portAt buf n, rest, ?_, h⟩
    rw [← array_append_port hlen]
  · rintro ⟨bytes, port, rest, rfl, h⟩
    have hlen : (bytes.1 ++ portBytes port).length = n + 2 := by
      rw [List.length_append, bytes.2, Address.length_portBytes]
    have hport : portAt (bytes.1 ++ portBytes port) n = port := by
      have happ := Address.portAt_append bytes.1 [] port
      rwa [bytes.2, List.append_nil] at happ
    refine ⟨bytes.1 ++ portBytes port, rest, rfl, hlen, ?_⟩
    rwa [Address.arrayAt_append, hport]

end Fields

/-! ## Messages -/

/-- The part of `handleClient` that reads the credentials. -/
def readCredentials {β : Type} (next : Bytes → Bytes → Proc UInt8 (Option β)) :
    Proc UInt8 (Option β) :=
  .readExact 1 fun v =>
    if v.getD 0 0 ≠ 1 then .done none
    else .readExact 1 fun ulen =>
      .readExact (ulen.getD 0 0).toNat fun u =>
      .readExact 1 fun plen =>
      .readExact (plen.getD 0 0).toNat fun p => next u p

theorem authenticate_eq (user pass : Bytes) (next : Handling) :
    Socks5Inbound.authenticate user pass next
      = readCredentials fun u p =>
        .write [1, if u = user ∧ p = pass then 0 else 1]
          (if (if u = user ∧ p = pass then (0 : UInt8) else 1) ≠ 0 then .done none else next) :=
  rfl

section Messages

variable {β : Type} {input rest : Bytes} {g : β}

theorem readCredentials_feed_iff {next : Bytes → Bytes → Proc UInt8 (Option β)} :
    (readCredentials next).feed input = some (some g, rest)
      ↔ ∃ u p msg tail, Credentials u p msg ∧ input = msg ++ tail ∧
        (next u p).feed tail = some (some g, rest) := by
  rw [readCredentials, feed_readByte_iff]
  constructor
  · rintro ⟨v, tail, rfl, h⟩
    split_ifs at h with hv
    · cases h
    · obtain ⟨u, tail, hu, rfl, hpass⟩ := feed_readString_iff.mp h
      obtain ⟨p, tail, hp, rfl, hnext⟩ := feed_readString_iff.mp hpass
      have hv : v = 1 := not_not.mp hv
      exact ⟨u, p, _, tail, ⟨hu, hp, rfl⟩, by simp [hv], hnext⟩
  · rintro ⟨u, p, _, tail, ⟨hu, hp, rfl⟩, rfl, h⟩
    refine ⟨1, _, rfl, ?_⟩
    rw [if_neg (by decide)]
    refine feed_readString_iff.mpr ⟨u, _, hu, ?_, feed_readString_iff.mpr ⟨p, tail, hp, rfl, h⟩⟩
    simp

theorem authenticate_feed_iff {user pass : Bytes} {next : Handling} {granted : Granted} :
    (Socks5Inbound.authenticate user pass next).feed input = some (some granted, rest)
      ↔ ∃ msg tail, Credentials user pass msg ∧ input = msg ++ tail ∧
        next.feed tail = some (some granted, rest) := by
  rw [authenticate_eq, readCredentials_feed_iff]
  constructor
  · rintro ⟨u, p, msg, tail, hmsg, rfl, h⟩
    rw [Proc.feed_write] at h
    by_cases hsame : u = user ∧ p = pass
    · rw [if_pos hsame, if_neg (by decide)] at h
      obtain ⟨rfl, rfl⟩ := hsame
      exact ⟨msg, tail, hmsg, rfl, h⟩
    · rw [if_neg hsame, if_pos (by decide)] at h
      cases h
  · rintro ⟨msg, tail, hmsg, rfl, h⟩
    refine ⟨user, pass, msg, tail, hmsg, rfl, ?_⟩
    have hsame : user = user ∧ pass = pass := ⟨rfl, rfl⟩
    rwa [Proc.feed_write, if_pos hsame, if_neg (by decide)]

/-- The three kinds of targets; any other ATYP ends the conversation. -/
theorem readTarget_feed_iff {atyp : UInt8} {next : Address → Handling} {granted : Granted} :
    (Socks5Inbound.readTarget atyp next).feed input = some (some granted, rest)
      ↔ ∃ target addr tail, Encodes target (atyp :: addr) ∧ input = addr ++ tail ∧
        (next target).feed tail = some (some granted, rest) := by
  unfold Socks5Inbound.readTarget
  constructor
  · intro h
    split_ifs at h with h1 h3 h4
    · obtain ⟨bytes, port, tail, rfl, hnext⟩ :=
        (feed_readArray_iff fun bytes port => next (.ipv4 bytes port)).mp h
      exact ⟨.ipv4 bytes port, _, tail, by rw [h1]; rfl, rfl, hnext⟩
    · obtain ⟨d, tail, hd, rfl, hport⟩ := feed_readString_iff.mp h
      obtain ⟨bytes, port, tail, rfl, hnext⟩ :=
        (@feed_readArray_iff _ _ _ 0 fun _ port => next (.domain d port)).mp hport
      have hbytes : bytes.1 = [] := List.length_eq_zero_iff.mp bytes.2
      refine ⟨.domain d port, d.length.toUInt8 :: (d ++ portBytes port), tail, ⟨hd, ?_⟩, ?_, hnext⟩
      · rw [h3]
        rfl
      · rw [hbytes]
        simp
    · obtain ⟨bytes, port, tail, rfl, hnext⟩ :=
        (feed_readArray_iff fun bytes port => next (.ipv6 bytes port)).mp h
      exact ⟨.ipv6 bytes port, _, tail, by rw [h4]; rfl, rfl, hnext⟩
    · cases h
  · rintro ⟨target, addr, tail, henc, rfl, h⟩
    cases target with
    | ipv4 bytes port =>
      injection henc with hatyp haddr
      subst hatyp haddr
      rw [if_pos rfl]
      exact (feed_readArray_iff fun bytes port => next (.ipv4 bytes port)).mpr
        ⟨bytes, port, tail, rfl, h⟩
    | domain name port =>
      obtain ⟨hname, henc⟩ := henc
      injection henc with hatyp haddr
      subst hatyp haddr
      rw [if_neg (by decide), if_pos rfl]
      refine feed_readString_iff.mpr ⟨name, portBytes port ++ tail, hname, by simp, ?_⟩
      exact (@feed_readArray_iff _ _ _ 0 fun _ port => next (.domain name port)).mpr
        ⟨⟨[], rfl⟩, port, tail, rfl, h⟩
    | ipv6 bytes port =>
      injection henc with hatyp haddr
      subst hatyp haddr
      rw [if_neg (by decide), if_neg (by decide), if_pos rfl]
      exact (feed_readArray_iff fun bytes port => next (.ipv6 bytes port)).mpr
        ⟨bytes, port, tail, rfl, h⟩

/-- A CONNECT is granted for the target that the request encodes. -/
theorem request_feed_iff {localEp : Except Bytes (ByteArrayN 4 × UInt16)} {target : Address} :
    (Socks5Inbound.request localEp).feed input = some (some (.connect target), rest)
      ↔ ∃ msg, Connects target msg ∧ input = msg ++ rest := by
  unfold Socks5Inbound.request
  rw [Proc.feed_readExact_iff]
  constructor
  · rintro ⟨hdr, tail, rfl, hlen, h⟩
    obtain ⟨ver, cmd, rsv, atyp, rfl⟩ := List.length_eq_four.mp hlen
    simp only [List.getD_cons_zero, List.getD_cons_succ] at h
    by_cases hbad : ver ≠ 5 ∨ (cmd ≠ 1 ∧ cmd ≠ 3)
    · rw [if_pos hbad, Proc.feed_write] at h
      cases h
    · rw [if_neg hbad] at h
      obtain ⟨target', addr, tail, henc, rfl, hnext⟩ := readTarget_feed_iff.mp h
      obtain ⟨hver, hcmd⟩ := not_or.mp hbad
      by_cases hudp : cmd = 3
      · -- UDP ASSOCIATE grants something else
        rw [if_pos hudp] at hnext
        cases localEp with
        | error e =>
          rw [Proc.feed_write] at hnext
          cases hnext
        | ok ep =>
          rw [Proc.feed_write] at hnext
          cases hnext
      · rw [if_neg hudp, Proc.feed_write] at hnext
        cases hnext
        have hconnect : cmd = 1 := by
          by_contra hne
          exact hcmd ⟨hne, hudp⟩
        refine ⟨[5, 1, rsv] ++ atyp :: addr, ⟨rsv, _, henc, rfl⟩, ?_⟩
        rw [not_not.mp hver, hconnect]
        simp
  · rintro ⟨_, ⟨rsv, addr, henc, rfl⟩, rfl⟩
    obtain ⟨atyp, addr, rfl⟩ : ∃ atyp body, addr = atyp :: body := by
      cases target with
      | ipv4 bytes port => exact ⟨_, _, henc⟩
      | domain name port => exact ⟨_, _, henc.2⟩
      | ipv6 bytes port => exact ⟨_, _, henc⟩
    refine ⟨[5, 1, rsv, atyp], addr ++ rest, by simp, rfl, ?_⟩
    simp only [List.getD_cons_zero, List.getD_cons_succ]
    rw [if_neg (by simp)]
    refine readTarget_feed_iff.mpr ⟨target, addr, rest, henc, rfl, ?_⟩
    rw [if_neg (by decide), Proc.feed_write]
    rfl

end Messages

/-! ## Conversations -/

section Conversations

variable {user pass input rest : Bytes} {localEp : Except Bytes (ByteArrayN 4 × UInt16)}
  {target : Address}

theorem chooseMethod_eq (requireAuth : Bool) (methods : Bytes) :
    Socks5Inbound.chooseMethod requireAuth methods
      = if (if requireAuth then 2 else 0) ∈ methods then (if requireAuth then 2 else 0)
        else 0xFF := by
  induction methods with
  | nil => rfl
  | cons m methods ih =>
    rw [Socks5Inbound.chooseMethod, ih]
    cases requireAuth with
    | false => by_cases hm : m = 0 <;> simp [hm, eq_comm]
    | true => by_cases hm : m = 2 <;> simp [hm, eq_comm]

/-- The inbound goes on behind a method selection that offers the method it requires. -/
theorem handleClient_feed_iff {granted : Granted} :
    (Socks5Inbound.handleClient user pass localEp).feed input = some (some granted, rest)
      ↔ ∃ select tail, Offers (if user ≠ [] || pass ≠ [] then 2 else 0) select ∧
        input = select ++ tail ∧
        (if user ≠ [] || pass ≠ [] then
          Socks5Inbound.authenticate user pass (Socks5Inbound.request localEp)
        else Socks5Inbound.request localEp).feed tail = some (some granted, rest) := by
  unfold Socks5Inbound.handleClient
  rw [Proc.feed_readExact_iff]
  generalize (decide (user ≠ []) || decide (pass ≠ [])) = requireAuth
  have hmethod : (if requireAuth then 2 else 0 : UInt8) ≠ 0xFF := by cases requireAuth <;> decide
  constructor
  · rintro ⟨hdr, tail, rfl, hlen, h⟩
    obtain ⟨ver, nm, rfl⟩ := List.length_eq_two.mp hlen
    simp only [List.getD_cons_zero, List.getD_cons_succ] at h
    by_cases hver : ver ≠ 5
    · rw [if_pos hver] at h
      cases h
    by_cases hnm : nm = 0
    · rw [if_neg hver, if_pos hnm] at h
      cases h
    · rw [if_neg hver, if_neg hnm] at h
      obtain ⟨methods, tail, rfl, hmethods, hnext⟩ := Proc.feed_readExact_iff.mp h
      simp only [Proc.feed_write, chooseMethod_eq] at hnext
      by_cases hmem : (if requireAuth then 2 else 0 : UInt8) ∈ methods
      · rw [if_pos hmem, if_neg hmethod] at hnext
        have hlt : nm.toNat < 256 := nm.toNat_lt
        refine ⟨[5, nm] ++ methods, tail, ⟨methods, hmem, by omega, ?_⟩, ?_, hnext⟩
        · rw [hmethods, Nat.toUInt8, UInt8.ofNat_toNat]
        · rw [not_not.mp hver, List.append_assoc]
      · rw [if_neg hmem, if_pos rfl] at hnext
        cases hnext
  · rintro ⟨_, tail, ⟨methods, hmem, hlen, rfl⟩, rfl, h⟩
    have hcount : methods.length.toUInt8.toNat = methods.length :=
      Address.toNat_length_toUInt8 hlen
    have hpos : methods.length.toUInt8 ≠ 0 := by
      intro hzero
      rw [hzero] at hcount
      exact absurd (List.length_pos_of_mem hmem) (by rw [← hcount]; decide)
    refine ⟨[5, methods.length.toUInt8], methods ++ tail, by simp, rfl, ?_⟩
    simp only [List.getD_cons_zero, List.getD_cons_succ]
    rw [if_neg (by decide), if_neg hpos, hcount, Proc.feed_readExact_append rfl]
    simp only [Proc.feed_write, chooseMethod_eq]
    rw [if_pos hmem, if_neg hmethod]
    exact h

end Conversations

/-- **The inbound grants a CONNECT for exactly the streams of the grammar**, with the
target that the request encodes, and what it has not read is what follows the request. -/
theorem connect_iff (user pass : Bytes) (localEp : Except Bytes (ByteArrayN 4 × UInt16))
    (stream rest : Bytes) (target : Address) :
    (Socks5Inbound.handleClient user pass localEp).feed stream = some (some (.connect target), rest)
      ↔ ∃ b, Accepted user pass target b ∧ stream = b ++ rest := by
  have hauth : (decide (user ≠ []) || decide (pass ≠ [])) = true ↔ user ≠ [] ∨ pass ≠ [] := by
    simp
  rw [handleClient_feed_iff]
  constructor
  · rintro ⟨select, tail, hselect, rfl, h⟩
    by_cases hreq : user ≠ [] ∨ pass ≠ []
    · rw [if_pos (hauth.mpr hreq)] at hselect h
      obtain ⟨auth, tail, hcred, rfl, hnext⟩ := authenticate_feed_iff.mp h
      obtain ⟨request, hconnect, rfl⟩ := request_feed_iff.mp hnext
      refine ⟨select ++ auth ++ request, ⟨select, auth, request, rfl, ?_, hconnect⟩, by simp⟩
      rw [if_pos hreq]
      exact ⟨hselect, hcred⟩
    · rw [if_neg (mt hauth.mp hreq)] at hselect h
      obtain ⟨request, hconnect, rfl⟩ := request_feed_iff.mp h
      refine ⟨select ++ [] ++ request, ⟨select, [], request, rfl, ?_, hconnect⟩, by simp⟩
      rw [if_neg hreq]
      exact ⟨hselect, rfl⟩
  · rintro ⟨_, ⟨select, auth, request, rfl, hauthed, hconnect⟩, rfl⟩
    by_cases hreq : user ≠ [] ∨ pass ≠ []
    · rw [if_pos hreq] at hauthed
      refine ⟨select, auth ++ (request ++ rest), ?_, by simp, ?_⟩
      · rw [if_pos (hauth.mpr hreq)]
        exact hauthed.1
      · rw [if_pos (hauth.mpr hreq)]
        exact authenticate_feed_iff.mpr
          ⟨auth, _, hauthed.2, rfl, request_feed_iff.mpr ⟨request, hconnect, rfl⟩⟩
    · rw [if_neg hreq] at hauthed
      refine ⟨select, request ++ rest, ?_, by simp [hauthed.2], ?_⟩
      · rw [if_neg (mt hauth.mp hreq)]
        exact hauthed.1
      · rw [if_neg (mt hauth.mp hreq)]
        exact request_feed_iff.mpr ⟨request, hconnect, rfl⟩

end Socks5

end Shine
