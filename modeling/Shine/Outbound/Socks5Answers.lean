import Shine.Inbound.HttpHeads
import Shine.Inbound.Socks5

/-!
# What a SOCKS5 proxy has to answer (`outbound/socks5_outbound.cpp`)

`Socks5Outbound::handle` writes and reads in turns on one connection. `Speaks f G` gives the
grammar of such a piece of code: it succeeds exactly if what arrives starts with an answer,
and what it writes can be written, for which `G` holds, however the connection cuts the answer
into pieces. The rules for reading and writing give the grammar of the whole handshake, and
`socks5_tunnel_iff` says what the tunnel then starts with.

The grammar shows what the code does not look at: the version in the answers behind the first
one, the reserved byte, the bound address, and the selected method, if it is neither of
`0x02` and `0xFF`. It sends the credentials if the proxy selects `0x02`, also where there are
none and the method was not offered.
-/

namespace Shine

/-! ## The grammar of a conversation -/

/-- On the way from `c` to `c'` the answer has been read and `sent` has been written. -/
structure Socket.After (c : Socket) (answer sent : Bytes) (c' : Socket) : Prop where
  incoming : c.incoming.flatten = answer ++ c'.incoming.flatten
  outgoing : c'.outgoing = c.outgoing ++ sent
  room : c.room = sent.length + c'.room

namespace Socket

variable {c c₁ c₂ : Socket} {answer answer' sent sent' : Bytes}

theorem After.refl (c : Socket) : c.After [] [] c := ⟨rfl, by simp, by simp⟩

theorem After.trans (h : c.After answer sent c₁) (h' : c₁.After answer' sent' c₂) :
    c.After (answer ++ answer') (sent ++ sent') c₂ where
  incoming := by rw [h.incoming, h'.incoming, List.append_assoc]
  outgoing := by rw [h'.outgoing, h.outgoing, List.append_assoc]
  room := by rw [h.room, h'.room, List.length_append, Nat.add_assoc]

theorem After.of_asyncWrite {data : Bytes} (h : c.asyncWrite data = .ok c₁) :
    c.After [] data c₁ := by
  obtain ⟨hroom, rfl⟩ := asyncWrite_eq_ok.mp h
  exact ⟨rfl, rfl, (Nat.add_sub_cancel' hroom).symm⟩

theorem takeBytes_flatten {n : Nat} {pieces rest : List Bytes} {out : Bytes}
    (h : takeBytes n pieces = some (out, rest)) : pieces.flatten = out ++ rest.flatten := by
  induction pieces generalizing n out with
  | nil =>
    rw [takeBytes] at h
    split_ifs at h
    cases h
    rfl
  | cons piece pieces ih =>
    rw [takeBytes] at h
    split_ifs at h with hn
    · cases h
      rw [List.flatten_cons, List.flatten_cons, ← List.append_assoc, List.take_append_drop]
    · obtain ⟨⟨out', rest'⟩, htake, heq⟩ := Option.map_eq_some_iff.mp h
      cases heq
      rw [List.flatten_cons, ih htake, List.append_assoc]

theorem takeBytes_isSome {n : Nat} {pieces : List Bytes} (h : n ≤ pieces.flatten.length) :
    ∃ got, takeBytes n pieces = some got := by
  induction pieces generalizing n with
  | nil =>
    obtain rfl : n = 0 := Nat.le_zero.mp h
    exact ⟨([], []), rfl⟩
  | cons piece pieces ih =>
    rw [takeBytes]
    split_ifs with hn
    · exact ⟨_, rfl⟩
    · rw [List.flatten_cons, List.length_append] at h
      obtain ⟨got, hgot⟩ := ih (n := n - piece.length) (by omega)
      exact ⟨_, by rw [hgot, Option.map_some]⟩

theorem After.of_asyncRead {n : Nat} (h : c.asyncRead n = .ok (answer, c₁)) :
    c.After answer [] c₁ ∧ answer.length = n := by
  rw [asyncRead] at h
  split at h
  · next htake =>
    cases h
    exact ⟨⟨takeBytes_flatten htake, by simp, by simp⟩, length_takeBytes htake⟩
  · cases h

/-- The next `n` bytes are read, however they are cut. -/
theorem exists_asyncRead (h : answer <+: c.incoming.flatten) :
    ∃ c₁, c.asyncRead answer.length = .ok (answer, c₁) := by
  obtain ⟨⟨out, rest⟩, htake⟩ := takeBytes_isSome h.length_le
  have hread : c.asyncRead answer.length = .ok (out, { c with incoming := rest }) := by
    rw [asyncRead, htake]
  have hout : out <+: c.incoming.flatten := by
    rw [takeBytes_flatten htake]
    exact List.prefix_append _ _
  have heq : out = answer := by
    refine (List.prefix_of_prefix_length_le hout h ?_).eq_of_length (length_takeBytes htake)
    rw [length_takeBytes htake]
  exact ⟨_, heq ▸ hread⟩

end Socket

/-- The code succeeds exactly on the answers, and with the messages, that `G` has. -/
structure Speaks (f : Socket → StatusOr Socket) (G : Bytes → Bytes → Prop) : Prop where
  sound : ∀ {c c'}, f c = .ok c' → ∃ answer sent, G answer sent ∧ c.After answer sent c'
  complete : ∀ {c answer sent}, G answer sent → answer <+: c.incoming.flatten →
    sent.length ≤ c.room → ∃ c', f c = .ok c' ∧ c.After answer sent c'

namespace Speaks

variable {f k : Socket → StatusOr Socket} {G H : Bytes → Bytes → Prop}

theorem congr (h : Speaks f G) (hiff : ∀ answer sent, G answer sent ↔ H answer sent) :
    Speaks f H where
  sound hf := by
    obtain ⟨answer, sent, hG, hafter⟩ := h.sound hf
    exact ⟨answer, sent, (hiff _ _).mp hG, hafter⟩
  complete hH := h.complete ((hiff _ _).mpr hH)

/-- Nothing is read or written. -/
theorem ok : Speaks .ok fun answer sent => answer = [] ∧ sent = [] where
  sound {c c'} hf := by
    obtain rfl := Except.ok.inj hf
    exact ⟨[], [], ⟨rfl, rfl⟩, .refl c⟩
  complete {c _ _} hG _ _ := by
    obtain ⟨rfl, rfl⟩ := hG
    exact ⟨c, rfl, .refl c⟩

/-- There is no way to succeed. -/
theorem error (e : Status) : Speaks (fun _ => .error e) fun _ _ => False where
  sound hf := nomatch hf
  complete hG := hG.elim

/-- One piece of code and then another. -/
theorem bind (h : Speaks f G) (hk : Speaks k H) :
    Speaks (fun c => f c >>= k) fun answer sent => ∃ answer₁ answer₂ sent₁ sent₂,
      answer = answer₁ ++ answer₂ ∧ sent = sent₁ ++ sent₂ ∧ G answer₁ sent₁ ∧
        H answer₂ sent₂ where
  sound hf := by
    obtain ⟨c₁, hfirst, hrest⟩ := bind_eq_ok.mp hf
    obtain ⟨answer₁, sent₁, hG, hafter⟩ := h.sound hfirst
    obtain ⟨answer₂, sent₂, hH, hafter'⟩ := hk.sound hrest
    exact ⟨_, _, ⟨answer₁, answer₂, sent₁, sent₂, rfl, rfl, hG, hH⟩, hafter.trans hafter'⟩
  complete := by
    rintro c _ _ ⟨answer₁, answer₂, sent₁, sent₂, rfl, rfl, hG, hH⟩ hanswer hroom
    rw [List.length_append] at hroom
    obtain ⟨c₁, hfirst, hafter⟩ :=
      h.complete hG ((List.prefix_append _ _).trans hanswer) (by omega)
    rw [hafter.incoming, List.prefix_append_right_inj] at hanswer
    have hleft := hafter.room
    obtain ⟨c₂, hrest, hafter'⟩ := hk.complete hH hanswer (by omega)
    exact ⟨c₂, bind_eq_ok.mpr ⟨c₁, hfirst, hrest⟩, hafter.trans hafter'⟩

/-- A message. -/
theorem write (data : Bytes) :
    Speaks (·.asyncWrite data) fun answer sent => answer = [] ∧ sent = data where
  sound hf := ⟨[], data, ⟨rfl, rfl⟩, .of_asyncWrite hf⟩
  complete {c _ _} hG _ hroom := by
    obtain ⟨rfl, rfl⟩ := hG
    have hwrite := Socket.asyncWrite_eq_ok.mpr ⟨hroom, rfl⟩
    exact ⟨_, hwrite, .of_asyncWrite hwrite⟩

/-- A message, and what comes behind it. -/
theorem send (data : Bytes) (hk : Speaks k H) :
    Speaks (fun c => c.asyncWrite data >>= k) fun answer sent =>
      ∃ sent', sent = data ++ sent' ∧ H answer sent' :=
  ((write data).bind hk).congr fun answer sent => by
    constructor
    · rintro ⟨_, _, _, sent', rfl, rfl, ⟨rfl, rfl⟩, hH⟩
      exact ⟨sent', rfl, hH⟩
    · rintro ⟨sent', rfl, hH⟩
      exact ⟨[], answer, data, sent', rfl, rfl, ⟨rfl, rfl⟩, hH⟩

/-- `n` bytes are read, and what comes behind depends on them. -/
theorem read {n : Nat} {k : Bytes → Socket → StatusOr Socket}
    {H : Bytes → Bytes → Bytes → Prop} (hk : ∀ bytes, bytes.length = n → Speaks (k bytes) (H bytes)) :
    Speaks (fun c => c.asyncRead n >>= fun got => k got.1 got.2) fun answer sent =>
      ∃ bytes answer', bytes.length = n ∧ answer = bytes ++ answer' ∧ H bytes answer' sent where
  sound hf := by
    obtain ⟨⟨bytes, c₁⟩, hread, hrest⟩ := bind_eq_ok.mp hf
    obtain ⟨hafter, hlen⟩ := Socket.After.of_asyncRead hread
    obtain ⟨answer', sent, hH, hafter'⟩ := (hk bytes hlen).sound hrest
    exact ⟨_, sent, ⟨bytes, answer', hlen, rfl, hH⟩, hafter.trans hafter'⟩
  complete := by
    rintro c _ sent ⟨bytes, answer', rfl, rfl, hH⟩ hanswer hroom
    obtain ⟨c₁, hread⟩ := Socket.exists_asyncRead ((List.prefix_append _ _).trans hanswer)
    have hafter := (Socket.After.of_asyncRead hread).1
    rw [hafter.incoming, List.prefix_append_right_inj] at hanswer
    have hleft : c.room = c₁.room := by simpa using hafter.room
    obtain ⟨c₂, hrest, hafter'⟩ := (hk bytes rfl).complete hH hanswer (hleft ▸ hroom)
    exact ⟨c₂, bind_eq_ok.mpr ⟨(bytes, c₁), hread, hrest⟩, hafter.trans hafter'⟩

/-- A test on what has been read. -/
theorem ite {p : Prop} [Decidable p] (hf : Speaks f G) (hk : Speaks k H) :
    Speaks (fun c => if p then f c else k c) fun answer sent =>
      if p then G answer sent else H answer sent := by
  by_cases hp : p
  · simpa only [if_pos hp] using hf
  · simpa only [if_neg hp] using hk

end Speaks

namespace Socks5Outbound

/-! ## The grammar of the handshake -/

/-- The answer to the credentials. -/
def Admitted (cfg : ProxyConfig) (answer sent : Bytes) : Prop :=
  sent = credentials cfg ∧ ∃ version, answer = [version, 0]

/-- The answer to the method selection, with that to the credentials if they are asked for. -/
def Selected (cfg : ProxyConfig) (answer sent : Bytes) : Prop :=
  ∃ method answer' sent', method ≠ 0xFF ∧ answer = [5, method] ++ answer' ∧
    sent = greeting cfg ++ sent' ∧
      if method = 2 then Admitted cfg answer' sent' else answer' = [] ∧ sent' = []

/-- The bound address in the last answer, with its port. -/
inductive BoundAddress : Bytes → Prop where
  | ipv4 {bytes : Bytes} (hlen : bytes.length = 6) : BoundAddress (1 :: bytes)
  | ipv6 {bytes : Bytes} (hlen : bytes.length = 18) : BoundAddress (4 :: bytes)
  | domain {n : UInt8} {bytes : Bytes} (hlen : bytes.length = n.toNat + 2) :
    BoundAddress (3 :: n :: bytes)

/-- The answer to the request. -/
def Connected (target : Address) (answer sent : Bytes) : Prop :=
  sent = [5, 1, 0] ++ targetBytes target ∧
    ∃ version reserved bound, answer = [version, 0, reserved] ++ bound ∧ BoundAddress bound

/-- The answers to the whole handshake. -/
def Answered (cfg : ProxyConfig) (target : Address) (answer sent : Bytes) : Prop :=
  ∃ answer₁ answer₂ sent₁ sent₂, answer = answer₁ ++ answer₂ ∧ sent = sent₁ ++ sent₂ ∧
    Selected cfg answer₁ sent₁ ∧ Connected target answer₂ sent₂

section Grammar

variable (cfg : ProxyConfig) (target : Address)

theorem authenticate_speaks : Speaks (authenticate cfg) (Admitted cfg) := by
  have hread : Speaks (fun c => c.asyncRead 2 >>= fun got =>
      if got.1.getD 1 0 ≠ 0 then .error (.unauthenticated (ascii "socks5 auth failed"))
      else .ok got.2) _ :=
    .read fun ar _ => .ite (p := ar.getD 1 0 ≠ 0) (.error _) .ok
  refine (hread.send (credentials cfg)).congr fun answer sent => ?_
  constructor
  · rintro ⟨sent', rfl, ar, answer', hlen, rfl, hcode⟩
    obtain ⟨version, code, rfl⟩ := List.length_eq_two.mp hlen
    split_ifs at hcode with hne
    obtain ⟨rfl, rfl⟩ := hcode
    obtain rfl : code = 0 := not_not.mp hne
    exact ⟨List.append_nil _, version, rfl⟩
  · rintro ⟨rfl, version, rfl⟩
    exact ⟨[], (List.append_nil _).symm, [version, 0], [], rfl, rfl, rfl, rfl⟩

theorem selectMethod_speaks : Speaks (selectMethod cfg) (Selected cfg) := by
  have hread : Speaks (fun c => c.asyncRead 2 >>= fun got =>
      if got.1.getD 0 0 ≠ 5 then .error (.unavailable (ascii "bad socks5 ver"))
      else if got.1.getD 1 0 = 0xFF then .error (.unavailable (ascii "no acceptable method"))
      else if got.1.getD 1 0 = 2 then authenticate cfg got.2
      else .ok got.2) _ :=
    .read fun reply _ => .ite (p := reply.getD 0 0 ≠ 5) (.error _)
      (.ite (p := reply.getD 1 0 = 0xFF) (.error _)
        (.ite (p := reply.getD 1 0 = 2) (authenticate_speaks cfg) .ok))
  refine (hread.send (greeting cfg)).congr fun answer sent => ?_
  constructor
  · rintro ⟨sent', rfl, reply, answer', hlen, rfl, hrest⟩
    obtain ⟨version, method, rfl⟩ := List.length_eq_two.mp hlen
    simp only [List.getD_cons_zero, List.getD_cons_succ] at hrest
    split_ifs at hrest with hversion hmethod hauth
    · obtain rfl : version = 5 := not_not.mp hversion
      exact ⟨method, answer', sent', hmethod, rfl, rfl, by rwa [if_pos hauth]⟩
    · obtain rfl : version = 5 := not_not.mp hversion
      exact ⟨method, answer', sent', hmethod, rfl, rfl, by rwa [if_neg hauth]⟩
  · rintro ⟨method, answer', sent', hmethod, rfl, rfl, hrest⟩
    refine ⟨sent', rfl, [5, method], answer', rfl, rfl, ?_⟩
    simp only [List.getD_cons_zero, List.getD_cons_succ]
    rwa [if_neg (not_not.mpr rfl), if_neg hmethod]

theorem boundAddress_cons {atyp : UInt8} {answer : Bytes} :
    BoundAddress (atyp :: answer)
      ↔ (atyp = 1 ∧ answer.length = 6) ∨ (atyp = 4 ∧ answer.length = 18) ∨
        (atyp = 3 ∧ ∃ n bytes, answer = n :: bytes ∧ bytes.length = n.toNat + 2) := by
  constructor
  · intro h
    cases h with
    | ipv4 hlen => exact .inl ⟨rfl, hlen⟩
    | ipv6 hlen => exact .inr (.inl ⟨rfl, hlen⟩)
    | @domain n bytes hlen => exact .inr (.inr ⟨rfl, n, bytes, rfl, hlen⟩)
  · rintro (⟨rfl, hlen⟩ | ⟨rfl, hlen⟩ | ⟨rfl, n, bytes, rfl, hlen⟩)
    · exact .ipv4 hlen
    · exact .ipv6 hlen
    · exact .domain hlen

/-- The bound address is skipped. -/
theorem boundLength_speaks (atyp : UInt8) :
    Speaks (fun c => boundLength atyp c >>= fun got => got.2.asyncRead (got.1 + 2) >>= fun got =>
        .ok got.2)
      fun answer sent => sent = [] ∧ BoundAddress (atyp :: answer) := by
  -- the address and the port are read together
  have hskip : ∀ n, Speaks (fun c => c.asyncRead (n + 2) >>= fun got => .ok got.2)
      fun answer sent => sent = [] ∧ answer.length = n + 2 := by
    intro n
    refine (Speaks.read fun _ _ => .ok).congr fun answer sent => ?_
    constructor
    · rintro ⟨bytes, _, hlen, rfl, rfl, rfl⟩
      exact ⟨rfl, by rwa [List.append_nil]⟩
    · rintro ⟨rfl, hlen⟩
      exact ⟨answer, [], hlen, (List.append_nil _).symm, rfl, rfl⟩
  by_cases h1 : atyp = 1
  · subst h1
    exact (hskip 4).congr fun answer sent => by simp [boundAddress_cons]
  by_cases h4 : atyp = 4
  · subst h4
    exact (hskip 16).congr fun answer sent => by simp [boundAddress_cons]
  by_cases h3 : atyp = 3
  · subst h3
    have hread : Speaks (fun c => c.asyncRead 1 >>= fun got =>
        got.2.asyncRead ((got.1.getD 0 0).toNat + 2) >>= fun got => .ok got.2) _ :=
      .read fun dl _ => hskip (dl.getD 0 0).toNat
    have hlength : (fun c => boundLength 3 c >>= fun got =>
        got.2.asyncRead (got.1 + 2) >>= fun got => .ok got.2) =
        fun c : Socket => c.asyncRead 1 >>= fun got =>
          got.2.asyncRead ((got.1.getD 0 0).toNat + 2) >>= fun got => .ok got.2 := by
      funext c
      exact bind_assoc ..
    rw [hlength]
    refine hread.congr fun answer sent => ?_
    rw [boundAddress_cons]
    constructor
    · rintro ⟨dl, answer', hlen, rfl, rfl, hrest⟩
      obtain ⟨n, rfl⟩ := List.length_eq_one_iff.mp hlen
      exact ⟨rfl, .inr (.inr ⟨rfl, n, answer', rfl, hrest⟩)⟩
    · rintro ⟨rfl, ⟨hne, -⟩ | ⟨hne, -⟩ | ⟨-, n, bytes, rfl, hlen⟩⟩
      · exact absurd hne (by decide)
      · exact absurd hne (by decide)
      · exact ⟨[n], bytes, rfl, rfl, rfl, hlen⟩
  · have hfail : (fun c => boundLength atyp c >>= fun got =>
        got.2.asyncRead (got.1 + 2) >>= fun got => .ok got.2) =
        fun _ : Socket => .error (.unavailable (ascii "bad socks5 atyp")) := by
      funext c
      rw [boundLength, if_neg h1, if_neg h4, if_neg h3]
      rfl
    rw [hfail]
    exact (Speaks.error _).congr fun answer sent => by simp [boundAddress_cons, h1, h4, h3]

theorem requestConnect_speaks : Speaks (requestConnect target) (Connected target) := by
  have hread : Speaks (fun c => c.asyncRead 4 >>= fun got =>
      if got.1.getD 1 0 ≠ 0 then .error (.unavailable (ascii "socks5 CONNECT rejected"))
      else boundLength (got.1.getD 3 0) got.2 >>= fun got =>
        got.2.asyncRead (got.1 + 2) >>= fun got => .ok got.2) _ :=
    .read fun rep _ => .ite (p := rep.getD 1 0 ≠ 0) (.error _) (boundLength_speaks (rep.getD 3 0))
  refine (hread.send ([5, 1, 0] ++ targetBytes target)).congr fun answer sent => ?_
  constructor
  · rintro ⟨sent', rfl, rep, answer', hlen, rfl, hrest⟩
    obtain ⟨version, code, reserved, atyp, rfl⟩ : ∃ a b c d, rep = [a, b, c, d] := by
      match rep, hlen with
      | [a, b, c, d], _ => exact ⟨a, b, c, d, rfl⟩
    simp only [List.getD_cons_zero, List.getD_cons_succ] at hrest
    split_ifs at hrest with hcode
    obtain rfl : code = 0 := not_not.mp hcode
    obtain ⟨rfl, hbound⟩ := hrest
    exact ⟨List.append_nil _, version, reserved, atyp :: answer', rfl, hbound⟩
  · rintro ⟨rfl, version, reserved, bound, rfl, hbound⟩
    obtain ⟨atyp, answer', rfl⟩ : ∃ atyp answer', bound = atyp :: answer' := by
      cases hbound with
      | ipv4 => exact ⟨_, _, rfl⟩
      | ipv6 => exact ⟨_, _, rfl⟩
      | domain => exact ⟨_, _, rfl⟩
    refine ⟨[], (List.append_nil _).symm, [version, 0, reserved, atyp], answer', rfl, rfl, ?_⟩
    simp only [List.getD_cons_zero, List.getD_cons_succ]
    rw [if_neg (not_not.mpr rfl)]
    exact ⟨trivial, hbound⟩

end Grammar

/-- **The outbound opens a tunnel on exactly the answers of the grammar**, however they are cut
into pieces. What it has sent by then is given by them, and the tunnel starts with what
follows them. -/
theorem socks5_tunnel_iff (A : Asio) (cfg : ProxyConfig) (req : SessionRequest) (c : Socket)
    (hconn : cfg.connect A = .ok c) (sent rest : Bytes) :
    (∃ remote, dial A cfg req = .ok remote ∧ remote.outgoing = c.outgoing ++ sent ∧
        remote.Delivers rest)
      ↔ sent.length ≤ c.room ∧
        ∃ answer, Answered cfg req.target answer sent ∧ c.incoming.flatten = answer ++ rest := by
  have hspeaks : Speaks (fun c => selectMethod cfg c >>= requestConnect req.target)
      (Answered cfg req.target) :=
    (selectMethod_speaks cfg).bind (requestConnect_speaks req.target)
  have hdial : dial A cfg req = selectMethod cfg c >>= requestConnect req.target := by
    rw [dial, hconn]
    rfl
  rw [hdial]
  simp only [Socket.delivers_iff]
  constructor
  · rintro ⟨remote, hremote, hout, rfl⟩
    obtain ⟨answer, sent', hanswered, hafter⟩ := hspeaks.sound hremote
    obtain rfl : sent = sent' := List.append_cancel_left (hout.symm.trans hafter.outgoing)
    exact ⟨hafter.room ▸ Nat.le_add_right _ _, answer, hanswered, hafter.incoming⟩
  · rintro ⟨hroom, answer, hanswered, hstream⟩
    have hanswer : answer <+: c.incoming.flatten := hstream ▸ List.prefix_append _ _
    obtain ⟨remote, hremote, hafter⟩ := hspeaks.complete hanswered hanswer hroom
    refine ⟨remote, hremote, hafter.outgoing, ?_⟩
    exact List.append_cancel_left (hafter.incoming.symm.trans hstream)

/-- The answers of a proxy, cut across, with one byte behind them. -/
def samplePieces : List Bytes := [[5, 2, 9], [0, 4, 0, 7, 1, 1, 2], [3, 4, 0, 80, 42]]

/-- The proxy selects a method that was not offered, and uses other versions. -/
theorem socks5_tunnel_iff_unoffered :
    ∃ remote, dial (.connecting (.sample samplePieces)) .sample sampleRequest = .ok remote ∧
      remote.outgoing = [5, 2, 0] ++ [1, 0, 0] ++ [5, 1, 0, 3, 1, 97, 0, 1] ∧
      remote.Delivers [42] := by
  refine (socks5_tunnel_iff (.connecting (.sample samplePieces)) .sample sampleRequest
    (.sample samplePieces) rfl ([5, 2, 0] ++ [1, 0, 0] ++ [5, 1, 0, 3, 1, 97, 0, 1]) [42]).mpr
    ⟨by decide, [5, 2, 9, 0] ++ [4, 0, 7, 1, 1, 2, 3, 4, 0, 80], ?_, rfl⟩
  refine ⟨_, _, [5, 2, 0] ++ [1, 0, 0], _, rfl, rfl, ?_, ?_⟩
  · exact ⟨2, [9, 0], [1, 0, 0], by decide, rfl, rfl, rfl, 9, rfl⟩
  · exact ⟨rfl, 4, 7, [1, 1, 2, 3, 4, 0, 80], rfl, .ipv4 rfl⟩

end Socks5Outbound

end Shine
