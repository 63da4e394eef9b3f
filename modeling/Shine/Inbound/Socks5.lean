import Shine.Inbound.Socks5Udp
import Shine.Lib.Duplex
import Shine.Outbound.Dial

/-!
# SOCKS5, from both ends (`inbound/socks5_inbound.cpp`, `outbound/socks5_outbound.cpp`)

`Socks5Inbound::handleClient` and the handshake of `Socks5Outbound::handle` as processes
on a byte channel in each direction; run on a connection, the latter is `dial`
(`dial_eq_talk`). Lengths are announced in the stream: the number of methods, the lengths
of user name and password, the type of the address. The two agree except for the greeting
of an outbound without a user, which announces two methods and sends one; the inbound then
waits for the second one and the outbound for its answer (`interoperate`).
-/

namespace Shine

open Address (portAt arrayAt)

/-! ## The inbound -/

namespace Socks5Inbound

/-- What a client was granted. -/
inductive Granted where
  | connect (target : Address)
  | udpAssociate
  deriving DecidableEq

/-- A piece of `handleClient`: it ends with what the client was granted, or early. -/
abbrev Handling := Proc UInt8 (Option Granted)

/-- The loop over the methods that the client offers. -/
def chooseMethod (requireAuth : Bool) : List UInt8 → UInt8
  | [] => 0xFF
  | m :: methods =>
    if !requireAuth && m = 0 then 0
    else if requireAuth && m = 2 then 2
    else chooseMethod requireAuth methods

/-- The user name and password exchange. -/
def authenticate (user pass : Bytes) (next : Handling) : Handling :=
  .readExact 1 fun v =>
    if v.getD 0 0 ≠ 1 then .done none
    else .readExact 1 fun ulen =>
      .readExact (ulen.getD 0 0).toNat fun u =>
      .readExact 1 fun plen =>
      .readExact (plen.getD 0 0).toNat fun p =>
        let status : UInt8 := if u = user ∧ p = pass then 0 else 1
        .write [1, status] (if status ≠ 0 then .done none else next)

/-- The target of the request. -/
def readTarget (atyp : UInt8) (next : Address → Handling) : Handling :=
  if atyp = 1 then .readExact 6 fun buf => next (.ipv4 (arrayAt buf 0 4) (portAt buf 4))
  else if atyp = 3 then
    .readExact 1 fun dlen =>
      .readExact (dlen.getD 0 0).toNat fun d =>
      .readExact 2 fun pb => next (.domain d (portAt pb 0))
  else if atyp = 4 then .readExact 18 fun buf => next (.ipv6 (arrayAt buf 0 16) (portAt buf 16))
  else .done none

/-- The request; `localEp` is what binding a UDP socket gives. -/
def request (localEp : Except Bytes (ByteArrayN 4 × UInt16)) : Handling :=
  .readExact 4 fun reqHdr =>
    let cmd := reqHdr.getD 1 0
    if reqHdr.getD 0 0 ≠ 5 ∨ (cmd ≠ 1 ∧ cmd ≠ 3) then
      .write [5, 7, 0, 1, 0, 0, 0, 0, 0, 0] (.done none)
    else readTarget (reqHdr.getD 3 0) fun target =>
      if cmd = 3 then
        match localEp with
        | .error _ => .write [5, 1, 0, 1, 0, 0, 0, 0, 0, 0] (.done none)
        | .ok (bytes, port) =>
          .write ([5, 0, 0, 1] ++ bytes.1 ++ Address.portBytes port) (.done (some .udpAssociate))
      else .write [5, 0, 0, 1, 0, 0, 0, 0, 0, 0] (.done (some (.connect target)))

/-- `Socks5Inbound::handleClient` up to `on_req_`. -/
def handleClient (user pass : Bytes) (localEp : Except Bytes (ByteArrayN 4 × UInt16)) :
    Handling :=
  .readExact 2 fun hdr =>
    if hdr.getD 0 0 ≠ 5 then .done none
    else if hdr.getD 1 0 = 0 then .done none
    else .readExact (hdr.getD 1 0).toNat fun methods =>
      let requireAuth := user ≠ [] || pass ≠ []
      let chosen := chooseMethod requireAuth methods
      .write [5, chosen] <|
        if chosen = 0xFF then .done none
        else if requireAuth then authenticate user pass (request localEp)
        else request localEp

end Socks5Inbound

/-! ## The outbound -/

namespace Socks5Outbound

/-- A piece of the handshake: it ends with the status that `handle` returns. -/
abbrev Handling := Proc UInt8 (StatusOr Unit)

/-- `authenticate`, as a process. -/
def talkAuthenticate (cfg : ProxyConfig) (next : Handling) : Handling :=
  .write (credentials cfg) <| .readExact 2 fun ar =>
    if ar.getD 1 0 ≠ 0 then .done (.error (.unauthenticated (ascii "socks5 auth failed")))
    else next

/-- `selectMethod`, as a process. -/
def talkSelectMethod (cfg : ProxyConfig) (next : Handling) : Handling :=
  .write (greeting cfg) <| .readExact 2 fun reply =>
    if reply.getD 0 0 ≠ 5 then .done (.error (.unavailable (ascii "bad socks5 ver")))
    else if reply.getD 1 0 = 0xFF then
      .done (.error (.unavailable (ascii "no acceptable method")))
    else if reply.getD 1 0 = 2 then talkAuthenticate cfg next
    else next

/-- `boundLength`, as a process. -/
def talkBoundLength (atyp : UInt8) (next : Nat → Handling) : Handling :=
  if atyp = 1 then next 4
  else if atyp = 4 then next 16
  else if atyp = 3 then .readExact 1 fun dl => next (dl.getD 0 0).toNat
  else .done (.error (.unavailable (ascii "bad socks5 atyp")))

/-- `requestConnect`, as a process. -/
def talkRequestConnect (target : Address) (next : Handling) : Handling :=
  .write ([5, 1, 0] ++ targetBytes target) <| .readExact 4 fun rep =>
    if rep.getD 1 0 ≠ 0 then .done (.error (.unavailable (ascii "socks5 CONNECT rejected")))
    else talkBoundLength (rep.getD 3 0) fun extra => .readExact (extra + 2) fun _ => next

/-- The handshake of `Socks5Outbound::handle`, and then `data` of the client. -/
def talk (cfg : ProxyConfig) (target : Address) (data : Bytes) : Handling :=
  talkSelectMethod cfg (talkRequestConnect target (.write data (.done (.ok ()))))

end Socks5Outbound

/-! ## The process is the handshake of `Socks5Outbound.dial` -/

namespace Socket

theorem asyncWrite_cons (c : Socket) (b : UInt8) (bs : Bytes) :
    c.asyncWrite (b :: bs) = c.asyncWrite [b] >>= fun c => c.asyncWrite bs := by
  simp only [asyncWrite, List.length_cons, List.length_nil, bind, Except.bind]
  by_cases hone : 0 + 1 ≤ c.room
  · have hroom : bs.length + 1 ≤ c.room ↔ bs.length ≤ c.room - (0 + 1) := by omega
    simp [hone, hroom, Nat.sub_sub, Nat.add_comm]
  · rw [if_neg hone, if_neg (by omega)]

theorem takeBytes_succ (n : Nat) (pieces : List Bytes) :
    takeBytes (n + 1) pieces = (takeBytes 1 pieces).bind fun (first, rest) =>
      (takeBytes n rest).map fun (out, rest) => (first ++ out, rest) := by
  induction pieces with
  | nil => simp [takeBytes]
  | cons piece pieces ih =>
    cases piece with
    | nil => simpa [takeBytes] using ih
    | cons b bs =>
      by_cases hn : n ≤ bs.length <;> simp [takeBytes, hn, Function.comp_def]

theorem length_takeBytes {n : Nat} {pieces rest : List Bytes} {out : Bytes}
    (h : takeBytes n pieces = some (out, rest)) : out.length = n := by
  induction pieces generalizing n out with
  | nil =>
    rw [takeBytes] at h
    split at h
    · next hn =>
      cases h
      exact hn.symm
    · cases h
  | cons piece pieces ih =>
    rw [takeBytes] at h
    split at h
    · next hn =>
      cases h
      rw [List.length_take, Nat.min_eq_left hn]
    · next hn =>
      obtain ⟨⟨out', rest'⟩, htake, heq⟩ := Option.map_eq_some_iff.mp h
      cases heq
      rw [List.length_append, ih htake]
      omega

end Socket

namespace Socks5Outbound

/-- Run the process on a connection; `handle` returns early with the error of a read, of a
write or of the process. -/
def runOn : Handling → Socket → StatusOr Socket
  | .done status, c => status.map fun _ => c
  | .send b next, c => do
    let c ← c.asyncWrite [b]
    runOn next c
  | .recv next, c => do
    let (bs, c) ← c.asyncRead 1
    runOn (next (bs.getD 0 0)) c

theorem runOn_write (bs : Bytes) (p : Handling) (c : Socket) :
    runOn (.write bs p) c = c.asyncWrite bs >>= runOn p := by
  induction bs generalizing c with
  | nil => simp [Proc.write, Socket.asyncWrite, bind, Except.bind]
  | cons b bs ih =>
    rw [Socket.asyncWrite_cons, Proc.write, runOn, bind_assoc]
    exact bind_congr fun c => ih c

theorem runOn_readExact (n : Nat) (next : Bytes → Handling) (c : Socket) :
    runOn (.readExact n next) c = c.asyncRead n >>= fun got => runOn (next got.1) got.2 := by
  induction n generalizing c next with
  | zero =>
    have hzero : Socket.takeBytes 0 c.incoming = some ([], c.incoming) := by
      cases c.incoming <;> simp [Socket.takeBytes]
    simp only [Proc.readExact, Socket.asyncRead, hzero, bind, Except.bind]
  | succ n ih =>
    simp only [Proc.readExact, runOn, ih, Socket.asyncRead, Socket.takeBytes_succ n]
    cases hone : Socket.takeBytes 1 c.incoming with
    | none => rfl
    | some got =>
      obtain ⟨first, rest⟩ := got
      obtain ⟨b, rfl⟩ := List.length_eq_one_iff.mp (Socket.length_takeBytes hone)
      simp only [Option.bind_some, bind, Except.bind]
      cases Socket.takeBytes n rest <;> rfl

theorem runOn_talkAuthenticate (cfg : ProxyConfig) (next : Handling) (c : Socket) :
    runOn (talkAuthenticate cfg next) c = authenticate cfg c >>= runOn next := by
  simp only [talkAuthenticate, authenticate, runOn_write, bind_assoc]
  refine bind_congr fun c => (runOn_readExact ..).trans (bind_congr fun got => ?_)
  split <;> rfl

theorem runOn_talkSelectMethod (cfg : ProxyConfig) (next : Handling) (c : Socket) :
    runOn (talkSelectMethod cfg next) c = selectMethod cfg c >>= runOn next := by
  simp only [talkSelectMethod, selectMethod, runOn_write, bind_assoc]
  refine bind_congr fun c => (runOn_readExact ..).trans (bind_congr fun got => ?_)
  split_ifs
  · rfl
  · rfl
  · exact runOn_talkAuthenticate cfg next got.2
  · rfl

theorem runOn_talkBoundLength (atyp : UInt8) (next : Nat → Handling) (c : Socket) :
    runOn (talkBoundLength atyp next) c
      = boundLength atyp c >>= fun got => runOn (next got.1) got.2 := by
  rw [talkBoundLength, boundLength]
  split_ifs
  · rfl
  · rfl
  · rw [runOn_readExact, bind_assoc]
    rfl
  · rfl

theorem runOn_talkRequestConnect (target : Address) (next : Handling) (c : Socket) :
    runOn (talkRequestConnect target next) c = requestConnect target c >>= runOn next := by
  simp only [talkRequestConnect, requestConnect, runOn_write, bind_assoc]
  refine bind_congr fun c => (runOn_readExact ..).trans (bind_congr fun got => ?_)
  split_ifs
  · rfl
  · simp only [runOn_talkBoundLength, runOn_readExact, bind_assoc]
    rfl

/-- **On a connection, the process does what `Socks5Outbound.dial` does.** -/
theorem dial_eq_talk (A : Asio) (cfg : ProxyConfig) (req : SessionRequest) :
    dial A cfg req = cfg.connect A >>= runOn (talk cfg req.target []) := by
  refine bind_congr fun c => ?_
  rw [talk, runOn_talkSelectMethod]
  refine bind_congr fun c => ?_
  rw [runOn_talkRequestConnect]
  exact (bind_pure (requestConnect req.target c)).symm

end Socks5Outbound

/-! ## One conversation -/

section Conversation

variable {cfg : ProxyConfig} {p : Socks5Outbound.Handling} {q rest sent : Bytes}

/-- The inbound takes the credentials that the outbound sends. -/
theorem reach_authenticate {next : Socks5Inbound.Handling} (hu : cfg.user.length ≤ 255)
    (hp : cfg.pass.length ≤ 255) :
    (Duplex.system _ _ _).Reach Lts.Free
      ⟨p, Socks5Inbound.authenticate cfg.user cfg.pass next, q,
        Socks5Outbound.credentials cfg ++ rest, sent⟩
      ⟨p, .write [1, 0] next, q, rest, sent⟩ := by
  have hbytes : Socks5Outbound.credentials cfg ++ rest
      = [1] ++ ([cfg.user.length.toUInt8] ++ (cfg.user ++ ([cfg.pass.length.toUInt8]
        ++ (cfg.pass ++ rest)))) := by simp [Socks5Outbound.credentials]
  have hulen : (List.getD [cfg.user.length.toUInt8] 0 0).toNat = cfg.user.length :=
    Address.toNat_length_toUInt8 hu
  have hplen : (List.getD [cfg.pass.length.toUInt8] 0 0).toNat = cfg.pass.length :=
    Address.toNat_length_toUInt8 hp
  rw [hbytes, Socks5Inbound.authenticate]
  refine (Duplex.Reach.read_right [1]).trans ?_
  rw [if_neg (by decide)]
  refine (Duplex.Reach.read_right [_]).trans ?_
  rw [hulen]
  refine (Duplex.Reach.read_right cfg.user).trans ?_
  refine (Duplex.Reach.read_right [_]).trans ?_
  rw [hplen]
  refine (Duplex.Reach.read_right cfg.pass).trans ?_
  simp only [and_self, if_true, not_true_eq_false, ne_eq, if_false]
  exact .refl

/-- The name of a domain fits its length byte. -/
def Address.NameFits : Address → Prop
  | .domain name _ => name.length ≤ 255
  | _ => True

/-- The bytes of an address and its port, read at once. -/
theorem reach_readArray {n : Nat} (bytes : ByteArrayN n) (port : UInt16)
    (next : ByteArrayN n → UInt16 → Socks5Inbound.Handling) :
    (Duplex.system _ _ _).Reach Lts.Free
      ⟨p, .readExact (n + 2) fun buf => next (arrayAt buf 0 n) (portAt buf n), q,
        bytes.1 ++ Address.portBytes port ++ rest, sent⟩
      ⟨p, next bytes port, q, rest, sent⟩ := by
  have hlen : (bytes.1 ++ Address.portBytes port).length = n + 2 := by
    rw [List.length_append, bytes.2, Address.length_portBytes]
  have hport : portAt (bytes.1 ++ Address.portBytes port) n = port := by
    have happ := Address.portAt_append bytes.1 [] port
    rwa [bytes.2, List.append_nil] at happ
  rw [← hlen]
  refine (Duplex.Reach.read_right _).trans ?_
  rw [Address.arrayAt_append, hport]
  exact .refl

/-- The inbound takes the target that the outbound sends. -/
theorem reach_readTarget {target : Address} (ht : target.NameFits) :
    ∃ atyp body, Socks5Outbound.targetBytes target = atyp :: body ∧
      ∀ next : Address → Socks5Inbound.Handling,
        (Duplex.system _ _ _).Reach Lts.Free
          ⟨p, Socks5Inbound.readTarget atyp next, q, body ++ rest, sent⟩
          ⟨p, next target, q, rest, sent⟩ := by
  cases target with
  | ipv4 bytes port =>
    refine ⟨1, bytes.1 ++ Address.portBytes port, rfl, fun next => ?_⟩
    rw [Socks5Inbound.readTarget, if_pos rfl]
    exact reach_readArray bytes port fun bytes port => next (.ipv4 bytes port)
  | ipv6 bytes port =>
    refine ⟨4, bytes.1 ++ Address.portBytes port, rfl, fun next => ?_⟩
    rw [Socks5Inbound.readTarget, if_neg (by decide), if_neg (by decide), if_pos rfl]
    exact reach_readArray bytes port fun bytes port => next (.ipv6 bytes port)
  | domain name port =>
    refine ⟨3, [(min 255 name.length).toUInt8] ++ (name ++ Address.portBytes port), by
      simp [Socks5Outbound.targetBytes], fun next => ?_⟩
    have hlen : min 255 name.length = name.length := Nat.min_eq_right ht
    have hdlen : (List.getD [name.length.toUInt8] 0 0).toNat = name.length :=
      Address.toNat_length_toUInt8 ht
    rw [Socks5Inbound.readTarget, if_neg (by decide), if_pos rfl, hlen, List.append_assoc,
      List.append_assoc]
    refine (Duplex.Reach.read_right [_]).trans ?_
    rw [hdlen]
    refine (Duplex.Reach.read_right name).trans ?_
    refine (Duplex.Reach.read_right (Address.portBytes port)).trans ?_
    have hport : portAt (Address.portBytes port) 0 = port := Address.portOf_portBytes port
    rw [hport]
    exact .refl

/-- What the outbound sends before the data of its client. -/
def Socks5Outbound.preamble (cfg : ProxyConfig) (target : Address) : Bytes :=
  greeting cfg ++ credentials cfg ++ ([5, 1, 0] ++ targetBytes target)

/-- The two ends before either has done anything. -/
def conversation (cfg : ProxyConfig) (target : Address) (data : Bytes)
    (localEp : Except Bytes (ByteArrayN 4 × UInt16)) :
    Duplex UInt8 (StatusOr Unit) (Option Socks5Inbound.Granted) :=
  .start (Socks5Outbound.talk cfg target data)
    (Socks5Inbound.handleClient cfg.user cfg.pass localEp)

/-- With a user the outbound offers two methods, and the inbound takes the second. -/
theorem reach_selectMethod {localEp : Except Bytes (ByteArrayN 4 × UInt16)}
    {next : Socks5Outbound.Handling} (huser : cfg.user ≠ []) (hu : cfg.user.length ≤ 255)
    (hp : cfg.pass.length ≤ 255) :
    (Duplex.system _ _ _).Reach Lts.Free
      (.start (Socks5Outbound.talkSelectMethod cfg next)
        (Socks5Inbound.handleClient cfg.user cfg.pass localEp))
      ⟨next, Socks5Inbound.request localEp, [], [],
        Socks5Outbound.greeting cfg ++ Socks5Outbound.credentials cfg⟩ := by
  have hgreet : Socks5Outbound.greeting cfg = [5, 2, 0, 2] := by
    rw [Socks5Outbound.greeting, if_pos huser]
    rfl
  have hauth : (decide (cfg.user ≠ []) || decide (cfg.pass ≠ [])) = true := by simp [huser]
  rw [Duplex.start, Socks5Outbound.talkSelectMethod, hgreet, Socks5Inbound.handleClient]
  refine (Duplex.Reach.write_left _).trans ?_
  refine (Duplex.Reach.read_right [5, 2]).trans ?_
  rw [if_neg (by decide), if_neg (by decide)]
  refine (Duplex.Reach.read_right [0, 2]).trans ?_
  rw [hauth]
  refine (Duplex.Reach.write_right [5, 2]).trans ?_
  refine (Duplex.Reach.read_left [5, 2]).trans ?_
  rw [if_neg (by decide), if_neg (by decide), if_pos (by decide)]
  refine (Duplex.Reach.write_left _).trans ?_
  rw [if_neg (by decide), if_pos rfl, ← List.append_nil ([] ++ Socks5Outbound.credentials cfg)]
  refine (reach_authenticate hu hp).trans ?_
  refine (Duplex.Reach.write_right [1, 0]).trans ?_
  refine (Duplex.Reach.read_left [1, 0]).trans ?_
  rw [if_neg (by decide)]
  exact .refl

/-- The request is answered with a bound address of ten bytes, which the outbound skips. -/
theorem reach_requestConnect {target : Address} (ht : target.NameFits)
    {localEp : Except Bytes (ByteArrayN 4 × UInt16)} {next : Socks5Outbound.Handling} :
    (Duplex.system _ _ _).Reach Lts.Free
      ⟨Socks5Outbound.talkRequestConnect target next, Socks5Inbound.request localEp, [], [], sent⟩
      ⟨next, .done (some (.connect target)), [], [],
        sent ++ ([5, 1, 0] ++ Socks5Outbound.targetBytes target)⟩ := by
  unfold Socks5Outbound.talkRequestConnect Socks5Inbound.request
  refine (Duplex.Reach.write_left _).trans ?_
  generalize hsent : sent ++ ([5, 1, 0] ++ Socks5Outbound.targetBytes target) = sent'
  obtain ⟨atyp, body, hbytes, hread⟩ := reach_readTarget ht
  rw [hbytes, ← List.append_nil ([] ++ ([5, 1, 0] ++ atyp :: body))]
  refine (Duplex.Reach.read_right [5, 1, 0, atyp]).trans ?_
  rw [if_neg (by simp)]
  refine (hread _).trans ?_
  rw [if_neg (by simp)]
  refine (Duplex.Reach.write_right _).trans ?_
  refine (Duplex.Reach.read_left [5, 0, 0, 1]).trans ?_
  rw [if_neg (by decide), Socks5Outbound.talkBoundLength, if_pos (by decide)]
  exact Duplex.Reach.read_left [0, 0, 0, 0, 0, 0]

end Conversation

/-- No state deadlocks before the inbound has granted the request; it grants the target
that was asked for, and nothing that follows the request has been taken. -/
def Interoperates (cfg : ProxyConfig) (target : Address) (data : Bytes)
    (localEp : Except Bytes (ByteArrayN 4 × UInt16)) : Prop :=
  ∀ s, (Duplex.system _ _ _).Reach Lts.Free (conversation cfg target data localEp) s →
    ¬ s.Deadlock ∧ ∀ granted, s.right = .done granted →
      granted = some (.connect target) ∧
        s.sent = Socks5Outbound.preamble cfg target ++ s.toRight

/-- Without a user the inbound waits for a second method and the outbound for its answer. -/
theorem reach_deadlock {cfg : ProxyConfig} {target : Address} {data : Bytes}
    {localEp : Except Bytes (ByteArrayN 4 × UInt16)} (huser : cfg.user = []) :
    ∃ s, (Duplex.system _ _ _).Reach Lts.Free (conversation cfg target data localEp) s
      ∧ s.Deadlock := by
  have hgreet : Socks5Outbound.greeting cfg = [5, 2, 0] := by
    rw [Socks5Outbound.greeting, if_neg (not_not_intro huser)]
    rfl
  obtain ⟨lnext, rnext, hwait⟩ : ∃ lnext rnext, (Duplex.system _ _ _).Reach Lts.Free
      (conversation cfg target data localEp)
      ⟨.readExact 2 lnext, .readExact 2 rnext, [], [0], [5, 2, 0]⟩ := by
    unfold conversation Socks5Outbound.talk Socks5Outbound.talkSelectMethod
      Socks5Inbound.handleClient
    rw [hgreet]
    refine ⟨?lnext, ?rnext, (Duplex.Reach.write_left _).trans ?run⟩
    case run =>
      refine (Duplex.Reach.read_right [5, 2]).trans ?_
      rw [if_neg (by decide), if_neg (by decide)]
      exact .refl
  -- the byte that was sent is taken, the one that was announced is missing
  have hlast := hwait.tail (e := Turn.right) trivial rfl
  exact ⟨_, hlast, ⟨_, rfl⟩, ⟨_, rfl⟩, rfl, rfl⟩

/-- **The SOCKS5 client and server interoperate exactly if a user is configured.** -/
theorem interoperate {cfg : ProxyConfig} {target : Address} (hu : cfg.user.length ≤ 255)
    (hp : cfg.pass.length ≤ 255) (ht : target.NameFits) (data : Bytes)
    (localEp : Except Bytes (ByteArrayN 4 × UInt16)) :
    Interoperates cfg target data localEp ↔ cfg.user ≠ [] := by
  constructor
  · intro h huser
    obtain ⟨s, hreach, hdead⟩ := reach_deadlock huser
    exact (h s hreach).1 hdead
  · intro huser s hreach
    -- one conversation from its start to its end
    have hend : (Duplex.system _ _ _).Reach Lts.Free (conversation cfg target data localEp)
        ⟨.done (.ok ()), .done (some (.connect target)), [], data,
          Socks5Outbound.preamble cfg target ++ data⟩ :=
      ((reach_selectMethod huser hu hp).trans (reach_requestConnect ht)).trans
        (Duplex.Reach.write_left data)
    refine Duplex.settled hend ?_ rfl rfl rfl hreach
    intro e
    cases e <;> rfl

/-- Port 1 of `a`. -/
def Socks5Outbound.sampleTarget : Address := .domain (ascii "a") 1

theorem Socks5Outbound.sampleTarget_fits : sampleTarget.NameFits :=
  show (ascii "a").length ≤ 255 by decide

/-- A user without a password suffices. -/
theorem interoperate_without_password :
    Interoperates ⟨[], ascii "u", []⟩ Socks5Outbound.sampleTarget [1, 2] (.error []) :=
  (@interoperate ⟨[], ascii "u", []⟩ Socks5Outbound.sampleTarget (by decide) (by decide)
    Socks5Outbound.sampleTarget_fits [1, 2] (.error [])).mpr (by decide)

/-- Without credentials the two wait for one another. -/
theorem interoperate_fails_without_user :
    ¬ ∀ (cfg : ProxyConfig) (target : Address) (data : Bytes)
        (localEp : Except Bytes (ByteArrayN 4 × UInt16)),
      cfg.user.length ≤ 255 → cfg.pass.length ≤ 255 → target.NameFits →
      Interoperates cfg target data localEp := by
  intro h
  have hinter := h ⟨[], [], []⟩ Socks5Outbound.sampleTarget [] (.error []) (by decide) (by decide)
    Socks5Outbound.sampleTarget_fits
  obtain ⟨s, hreach, hdead⟩ :=
    @reach_deadlock ⟨[], [], []⟩ Socks5Outbound.sampleTarget [] (.error []) rfl
  exact (hinter s hreach).1 hdead

end Shine
