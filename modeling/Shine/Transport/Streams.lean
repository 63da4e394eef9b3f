import Shine.Lib.CreditFlow
import Shine.Transport.Objects

/-!
# One direction of a session as a credit-controlled stream

`End` is what one end of a session looks like from outside: its session object, the
application's coroutines on it, and what it has under way. Two ends make up two
streams in the sense of `Lib.CreditFlow`, one for each direction (`flowOf`).

`Move` lists what a step of one end does to it, `Delivery` what the dispatch of a frame
does to both, and the theorems of this module say that each is a step of both streams:
of the one that the end writes (`Move.sender`, `Delivery.back`) and of the one that it
reads (`Move.receiver`, `Delivery.toward`).
-/

namespace Shine

/-- The phase of a reader. -/
def Reading.phase : Reading → ReadPhase
  | .idle => .idle
  | .waiting _ => .waiting
  | .acking => .acking
  | .granting delta => .granting delta.toNat

@[simp] theorem Reading.phase_idle : Reading.idle.phase = .idle := rfl
@[simp] theorem Reading.phase_waiting (n : Nat) : (Reading.waiting n).phase = .waiting := rfl
@[simp] theorem Reading.phase_acking : Reading.acking.phase = .acking := rfl
@[simp] theorem Reading.phase_granting (delta : UInt32) :
    (Reading.granting delta).phase = .granting delta.toNat := rfl

/-- One end of a session. -/
structure End where
  /-- The session object exists. If not, `session` is as it would be created. -/
  present : Bool
  session : Session
  app : App
  closed : Bool
  cut : Bool
  /-- What this end has under way to the other: DATA and CLOSE, -/
  msgs : List (Msg UInt8)
  /-- WINDOW, -/
  grants : List Nat
  /-- and NEW. -/
  opening : Bool

namespace End

/-- The stream that `x` writes and `y` reads. -/
def flowOf (x y : End) (lossy : Bool) : Flow UInt8 where
  passed := x.app.passed
  accepted := x.app.accepted
  backlog := x.app.writer.rest
  sending := x.app.writer.chunk
  credit := x.session.sendCredit
  fwd := x.msgs
  inbox := y.session.inboxQueue
  leftover := y.session.unread
  phase := y.app.reader.phase
  unacked := y.session.recvUnacked.toNat
  grants := y.grants
  got := y.app.got
  accepting := if y.present then !y.session.inboxClosed else x.opening
  eof := y.app.eof
  stopped := x.closed || x.session.writeClosed
  dead := x.closed || x.cut
  lossy := lossy
  leaky := lossy || decide (x.session.state = .closed) || decide (y.session.state = .closed)

/-- A TCP session whose inbox is closed exactly in the states in which `read` reports
the end of the stream. -/
structure Good (window : UInt32) (s : Session) : Prop where
  tcp : s.protocol = .tcp
  shape : s.inboxClosed = true ↔ s.state = .closed ∨ s.state = .halfClosedRemote
  window_eq : s.ourInitialWindow = window
  started : s.state ≠ .init

/-- Put a message under way, unless the link is closed or the connection cut. -/
def push (e : End) (m : Msg UInt8) : End :=
  if e.closed || e.cut then e else { e with msgs := e.msgs ++ [m] }

/-- Put a WINDOW under way. -/
def pushGrant (e : End) (d : Nat) : End :=
  if e.closed || e.cut then e else { e with grants := e.grants ++ [d] }

def setApp (e : End) (a : App) : End := { e with app := a }

def setSession (e : End) (s : Session) : End := { e with session := s }

/-- What a step of one end does to it. The flags say whether the session has been
torn down, before and after. -/
inductive Move (e : End) (lossy : Bool) : End → Bool → Prop where
  | write_accepted (data : Bytes) : e.app.writer = .idle → e.closed = false →
      e.session.writeClosed = false → Move e lossy (e.setApp (e.app.accept data)) lossy
  | write_refused (data : Bytes) : (e.closed || e.session.writeClosed) = true →
      Move e lossy (e.setApp { e.app with passed := e.app.passed ++ data }) lossy
  | take_chunk (data rest : Bytes) (n : Nat) : e.app.writer = .writing data rest → n ≠ 0 →
      n ≤ rest.length → n ≤ e.session.sendCredit.toNat →
      Move e lossy ((e.setSession (e.session.takeCredit n)).setApp
        { e.app with writer := .sending data (rest.drop n) (rest.take n) }) lossy
  | send_chunk (data rest chunk : Bytes) : e.app.writer = .sending data rest chunk →
      Move e lossy ((e.push (.data chunk)).setApp (e.app.chunkSent data rest)) lossy
  | abort_write (data rest : Bytes) : e.app.writer = .writing data rest → e.closed = true →
      Move e lossy (e.setApp { e.app with writer := .idle }) lossy
  | shut_opened : e.app.writer = .idle → e.closed = false → e.session.state = .opened →
      Move e lossy ((e.push .fin).setSession (e.session.setState .halfClosedLocal)) lossy
  | shut_remote : e.app.writer = .idle → e.closed = false → e.session.state = .halfClosedRemote →
      Move e lossy ((e.push .fin).setSession (e.session.setState .closed)) lossy
  | close : Move e lossy (e.setSession (e.session.setState .closed).closeChannels) true
  | posted : lossy = true → Move e lossy (e.push .fin) lossy
  | read_bytes (n : Nat) (out : Bytes) (s' : Session) : e.app.reader = .idle →
      e.session.readStart n = .bytes out s' →
      Move e lossy ((e.setSession s').setApp
        { e.app with got := e.app.got ++ out, reader := .acking }) lossy
  | read_eof (n : Nat) : e.app.reader = .idle → e.session.readStart n = .eof →
      Move e lossy (e.setApp { e.app with eof := e.app.eof || decide (0 < n) }) lossy
  | read_wait (n : Nat) : e.app.reader = .idle → e.session.readStart n = .wait →
      Move e lossy (e.setApp { e.app with reader := .waiting n }) lossy
  | receive_bytes (n : Nat) (out : Bytes) (s' : Session) : e.app.reader = .waiting n →
      e.session.receive n = .bytes out s' →
      Move e lossy ((e.setSession s').setApp
        { e.app with got := e.app.got ++ out, reader := .acking }) lossy
  | receive_eof (n : Nat) : e.app.reader = .waiting n → e.session.receive n = .eof →
      Move e lossy (e.setApp
        { e.app with reader := .idle, eof := e.app.eof || decide (0 < n) }) lossy
  | check_closed : e.app.reader = .acking → e.closed = true →
      Move e lossy (e.setApp { e.app with reader := .idle }) lossy
  | check_not_due (s' : Session) : e.app.reader = .acking → e.session.takeWindow = (none, s') →
      Move e lossy (e.setApp { e.app with reader := .idle }) lossy
  | check_due (delta : UInt32) (s' : Session) : e.app.reader = .acking →
      e.session.takeWindow = (some delta, s') →
      Move e lossy ((e.setSession s').setApp { e.app with reader := .granting delta }) lossy
  | send_window (delta : UInt32) : e.app.reader = .granting delta →
      Move e lossy ((e.pushGrant delta.toNat).setApp { e.app with reader := .idle }) lossy
  | fail : Move e lossy { e with
        closed := true
        session := if e.session.state = .closed then e.session else e.session.onReset } true

section Push

variable (e : End) (m : Msg UInt8) (d : Nat)

theorem push_eq : e.push m = { e with msgs := if e.closed || e.cut then e.msgs else e.msgs ++ [m] } := by
  unfold push
  split_ifs <;> rfl

theorem pushGrant_eq :
    e.pushGrant d = { e with grants := if e.closed || e.cut then e.grants else e.grants ++ [d] } := by
  unfold pushGrant
  split_ifs <;> rfl

end Push

variable {e e' : End} {l l' : Bool} {cap threshold : Nat} {strict strict' : Prop}

open Relation

/-- One step of a stream, up to the spelling of the state it leads to. -/
theorem one_step {s t t' : Flow UInt8} (h : Flow.Step threshold strict s t) (heq : t' = t) :
    Flow.Steps threshold strict s t' :=
  heq ▸ .single h

theorem no_step {s t : Flow UInt8} (heq : t = s) : Flow.Steps threshold strict s t :=
  heq ▸ .refl

@[simp] theorem accept_rest (a : App) (data : Bytes) : (a.accept data).writer.rest = data := by
  unfold App.accept
  by_cases h : data = [] <;> simp [h]

@[simp] theorem accept_chunk (a : App) (data : Bytes) : (a.accept data).writer.chunk = none := by
  unfold App.accept
  by_cases h : data = [] <;> simp [h]

section ChunkSent

variable (a : App) (data rest : Bytes)

@[simp] theorem chunkSent_rest : (a.chunkSent data rest).writer.rest = rest := by
  unfold App.chunkSent
  by_cases h : rest = [] <;> simp [h]

@[simp] theorem chunkSent_chunk : (a.chunkSent data rest).writer.chunk = none := by
  unfold App.chunkSent
  by_cases h : rest = [] <;> simp [h]

@[simp] theorem chunkSent_passed : (a.chunkSent data rest).passed = a.passed := by
  unfold App.chunkSent; split_ifs <;> rfl

@[simp] theorem chunkSent_accepted : (a.chunkSent data rest).accepted = a.accepted := by
  unfold App.chunkSent; split_ifs <;> rfl

@[simp] theorem chunkSent_reader : (a.chunkSent data rest).reader = a.reader := by
  unfold App.chunkSent; split_ifs <;> rfl

@[simp] theorem chunkSent_got : (a.chunkSent data rest).got = a.got := by
  unfold App.chunkSent; split_ifs <;> rfl

@[simp] theorem chunkSent_eof : (a.chunkSent data rest).eof = a.eof := by
  unfold App.chunkSent; split_ifs <;> rfl

end ChunkSent

/-- **A move is a step of the stream that the end writes.** -/
theorem Move.sender (h : Move e l e' l') (y : End)
    (hinv : (flowOf e y l).Inv cap threshold strict) :
    Flow.Steps threshold strict (flowOf e y l) (flowOf e' y l') := by
  have hdl : (e.closed || e.cut) = true → l = true := hinv.chained.dead_lossy
  cases h with
  | write_accepted data hw hc hs =>
    refine one_step (.accept data ?_ ?_ ?_) ?_
    · simp [flowOf, hc, hs]
    · simp [flowOf, hw]
    · simp [flowOf, hw]
    · ext1 <;> simp [flowOf, setApp, hw]
      all_goals rfl
  | write_refused data hc => exact one_step (.refuse data hc) rfl
  | take_chunk data rest n hw hn hlen hcredit =>
    refine one_step (.take (rest.take n) (rest.drop n) ?_ ?_ ?_ ?_) ?_
    · simp [flowOf, hw]
    · simp [flowOf, hw]
    · rw [ne_eq, List.take_eq_nil_iff]
      rintro (h | h)
      · exact hn h
      · rw [h, List.length_nil] at hlen
        omega
    · rw [List.length_take, Nat.min_eq_left hlen]
      show (n : Int) ≤ e.session.sendCredit
      omega
    · ext1 <;> simp [flowOf, setApp, setSession, Session.takeCredit, hlen]
      all_goals rfl
  | send_chunk data rest chunk hw =>
    have hsend : (flowOf e y l).sending = some chunk := by simp [flowOf, hw]
    cases hd : (e.closed || e.cut) with
    | true =>
      refine one_step (.lose chunk hsend hd) ?_
      simp [flowOf, setApp, push, hd, hw]
    | false =>
      refine one_step (.send chunk hsend hd) ?_
      simp [flowOf, setApp, push, hd, hw]
  | abort_write data rest hw hc =>
    refine one_step (.abandon ?_ ?_) ?_
    · simp [flowOf, hw]
    · simp [flowOf, hc]
    · simp [flowOf, setApp, hw]
      rfl
  | shut_opened hw hc hst =>
    have hstop : e.session.writeClosed = false := by simp [Session.writeClosed, hst]
    cases hcut : e.cut with
    | false =>
      refine one_step (.finish ?_ ?_ ?_ ?_) ?_
      · simp [flowOf, hc, hstop]
      · simp [flowOf, hw]
      · simp [flowOf, hw]
      · simp [flowOf, hc, hcut]
      · simp [flowOf, setSession, push, hc, hcut, hst, Session.writeClosed]
    | true =>
      have hl : l = true := hdl (by simp [hcut])
      refine one_step (.tear (flowOf e y l).accepting true true id (fun _ => rfl) (fun _ => rfl)) ?_
      simp [flowOf, setSession, push, hc, hcut, hst, hl, Session.writeClosed]
  | shut_remote hw hc hst =>
    have hstop : e.session.writeClosed = false := by simp [Session.writeClosed, hst]
    cases hcut : e.cut with
    | false =>
      refine (one_step (.finish ?_ ?_ ?_ ?_) rfl).trans (one_step .leak ?_)
      · simp [flowOf, hc, hstop]
      · simp [flowOf, hw]
      · simp [flowOf, hw]
      · simp [flowOf, hc, hcut]
      · simp [flowOf, setSession, push, hc, hcut, Session.writeClosed]
    | true =>
      have hl : l = true := hdl (by simp [hcut])
      refine one_step (.tear (flowOf e y l).accepting true true id (fun _ => rfl) (fun _ => rfl)) ?_
      simp [flowOf, setSession, push, hc, hcut, hl, Session.writeClosed]
  | close =>
    refine one_step (.tear (flowOf e y l).accepting true (flowOf e y l).dead id (fun _ => rfl) id) ?_
    simp [flowOf, setSession, Session.writeClosed]
  | posted hl =>
    cases hd : (e.closed || e.cut) with
    | true => exact no_step (by simp [push, hd])
    | false =>
      refine one_step (.finish_late hl) ?_
      simp [flowOf, push, hd]
  | read_bytes n out s' hr hs =>
    obtain ⟨-, -, -, -, -, hst, hcr, -, -⟩ := Session.readStart_bytes hs
    exact no_step (by simp [flowOf, setApp, setSession, Session.writeClosed, hst, hcr])
  | receive_bytes n out s' hr hs =>
    obtain ⟨_, _, -, -, -, -, -, -, -, hst, hcr, -, -⟩ := Session.receive_bytes hs
    exact no_step (by simp [flowOf, setApp, setSession, Session.writeClosed, hst, hcr])
  | read_eof _ _ _ | read_wait _ _ _ | receive_eof _ _ _ | check_closed _ _ | check_not_due _ _ _ =>
    exact no_step rfl
  | check_due delta s' hr hs =>
    obtain ⟨-, -, rfl⟩ := Session.takeWindow_some hs
    exact no_step rfl
  | send_window delta hr =>
    refine no_step ?_
    rw [pushGrant_eq]
    rfl
  | fail =>
    refine one_step (.tear (flowOf e y l).accepting true true id (fun _ => rfl) (fun _ => rfl)) ?_
    by_cases hst : e.session.state = .closed
    · simp [flowOf, hst]
    · simp [flowOf, hst]

/-- Adding to `recv_unacked_` does not wrap while the sum is within the window. -/
theorem toNat_add_unacked (a : UInt32) (k : Nat) (h : a.toNat + k < 2 ^ 32) :
    (a + k.toUInt32).toNat = a.toNat + k := by
  rw [UInt32.toNat_add, Nat.toUInt32_eq, UInt32.toNat_ofNat', Nat.mod_eq_of_lt (by omega : k < 2 ^ 32),
    Nat.mod_eq_of_lt h]

/-- **A move is a step of the stream that the end reads.** -/
theorem Move.receiver (h : Move e l e' l') {w : UInt32} (hgood : Good w e.session)
    (hpresent : e.present = true) (hcl : (e.closed || e.cut) = true → l = true)
    (hcap : cap < 2 ^ 32) (x : End) (hinv : (flowOf x e l).Inv cap (w / 2).toNat strict) :
    Flow.Steps (w / 2).toNat strict (flowOf x e l) (flowOf x e' l') := by
  have htotal := hinv.balanced.total_le
  have hnn := hinv.balanced.credit_nonneg
  cases h with
  | write_accepted _ _ _ _ | write_refused _ _ | take_chunk _ _ _ _ _ _ _ | abort_write _ _ _ _ =>
    exact no_step rfl
  | send_chunk data rest chunk hw =>
    refine no_step ?_
    rw [push_eq]
    simp [flowOf, setApp]
  | shut_opened hw hc hst =>
    refine no_step ?_
    rw [push_eq]
    simp [flowOf, setSession, hst]
  | shut_remote hw hc hst =>
    refine one_step .leak ?_
    rw [push_eq]
    simp [flowOf, setSession]
  | close =>
    refine one_step (.tear false (flowOf x e l).stopped (flowOf x e l).dead nofun id id) ?_
    simp [flowOf, setSession, hpresent]
  | posted hl =>
    refine no_step ?_
    rw [push_eq]
    rfl
  | read_bytes n out s' hr hs =>
    obtain ⟨hne, rfl, hleft, hun, hio, hst, -, -, -⟩ := Session.readStart_bytes hs
    refine one_step (.take_leftover n ?_ hne) ?_
    · simp [flowOf, hr]
    · have hsum : e.session.recvUnacked.toNat + min n e.session.unread.length < 2 ^ 32 := by
        simp only [Flow.total, flowOf] at htotal hnn
        omega
      have hq : s'.inboxQueue = e.session.inboxQueue := by simp [Session.inboxQueue, hio]
      have hclosed : s'.inboxClosed = e.session.inboxClosed := by simp [Session.inboxClosed, hio]
      have hun' := toNat_add_unacked _ _ hsum
      simp [flowOf, setApp, setSession, hleft, hq, hst, hclosed, hun, hun']
  | read_eof n hr hs =>
    obtain ⟨hleft, hst⟩ := Session.readStart_eof hs
    by_cases hn : 0 < n
    · refine one_step (.eof_idle ?_ hleft ?_) ?_
      · simp [flowOf, hr]
      · simp [flowOf, hpresent, hgood.shape.mpr hst]
      · simp [flowOf, setApp, hn]
    · refine no_step ?_
      simp [flowOf, setApp, hn]
  | read_wait n hr hs =>
    obtain ⟨hleft, hst⟩ := Session.readStart_wait hs
    have hopen : e.session.inboxClosed = false :=
      Bool.eq_false_iff.mpr fun hc => hst (hgood.shape.mp hc)
    refine one_step (.begin ?_ hleft ?_) ?_
    · simp [flowOf, hr]
    · simp [flowOf, hpresent, hopen]
    · rfl
  | receive_bytes n out s' hr hs =>
    have hunread : e.session.unread = [] := hinv.ended.waiting_leftover (by simp [flowOf, hr])
    obtain ⟨pay, rest, hq, rfl, hq', hleft, hun, hclosed, -, hst, -, -, -⟩ :=
      Session.receive_bytes hs
    refine one_step (.take_inbox n pay rest ?_ hq) ?_
    · simp [flowOf, hr]
    · have hsum : e.session.recvUnacked.toNat + min n pay.length < 2 ^ 32 := by
        simp only [Flow.total, flowOf, hq, List.flatten_cons, List.length_append] at htotal hnn
        omega
      have hun' := toNat_add_unacked _ _ hsum
      simp [flowOf, setApp, setSession, hleft hunread, hq', hst, hclosed, hun, hun']
  | receive_eof n hr hs =>
    obtain ⟨hq, hclosed⟩ := Session.receive_eof hs
    refine one_step (.eof_waiting (decide (0 < n)) ?_ hq ?_) ?_
    · simp [flowOf, hr]
    · simp [flowOf, hpresent, hclosed]
    · rfl
  | check_closed hr hc =>
    refine one_step (.skip ?_ (hcl (by simp [hc]))) ?_
    · simp [flowOf, hr]
    · rfl
  | check_not_due s' hr hs =>
    have hlt := Session.takeWindow_none hs
    rw [hgood.window_eq] at hlt
    refine one_step (.not_due ?_ (UInt32.lt_iff_toNat_lt.mp hlt)) ?_
    · simp [flowOf, hr]
    · rfl
  | check_due delta s' hr hs =>
    obtain ⟨rfl, hle, rfl⟩ := Session.takeWindow_some hs
    rw [hgood.window_eq] at hle
    refine one_step (.due ?_ (UInt32.le_iff_toNat_le.mp hle)) ?_
    · simp [flowOf, hr]
    · ext1 <;> simp [flowOf, setApp, setSession]
      all_goals rfl
  | send_window delta hr =>
    have hphase : (flowOf x e l).phase = .granting delta.toNat := by simp [flowOf, hr]
    cases hd : (e.closed || e.cut) with
    | true =>
      refine one_step (.grant_lost delta.toNat hphase (by simp [flowOf, hcl hd])) ?_
      simp [flowOf, setApp, pushGrant, hd]
    | false =>
      refine one_step (.grant delta.toNat hphase) ?_
      simp [flowOf, setApp, pushGrant, hd]
  | fail =>
    refine one_step (.tear false (flowOf x e l).stopped (flowOf x e l).dead nofun id id) ?_
    by_cases hst : e.session.state = .closed
    · have hclosed := hgood.shape.mpr (.inl hst)
      simp [flowOf, hst, hpresent, hclosed]
    · simp [flowOf, hst, hpresent]

/-- What a step of a link does to one end: nothing, a move if the session exists, or
the link is closed under it. -/
inductive Acted (e : End) (lossy : Bool) : End → Bool → Prop where
  | same : Acted e lossy e lossy
  | move {e' : End} {lossy' : Bool} : e.present = true → Move e lossy e' lossy' →
      Acted e lossy e' lossy'
  | stopped : Acted e lossy { e with closed := true } true

theorem Acted.sender (h : Acted e l e' l') (y : End)
    (hinv : (flowOf e y l).Inv cap threshold strict) :
    Flow.Steps threshold strict (flowOf e y l) (flowOf e' y l') := by
  cases h with
  | same => exact .refl
  | move _ h => exact h.sender y hinv
  | stopped =>
    refine one_step (.tear (flowOf e y l).accepting true true id (fun _ => rfl) (fun _ => rfl)) ?_
    simp [flowOf]

theorem Acted.receiver (h : Acted e l e' l') {w : UInt32} (hgood : Good w e.session)
    (hcl : (e.closed || e.cut) = true → l = true) (hcap : cap < 2 ^ 32) (x : End)
    (hinv : (flowOf x e l).Inv cap (w / 2).toNat strict) :
    Flow.Steps (w / 2).toNat strict (flowOf x e l) (flowOf x e' l') := by
  cases h with
  | same => exact .refl
  | move hpresent h => exact h.receiver hgood hpresent hcl hcap x hinv
  | stopped =>
    refine one_step (.tear (flowOf x e l).accepting (flowOf x e l).stopped (flowOf x e l).dead id
      id id) ?_
    simp [flowOf]

/-! ## What one end keeps by itself -/

/-- What was let in has been acknowledged, except for the call that is going on, and,
once the link is closed, for the call that failed. -/
structure Calls (closed : Bool) (a : App) : Prop where
  idle : a.writer = .idle → closed = false → a.accepted = a.acked
  writing : ∀ data rest, a.writer = .writing data rest →
    rest ≠ [] ∧ a.accepted = a.acked ++ data
  sending : ∀ data rest chunk, a.writer = .sending data rest chunk →
    a.accepted = a.acked ++ data

/-- A well-formed end with this receive window. -/
structure Ok (window : UInt32) (e : End) : Prop where
  good : Good window e.session
  calls : Calls e.closed e.app

theorem Good.of_eq {w : UInt32} {s s' : Session} (h : Good w s) (hproto : s'.protocol = s.protocol)
    (hclosed : s'.inboxClosed = s.inboxClosed) (hstate : s'.state = s.state)
    (hwindow : s'.ourInitialWindow = s.ourInitialWindow) : Good w s' where
  tcp := hproto ▸ h.tcp
  shape := by rw [hclosed, hstate]; exact h.shape
  window_eq := hwindow ▸ h.window_eq
  started := hstate ▸ h.started

theorem Good.onReset {w : UInt32} {s : Session} (h : Good w s) : Good w s.onReset where
  tcp := by rw [Session.onReset_protocol, h.tcp]
  shape := by simp
  window_eq := h.window_eq
  started := nofun

theorem Good.onPeerClose {w : UInt32} {s : Session} (h : Good w s) : Good w s.onPeerClose where
  tcp := by rw [Session.onPeerClose_protocol, h.tcp]
  shape := by
    have hclosed := (Session.onPeerClose_fields s).2.1
    have hstate := Session.onPeerClose_state s
    have hstarted := h.started
    cases hs : s.state <;> simp_all
  window_eq := h.window_eq
  started := by
    have hstate := Session.onPeerClose_state s
    have hstarted := h.started
    cases hs : s.state <;> simp_all

theorem Good.onWindow {w : UInt32} {s : Session} (h : Good w s) (delta : UInt32) :
    Good w (s.onWindow delta) :=
  h.of_eq (Session.onWindow_protocol s delta) (Session.onWindow_inboxClosed s delta) rfl rfl

theorem Good.onData {w : UInt32} {s : Session} (h : Good w s) (c : Bytes) :
    Good w (s.onData c) := by
  obtain ⟨hclosed, -, -, -, hproto, hwindow⟩ := Session.onData_fields s c
  exact h.of_eq hproto hclosed (Session.onData_state s c) hwindow

theorem good_new (sid : UInt64) (target : Address) (peerWindow window : UInt32) :
    Good window (.new sid target peerWindow window .tcp) :=
  ⟨rfl, by simp [Session.new, Session.inboxClosed, SessionIo.inboxClosed, Chan.new], rfl, nofun⟩

/-- A call that touches neither the writer nor what it has acknowledged. -/
theorem Calls.of_eq {b : Bool} {a a' : App} (h : Calls b a) (hwriter : a'.writer = a.writer)
    (haccepted : a'.accepted = a.accepted) (hacked : a'.acked = a.acked) : Calls b a' where
  idle := by rw [hwriter, haccepted, hacked]; exact h.idle
  writing := by rw [hwriter, haccepted, hacked]; exact h.writing
  sending := by rw [hwriter, haccepted, hacked]; exact h.sending

/-- Closing the link only weakens it. -/
theorem Calls.close {b : Bool} {a : App} (h : Calls b a) : Calls true a :=
  ⟨nofun, h.writing, h.sending⟩

theorem Calls.accept {b : Bool} {a : App} (h : Calls b a) (hidle : a.writer = .idle)
    (hopen : b = false) (data : Bytes) : Calls b (a.accept data) := by
  have hacc := h.idle hidle hopen
  unfold App.accept
  by_cases hd : data = []
  · simp only [hd, if_pos, List.append_nil]
    exact ⟨fun _ _ => hacc, nofun, nofun⟩
  · simp only [hd, if_false]
    refine ⟨nofun, ?_, nofun⟩
    rintro data' rest' hw
    cases hw
    exact ⟨hd, by rw [hacc]⟩

theorem Calls.chunkSent {b : Bool} {a : App} {data rest chunk : Bytes} (h : Calls b a)
    (hw : a.writer = .sending data rest chunk) : Calls b (a.chunkSent data rest) := by
  have hacc := h.sending data rest chunk hw
  unfold App.chunkSent
  by_cases hr : rest = []
  · simp only [hr, if_pos]
    exact ⟨fun _ _ => hacc, nofun, nofun⟩
  · simp only [hr, if_false]
    refine ⟨nofun, ?_, nofun⟩
    rintro data' rest' hw'
    cases hw'
    exact ⟨hr, hacc⟩

@[simp] theorem push_present (e : End) (m : Msg UInt8) : (e.push m).present = e.present := by
  rw [push_eq]
@[simp] theorem push_session (e : End) (m : Msg UInt8) : (e.push m).session = e.session := by
  rw [push_eq]
@[simp] theorem push_app (e : End) (m : Msg UInt8) : (e.push m).app = e.app := by rw [push_eq]
@[simp] theorem push_closed (e : End) (m : Msg UInt8) : (e.push m).closed = e.closed := by
  rw [push_eq]
@[simp] theorem pushGrant_present (e : End) (d : Nat) : (e.pushGrant d).present = e.present := by
  rw [pushGrant_eq]
@[simp] theorem pushGrant_session (e : End) (d : Nat) : (e.pushGrant d).session = e.session := by
  rw [pushGrant_eq]
@[simp] theorem pushGrant_closed (e : End) (d : Nat) : (e.pushGrant d).closed = e.closed := by
  rw [pushGrant_eq]

theorem Move.ok {w : UInt32} (h : Move e l e' l') (hok : Ok w e) : Ok w e' := by
  obtain ⟨hgood, hcalls⟩ := hok
  cases h with
  | write_accepted data hw hc hs => exact ⟨hgood, hcalls.accept hw hc data⟩
  | write_refused data _ => exact ⟨hgood, hcalls.of_eq rfl rfl rfl⟩
  | take_chunk data rest n hw hn hlen hcredit =>
    refine ⟨hgood.of_eq rfl rfl rfl rfl, nofun, nofun, ?_⟩
    rintro data' rest' chunk' hw'
    cases hw'
    exact (hcalls.writing data rest hw).2
  | send_chunk data rest chunk hw =>
    refine ⟨?_, ?_⟩
    · simpa [setApp] using hgood
    · simpa [setApp] using hcalls.chunkSent hw
  | abort_write data rest hw hc =>
    exact ⟨hgood, fun _ hopen => Flow.clash hc hopen, nofun, nofun⟩
  | shut_opened hw hc hst =>
    refine ⟨⟨hgood.tcp, ?_, hgood.window_eq, nofun⟩, by simpa [setSession] using hcalls⟩
    have hshape := hgood.shape
    simp [setSession, hst] at hshape ⊢
    exact hshape
  | shut_remote hw hc hst =>
    refine ⟨⟨hgood.tcp, ?_, hgood.window_eq, nofun⟩, by simpa [setSession] using hcalls⟩
    have hshape := hgood.shape
    simp [setSession, hst] at hshape ⊢
    exact hshape
  | close => exact ⟨hgood.onReset, hcalls⟩
  | posted hl => exact ⟨by simpa using hgood, by simpa using hcalls⟩
  | read_bytes n out s' hr hs =>
    obtain ⟨-, -, -, -, hio, hst, -, -, hwin⟩ := Session.readStart_bytes hs
    exact ⟨hgood.of_eq (by simp [setApp, setSession, Session.protocol, hio])
      (by simp [setApp, setSession, Session.inboxClosed, hio]) hst hwin, hcalls.of_eq rfl rfl rfl⟩
  | receive_bytes n out s' hr hs =>
    obtain ⟨_, _, -, -, -, -, -, hclosed, hproto, hst, -, -, hwin⟩ := Session.receive_bytes hs
    exact ⟨hgood.of_eq hproto hclosed hst hwin, hcalls.of_eq rfl rfl rfl⟩
  | read_eof _ _ _ | read_wait _ _ _ | receive_eof _ _ _ | check_closed _ _ | check_not_due _ _ _ =>
    exact ⟨hgood, hcalls.of_eq rfl rfl rfl⟩
  | check_due delta s' hr hs =>
    obtain ⟨-, -, rfl⟩ := Session.takeWindow_some hs
    exact ⟨hgood.of_eq rfl rfl rfl rfl, hcalls.of_eq rfl rfl rfl⟩
  | send_window delta hr =>
    rw [pushGrant_eq]
    exact ⟨hgood, hcalls.of_eq rfl rfl rfl⟩
  | fail =>
    refine ⟨?_, hcalls.close⟩
    simp only
    split_ifs
    · exact hgood
    · exact hgood.onReset

/-- A session stays closed, and what is torn down is closed or on a closed link. -/
theorem Move.closed (h : Move e l e' l') :
    (e.session.state = .closed → e'.session.state = .closed) ∧
      (e.closed = true → e'.closed = true) ∧
      (l' = true → l = true ∨ e'.closed = true ∨ e'.session.state = .closed) := by
  cases h with
  | close => exact ⟨fun _ => rfl, id, fun _ => .inr (.inr rfl)⟩
  | fail =>
    refine ⟨fun h => ?_, fun _ => rfl, fun _ => .inr (.inl rfl)⟩
    rw [if_pos h]
    exact h
  | read_bytes n out s' hr hs =>
    obtain ⟨-, -, -, -, -, hst, -, -, -⟩ := Session.readStart_bytes hs
    exact ⟨fun h => hst.trans h, id, .inl⟩
  | receive_bytes n out s' hr hs =>
    obtain ⟨_, _, -, -, -, -, -, -, -, hst, -, -, -⟩ := Session.receive_bytes hs
    exact ⟨fun h => hst.trans h, id, .inl⟩
  | check_due delta s' hr hs =>
    obtain ⟨-, -, rfl⟩ := Session.takeWindow_some hs
    exact ⟨id, id, .inl⟩
  | shut_opened hw hc hst =>
    refine ⟨fun h => ?_, by simp [setSession], .inl⟩
    rw [hst] at h
    cases h
  | shut_remote hw hc hst => exact ⟨fun _ => rfl, by simp [setSession], .inl⟩
  | send_chunk _ _ _ _ | posted _ | send_window _ _ =>
    exact ⟨by simp [setApp], by simp [setApp], .inl⟩
  | _ => exact ⟨id, id, .inl⟩

theorem Move.present_eq (h : Move e l e' l') : e'.present = e.present := by
  cases h with
  | shut_opened _ _ _ | shut_remote _ _ _ => simp [setSession]
  | send_chunk _ _ _ _ | posted _ | send_window _ _ => simp [setApp]
  | _ => rfl

theorem Acted.present_eq (h : Acted e l e' l') : e'.present = e.present := by
  cases h with
  | move _ h => exact h.present_eq
  | _ => rfl

/-- Nothing is called on a session that does not exist. -/
theorem Acted.app_eq (h : Acted e l e' l') (hp : e.present = false) : e'.app = e.app := by
  cases h with
  | move hpresent _ => exact Flow.clash hpresent hp
  | _ => rfl

theorem Acted.ok {w : UInt32} (h : Acted e l e' l') (hok : Ok w e) : Ok w e' := by
  cases h with
  | same => exact hok
  | move _ h => exact h.ok hok
  | stopped => exact ⟨hok.good, hok.calls.close⟩

theorem Acted.closed (h : Acted e l e' l') :
    (e.session.state = .closed → e'.session.state = .closed) ∧
      (e.closed = true → e'.closed = true) ∧
      (l' = true → l = true ∨ e'.closed = true ∨
        e.present = true ∧ e'.session.state = .closed) := by
  cases h with
  | same => exact ⟨id, id, .inl⟩
  | move hp h =>
    obtain ⟨hended, hclosed, htorn⟩ := h.closed
    exact ⟨hended, hclosed, fun hl => (htorn hl).imp_right (Or.imp_right fun hc => ⟨hp, hc⟩)⟩
  | stopped => exact ⟨id, fun _ => rfl, fun _ => .inr (.inl rfl)⟩

/-! ## What arrives at an end -/

/-- The session is in the table of its link. -/
def live (e : End) : Bool := e.present && decide (e.session.state ≠ .closed)

/-- A method of the session object, called if the table holds it. -/
def onSession (e : End) (f : Session → Session) : End :=
  if e.live then e.setSession (f e.session) else e

/-- What dispatching a frame of `x` does to the two ends of the session. -/
inductive Delivery (strict : Prop) (x y : End) (lossy : Bool) : End → End → Bool → Prop where
  /-- The frame is about another session. -/
  | other : Delivery strict x y lossy x y lossy
  | data (c : Bytes) (r : List (Msg UInt8)) : x.msgs = .data c :: r →
      (y.present = false → x.opening = false) →
      Delivery strict x y lossy { x with msgs := r } (y.onSession (·.onData c)) lossy
  | fin (r : List (Msg UInt8)) : x.msgs = .fin :: r → (y.present = false → x.opening = false) →
      (strict → y.live = true →
        y.session.inboxQueue.length ≤ if y.app.reader.phase = .waiting then 1 else 0) →
      Delivery strict x y lossy { x with msgs := r } (y.onSession (·.onPeerClose)) lossy
  | window (delta : UInt32) (r : List Nat) : x.grants = delta.toNat :: r →
      Delivery strict x y lossy { x with grants := r } (y.onSession (·.onWindow delta)) lossy
  | reset : y.live = true →
      Delivery strict x y lossy x (y.setSession y.session.onReset) true
  /-- NEW is accepted: the session object is created. -/
  | opened (target : Address) : x.opening = true → y.present = false →
      y.session.inboxClosed = false →
      Delivery strict x y lossy { x with opening := false }
        { y with present := true, session := { y.session with target := target } } lossy
  | refused : x.opening = true → y.present = false →
      Delivery strict x y lossy { x with opening := false } y true

theorem onSession_of_live {y : End} (h : y.live = true) (f : Session → Session) :
    y.onSession f = y.setSession (f y.session) := if_pos h

theorem onSession_of_not_live {y : End} (h : y.live = false) (f : Session → Session) :
    y.onSession f = y := if_neg (by simp [h])

theorem present_of_live {y : End} (h : y.live = true) :
    y.present = true ∧ y.session.state ≠ .closed := by
  simpa [live] using h

/-- What is not in the table takes nothing. -/
theorem not_accepting_of_not_live {x y : End} {w : UInt32} (hgood : Good w y.session)
    (hopen : y.present = false → x.opening = false) (h : y.live = false) (l : Bool) :
    (flowOf x y l).accepting = false := by
  cases hp : y.present with
  | false => simp [flowOf, hp, hopen hp]
  | true =>
    have hst : y.session.state = .closed := by simpa [live, hp] using h
    simp [flowOf, hp, hgood.shape.mpr (.inl hst)]

/-- A message that finds the receiver closed is dropped; the stream was torn down
before. -/
theorem drop_message {x y : End} {m : Msg UInt8} {r : List (Msg UInt8)}
    (hinv : (flowOf x y l).Inv cap threshold strict) (hm : x.msgs = m :: r)
    (hacc : (flowOf x y l).accepting = false) :
    Flow.Steps threshold strict (flowOf x y l) (flowOf { x with msgs := r } y l) := by
  have hlossy : l = true := by
    by_contra hl
    have hnil := (hinv.ended.closed_done (by simpa [flowOf] using hl) hacc).1
    rw [show (flowOf x y l).fwd = x.msgs from rfl, hm] at hnil
    cases hnil
  exact one_step (.discard m r hm hacc hlossy) rfl

/-- **Dispatching a frame is a step of the stream towards the dispatching end.** -/
theorem Delivery.toward {x y x' y' : End} (h : Delivery strict x y l x' y' l') {w : UInt32}
    (hgood : Good w y.session) (hinv : (flowOf x y l).Inv cap threshold strict) :
    Flow.Steps threshold strict (flowOf x y l) (flowOf x' y' l') := by
  cases h with
  | other => exact .refl
  | data c r hm hopening =>
    cases hlive : y.live with
    | false =>
      rw [onSession_of_not_live hlive]
      exact drop_message hinv hm (not_accepting_of_not_live hgood hopening hlive l)
    | true =>
      obtain ⟨hp, hst⟩ := present_of_live hlive
      rw [onSession_of_live hlive]
      cases hc : y.session.inboxClosed with
      | true =>
        rw [Session.onData_of_closed hgood.tcp hc]
        exact drop_message hinv hm (by simp [flowOf, hp, hc])
      | false =>
        have hne : c ≠ [] := hinv.ended.data_ne c (by simp [flowOf, hm])
        obtain ⟨hc', hun, -, hack, -, -⟩ := Session.onData_fields y.session c
        refine one_step (.deliver c r hm (by simp [flowOf, hp, hc])) ?_
        simp [flowOf, setSession, hp, hc', hc, hun, hack,
          Session.onData_inboxQueue hgood.tcp hc hne]
  | fin r hm hopening hdrained =>
    cases hlive : y.live with
    | false =>
      rw [onSession_of_not_live hlive]
      exact drop_message hinv hm (not_accepting_of_not_live hgood hopening hlive l)
    | true =>
      obtain ⟨hp, hst⟩ := present_of_live hlive
      rw [onSession_of_live hlive]
      obtain ⟨hq, hc', hun, -, hack, -⟩ := Session.onPeerClose_fields y.session
      have hstate := Session.onPeerClose_state y.session
      cases hc : y.session.inboxClosed with
      | true =>
        -- a second CLOSE: the session stays half closed
        have hremote : y.session.state = .halfClosedRemote := (hgood.shape.mp hc).resolve_left hst
        rw [hremote] at hstate
        refine (drop_message hinv hm (by simp [flowOf, hp, hc])).trans (no_step ?_)
        simp [flowOf, setSession, hp, hc, hc', hq, hun, hack, hstate, hremote]
      | false =>
        have hfin : Flow.Step threshold strict (flowOf x y l)
            { flowOf x y l with fwd := r, accepting := false } :=
          .recv_fin r hm (by simp [flowOf, hp, hc]) fun hs => hdrained hs hlive
        by_cases hcl : y.session.onPeerClose.state = .closed
        · refine (one_step hfin rfl).trans (one_step .leak ?_)
          simp [flowOf, setSession, hp, hc', hq, hun, hack, hcl]
        · refine one_step hfin ?_
          simp [flowOf, setSession, hp, hc', hq, hun, hack, hcl, hst]
  | window delta r hg =>
    refine no_step ?_
    cases hlive : y.live with
    | false =>
      rw [onSession_of_not_live hlive]
      rfl
    | true =>
      rw [onSession_of_live hlive]
      ext1 <;> simp [flowOf, setSession]
      all_goals rfl
  | reset hlive =>
    obtain ⟨hp, hst⟩ := present_of_live hlive
    refine one_step (.tear false (flowOf x y l).stopped (flowOf x y l).dead nofun id id) ?_
    simp [flowOf, setSession, hp]
  | opened target hopening hp hc =>
    refine no_step ?_
    have hc' : ({ y.session with target := target } : Session).inboxClosed = false := hc
    ext1 <;> simp [flowOf, hp, hopening, hc']
    all_goals rfl
  | refused _ hp =>
    refine one_step (.tear false (flowOf x y l).stopped (flowOf x y l).dead nofun id id) ?_
    simp [flowOf, hp]

/-- **Dispatching a frame is a step of the stream that the dispatching end writes.** -/
theorem Delivery.back {x y x' y' : End} (h : Delivery strict x y l x' y' l')
    (hvirtual : y.present = false → y.session.sendCredit = cap)
    (hinv : (flowOf y x l).Inv cap threshold strict') :
    Flow.Steps threshold strict' (flowOf y x l) (flowOf y' x' l') := by
  cases h with
  | other => exact .refl
  | data c r hm hopening =>
    refine no_step ?_
    cases hlive : y.live with
    | false =>
      rw [onSession_of_not_live hlive]
      rfl
    | true =>
      obtain ⟨-, -, hcr, -, -, -⟩ := Session.onData_fields y.session c
      rw [onSession_of_live hlive]
      simp [flowOf, setSession, hcr, Session.writeClosed]
  | fin r hm hopening _ =>
    cases hlive : y.live with
    | false =>
      rw [onSession_of_not_live hlive]
      exact no_step rfl
    | true =>
      obtain ⟨-, hst⟩ := present_of_live hlive
      obtain ⟨-, -, -, hcr, -, -⟩ := Session.onPeerClose_fields y.session
      have hstate := Session.onPeerClose_state y.session
      rw [onSession_of_live hlive]
      -- only a session that is already closed for writing becomes closed
      cases hs : y.session.state with
      | closed => exact absurd hs hst
      | halfClosedLocal =>
        rw [hs] at hstate
        refine one_step .leak ?_
        simp [flowOf, setSession, hcr, Session.writeClosed, hstate, hs]
      | init | opened | halfClosedRemote =>
        rw [hs] at hstate
        refine no_step ?_
        simp [flowOf, setSession, hcr, Session.writeClosed, hstate, hs]
  | window delta r hg =>
    cases hlive : y.live with
    | false =>
      rw [onSession_of_not_live hlive]
      cases hp : y.present with
      | true =>
        have hst : y.session.state = .closed := by simpa [live, hp] using hlive
        exact one_step (.credit_lost delta.toNat r hg (by simp [flowOf, hst])) rfl
      | false =>
        -- an end that does not exist yet has all its credit, so nothing is granted
        have hzero : delta.toNat = 0 := by
          have htotal := hinv.balanced.total_le
          simp only [Flow.total, flowOf, hg, hvirtual hp, List.sum_cons] at htotal
          omega
        refine one_step (.credit delta.toNat r hg) ?_
        simp [flowOf, hzero]
    | true =>
      rw [onSession_of_live hlive]
      exact one_step (.credit delta.toNat r hg) rfl
  | reset hlive =>
    refine one_step (.tear (flowOf y x l).accepting true (flowOf y x l).dead id (fun _ => rfl) id) ?_
    simp [flowOf, setSession, Session.writeClosed]
  | opened target hopening hp => exact no_step rfl
  | refused _ hp =>
    refine one_step (.tear (flowOf y x l).accepting (flowOf y x l).stopped (flowOf y x l).dead
      id id id) ?_
    simp [flowOf]

/-- **Cutting the connection behind an end** is a step of the stream that it writes. -/
theorem cut_sender {x y : End} {msgs : List (Msg UInt8)} {opening : Bool} (grants : List Nat)
    (hmsgs : msgs <+: x.msgs) (hopening : opening = true → x.opening = true) :
    Flow.Steps threshold strict (flowOf x y l) (flowOf
      { x with cut := true, msgs := msgs, grants := grants, opening := opening } y true) := by
  have htear : Flow.Steps threshold strict (flowOf x y l) (flowOf
      { x with cut := true, opening := opening } y true) := by
    refine one_step (.tear (flowOf { x with opening := opening } y l).accepting
      (flowOf x y l).stopped true ?_ id (fun _ => rfl)) ?_
    · cases hp : y.present <;> simp [flowOf, hp]
      exact hopening
    · simp [flowOf]
  refine htear.trans (one_step (.cut msgs.length ?_) ?_)
  · simp [flowOf]
  · have htake : msgs = x.msgs.take msgs.length := List.prefix_iff_eq_take.mp hmsgs
    simp [flowOf, ← htake]

/-- And of the stream that it reads. -/
theorem cut_receiver {x y : End} {grants : List Nat} (msgs : List (Msg UInt8)) (opening : Bool)
    (hgrants : grants <+: y.grants) :
    Flow.Steps threshold strict (flowOf x y l) (flowOf x
      { y with cut := true, msgs := msgs, grants := grants, opening := opening } true) := by
  have htear : Flow.Steps threshold strict (flowOf x y l) (flowOf x y true) := by
    refine one_step (.tear (flowOf x y l).accepting (flowOf x y l).stopped (flowOf x y l).dead
      id id id) ?_
    simp [flowOf]
  refine htear.trans (one_step (.cut_grants grants.length ?_) ?_)
  · simp [flowOf]
  · have htake : grants = y.grants.take grants.length := List.prefix_iff_eq_take.mp hgrants
    simp [flowOf, ← htake]

end End

end Shine
