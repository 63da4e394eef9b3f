import Shine.Inbound.Undisturbed
import Shine.Transport.Handshake

/-!
# Opening sessions on a client link (`Link::start`, `waitHandshake`, `ShineOutbound::handle`)

A client link shakes hands on its strand while any number of calls of `handle`, on other threads,
wait in `Link::waitHandshake` and then open their sessions. The coroutine of `start` tells them
through `handshake_signal_`, a channel with room for one message, which it closes right after the
message; `failLink` and the function that `closeNow` posts close it too. Every load, store and
operation on the channel is a step of its own here, and they interleave in any order.

- `waiters_told`: no call is left waiting once the link has settled, and each learns the truth.
- `sessions_after_handshake`: until the server has accepted the handshake a client link sends
  nothing but its HELLO and its AUTH.
-/

namespace Shine

/-- Where the coroutine of `Link::start` stands. -/
inductive StartPc where
  | sendHello
  /-- `handshakeClient` waits for its first frame. -/
  | hello
  | sendAuth
  /-- `handshakeClient` waits for its second frame. -/
  | reply
  /-- `handshakeClient` has returned. -/
  | returned
  /-- `closed_` was not set. -/
  | checked
  /-- `handshake_done_` has been set. -/
  | stored
  /-- `try_send` on the signal has been called. -/
  | signalled
  | reader
  | finished
  deriving DecidableEq

/-- Where a call of `handle` stands, from `waitHandshake` on. -/
inductive WaitPc where
  | start
  /-- `handshake_done_` was not set. -/
  | checkClosed
  /-- In `async_receive`. -/
  | receiving
  /-- `async_receive` has completed. -/
  | resumed
  /-- `waitHandshake` has returned true. -/
  | opening
  /-- `openSession` has returned. -/
  | opened
  /-- `waitHandshake` has returned false. -/
  | refused
  deriving DecidableEq

/-- A client link, the coroutine of `start` and the calls that wait for it. -/
structure Opening where
  node : Served
  pc : StartPc
  handshakeDone : Bool
  signal : Chan Unit
  /-- `failLink` has set `closed_` and not closed the signal yet. -/
  failing : Bool
  /-- The function that `closeNow` posts has not run yet. -/
  posted : Bool
  calls : Nat → WaitPc
  /-- The frames that `handshakeClient` has read. -/
  read : List ShineFrame

namespace Opening

/-- What can happen. -/
inductive Event where
  /-- The next piece of the coroutine of `start` that reads nothing. -/
  | run
  /-- The coroutine reads a frame, or gets an error. -/
  | frame (now : UInt64) (f : Option ShineFrame)
  /-- `failLink`, called by the writer, the heartbeat or the timer of the handshake. -/
  | fail
  /-- The rest of `failLink`. -/
  | closeSignal
  | closeNow
  /-- The function that `closeNow` has posted runs. -/
  | runClose
  /-- The call looks at `handshake_done_`. -/
  | load (i : Nat)
  /-- The call looks at `closed_`. -/
  | checkClosed (i : Nat)
  | receive (i : Nat)
  /-- The call looks at `handshake_done_` again. -/
  | result (i : Nat)
  | openSession (i : Nat) (sid : UInt64) (target : Address) (isUdp : Bool)
  /-- The writer puts a frame on the connection. -/
  | flush
  /-- A piece of a method of a session. -/
  | call (q : Nat) (op : SessionOp)
  /-- A coroutine spawned by `Session::close` runs. -/
  | runPosted
  /-- The heartbeat sends a PING; it waits for `handshake_done_`. -/
  | ping (nonce : UInt64)

def setLink (s : Opening) (l : Link) : Opening := { s with node := s.node.setLink l }

/-- Send a frame of the handshake, and on to `pc`. -/
def sendFrame (s : Opening) (f : ShineFrame) (pc : StartPc) : Opening :=
  { s with node := s.node.setLink (s.node.link.enqueueFrame f), pc := pc }

/-- `failLink` up to the signal, and on to `pc`; it does nothing if the link is closed. -/
def failWith (s : Opening) (pc : StartPc) : Opening :=
  { s with
    node := s.node.setLink s.node.link.failLink
    pc := pc
    failing := s.failing || !s.node.link.closed }

def setCall (s : Opening) (i : Nat) (pc : WaitPc) : Opening :=
  { s with calls := Function.update s.calls i pc }

/-- The pieces of the coroutine of `start` that read nothing. -/
def runPiece (s : Opening) : Option Opening :=
  match s.pc with
  | .sendHello => some (s.sendFrame helloFrame .hello)
  | .sendAuth => some (s.sendFrame (.auth s.node.link.opts.password) .reply)
  | .returned => some { s with pc := if s.node.link.closed then .finished else .checked }
  | .checked => some { s with handshakeDone := true, pc := .stored }
  | .stored => some { s with signal := s.signal.trySend (), pc := .signalled }
  | .signalled => some { s with signal := s.signal.close, pc := .reader }
  | .reader => if s.node.link.closed then some { s with pc := .finished } else none
  | .hello | .reply | .finished => none

/-- What a frame, or an error, does. -/
def takeFrame (s : Opening) (now : UInt64) (f : Option ShineFrame) : Option Opening :=
  match s.pc with
  | .hello =>
    match f with
    | some (.hello v features) => some
      { s with
        pc := if s.node.link.opts.password = [] then .returned else .sendAuth
        read := s.read ++ [.hello v features] }
    | _ => some (s.failWith .returned)
  | .reply =>
    match f with
    | some .ok => some { s with pc := .returned, read := s.read ++ [.ok] }
    | _ => some (s.failWith .returned)
  | .reader =>
    if s.node.link.closed then none
    else match f with
      | some f => some (s.setLink (s.node.link.dispatchFrame now f))
      | none => some (s.failWith .finished)
  | _ => none

/-- The completion of `async_receive` in the call `i`. -/
def receiveSignal (s : Opening) (i : Nat) : Option Opening :=
  match s.signal.receive with
  | some (_, signal) => some { s.setCall i .resumed with signal := signal }
  | none => if s.signal.closed then some (s.setCall i .resumed) else none

/-- One step. -/
def step (s : Opening) : Event → Option Opening
  | .run => s.runPiece
  | .frame now f => s.takeFrame now f
  | .fail => some (s.failWith s.pc)
  | .closeSignal =>
    if s.failing then some { s with signal := s.signal.close, failing := false } else none
  | .closeNow => some
    { s with
      node := s.node.setLink s.node.link.closeNow
      posted := s.posted || !s.node.link.closed }
  | .runClose =>
    if s.posted then some { s with signal := s.signal.close, posted := false } else none
  | .load i =>
    match s.calls i with
    | .start => some (s.setCall i (if s.handshakeDone then .opening else .checkClosed))
    | _ => none
  | .checkClosed i =>
    match s.calls i with
    | .checkClosed => some (s.setCall i (if s.node.link.closed then .refused else .receiving))
    | _ => none
  | .receive i =>
    match s.calls i with
    | .receiving => s.receiveSignal i
    | _ => none
  | .result i =>
    match s.calls i with
    | .resumed => some (s.setCall i (if s.handshakeDone then .opening else .refused))
    | _ => none
  | .openSession i sid target isUdp =>
    match s.calls i with
    | .opening => (s.node.step (.openSession sid target isUdp)).map fun w =>
        { s.setCall i .opened with node := w }
    | _ => none
  | .flush => (s.node.step .flush).map fun w => { s with node := w }
  | .call q op => (s.node.step (.call q op)).map fun w => { s with node := w }
  | .runPosted => (s.node.step .runPosted).map fun w => { s with node := w }
  | .ping nonce =>
    if s.handshakeDone then (s.node.step (.control (.ping nonce))).map fun w => { s with node := w }
    else none

/-- All runs. -/
def system : Lts Opening Event := ⟨step⟩

/-- A client link that has just been started. -/
def start (opts : LinkOptions) (now : UInt64) : Opening where
  node := ⟨.new opts false now, [], none⟩
  pc := .sendHello
  handshakeDone := false
  signal := .new 1
  failing := false
  posted := false
  calls _ := .start
  read := []

end Opening

/-! ## Steps of the link -/

namespace Served

variable {w w' : Served}

/-- What has been sent stays sent. -/
theorem out_prefix {e : Event} (h : w.step e = some w') : w.out <+: w'.out := by
  obtain ⟨-, ⟨extra, hout, -⟩, -⟩ := out_step (F := fun _ => True) (fun _ _ => trivial)
    (fun _ _ => trivial) h fun _ _ => trivial
  exact ⟨extra, hout.symm⟩

theorem enqueue_out (w : Served) (f : ShineFrame) :
    (w.setLink (w.link.enqueueFrame f)).out =
      if w.link.closed then w.out else w.out ++ [f] := by
  simp only [out, setLink_link, setLink_sent, Link.enqueueFrame_writeChan]
  split_ifs
  · rfl
  · rw [List.append_assoc]

end Served

namespace Opening

variable {opts : LinkOptions} {s t : Opening}

/-! ## The frames that a client link sends -/

/-- The frames of the handshake. -/
def preamble (opts : LinkOptions) : List ShineFrame :=
  helloFrame :: if opts.password = [] then [] else [.auth opts.password]

/-- The server has answered HELLO, and OK to a password. -/
def Accepted (opts : LinkOptions) (read : List ShineFrame) : Prop :=
  ∃ v features, read = .hello v features :: if opts.password = [] then [] else [.ok]

/-- There are no sessions on the link. -/
structure Blank (l : Link) : Prop where
  heap : ∀ p, l.heap p = none
  posted : l.posted = []

/-- The link has sent `fs`, or a part of it before it was closed. -/
def Sent (s : Opening) (fs : List ShineFrame) : Prop :=
  s.node.out <+: fs ∧ (s.node.link.closed = false → s.node.out = fs)

/-- What has been sent and read where the coroutine stands, before the handshake is done. -/
def Phase (opts : LinkOptions) (s : Opening) : Prop :=
  match s.pc with
  | .sendHello => s.Sent [] ∧ s.read = []
  | .hello => s.Sent [helloFrame] ∧ s.read = []
  | .sendAuth => opts.password ≠ [] ∧ s.Sent [helloFrame] ∧ ∃ v x, s.read = [.hello v x]
  | .reply => opts.password ≠ [] ∧ s.Sent (preamble opts) ∧ ∃ v x, s.read = [.hello v x]
  | .returned => s.Sent (preamble opts) ∧ (s.node.link.closed = false → Accepted opts s.read)
  | .checked => s.node.out = preamble opts ∧ Accepted opts s.read
  | .stored | .signalled | .reader => False
  | .finished => s.node.out <+: preamble opts ∧ s.node.link.closed = true

/-- What holds in every state. -/
structure Order (opts : LinkOptions) (s : Opening) : Prop where
  before : s.handshakeDone = false →
    Blank s.node.link ∧ s.node.link.opts = opts ∧ s.Phase opts
  after : s.handshakeDone = true →
    preamble opts <+: s.node.out ∧ Accepted opts s.read ∧
      (s.pc = .stored ∨ s.pc = .signalled ∨ s.pc = .reader ∨ s.pc = .finished)

theorem Order.start (opts : LinkOptions) (now : UInt64) : Order opts (start opts now) where
  before _ := ⟨⟨fun _ => rfl, rfl⟩, rfl, ⟨List.prefix_rfl, fun _ => rfl⟩, rfl⟩
  after := nofun

/-- Once the handshake is done, the link may do anything. -/
theorem Order.of_done (h : Order opts s) (hdone : s.handshakeDone = true)
    (hout : s.node.out <+: t.node.out) (hread : t.read = s.read)
    (hpc : t.pc = .stored ∨ t.pc = .signalled ∨ t.pc = .reader ∨ t.pc = .finished)
    (hdone' : t.handshakeDone = true) : Order opts t where
  before hfalse := by
    rw [hdone'] at hfalse
    cases hfalse
  after _ := by
    obtain ⟨hpre, hacc, -⟩ := h.after hdone
    exact ⟨hpre.trans hout, hread ▸ hacc, hpc⟩

/-- A step that keeps what the order depends on. -/
theorem Order.of_eq (h : Order opts s) (hlink : t.node = s.node) (hread : t.read = s.read)
    (hpc : t.pc = s.pc) (hdone : t.handshakeDone = s.handshakeDone) : Order opts t := by
  obtain ⟨before, after⟩ := h
  constructor
  · simpa only [Phase, Sent, hlink, hread, hpc, hdone] using before
  · simpa only [hlink, hread, hpc, hdone] using after

/-- The events of the link that send no frame where there are no sessions. -/
def Quiet : Served.Event → Prop
  | .dispatch .. | .control _ | .openSession .. => False
  | .flush | .runPosted | .call .. | .failLink | .closeNow => True

/-- On a link without sessions a quiet event only flushes or closes. -/
theorem Blank.step {w w' : Served} {e : Served.Event} (hb : Blank w.link) (he : Quiet e)
    (h : w.step e = some w') :
    Blank w'.link ∧ w'.out = w.out ∧ w'.link.opts = w.link.opts ∧
      (w.link.closed = true → w'.link.closed = true) := by
  cases e with
  | dispatch _ _ => cases he
  | control _ => cases he
  | openSession _ _ _ => cases he
  | flush =>
    rw [Served.step] at h
    split at h
    · cases h
    · rename_i f rest hchan
      split_ifs at h
      cases h
      refine ⟨⟨hb.heap, hb.posted⟩, ?_, rfl, id⟩
      simp [Served.out, hchan]
  | runPosted => simp [Served.step, Link.runPosted, hb.posted] at h
  | call q op => simp [Served.step, SessionOp.run, hb.heap q] at h
  | failLink =>
    cases h
    refine ⟨⟨fun p => ?_, ?_⟩, ?_, ?_, fun _ => ?_⟩
    · rw [Served.setLink_link, Link.failLink]
      split_ifs
      · exact hb.heap p
      · simp [Link.resetAll_heap, hb.heap p]
    · rw [Served.setLink_link, Link.failLink]
      split_ifs
      · exact hb.posted
      · exact hb.posted
    · simp [Served.out]
    · exact Link.failLink_opts _
    · exact Link.failLink_closed _
  | closeNow =>
    cases h
    exact ⟨⟨hb.heap, hb.posted⟩, rfl, rfl, fun _ => rfl⟩

theorem Phase.mono (h : s.Phase opts) (hout : t.node.out = s.node.out)
    (hclosed : s.node.link.closed = true → t.node.link.closed = true) (hread : t.read = s.read)
    (hpc : t.pc = s.pc) : t.Phase opts := by
  have hopen (hf : t.node.link.closed = false) : s.node.link.closed = false := by
    by_contra hs
    rw [hclosed (Bool.not_eq_false _ ▸ hs)] at hf
    cases hf
  have hsent {fs} (hs : s.Sent fs) : t.Sent fs := by
    rw [Sent, hout]
    exact ⟨hs.1, fun hf => hs.2 (hopen hf)⟩
  unfold Phase at h ⊢
  rw [hpc, hread]
  cases hcase : s.pc <;> simp only [hcase] at h ⊢
  case sendHello => exact ⟨hsent h.1, h.2⟩
  case hello => exact ⟨hsent h.1, h.2⟩
  case sendAuth => exact ⟨h.1, hsent h.2.1, h.2.2⟩
  case reply => exact ⟨h.1, hsent h.2.1, h.2.2⟩
  case returned => exact ⟨hsent h.1, fun hf => h.2 (hopen hf)⟩
  case checked => exact ⟨hout ▸ h.1, h.2⟩
  case finished => exact ⟨hout ▸ h.1, hclosed h.2⟩

/-- A step of the link, which is a quiet one before the handshake is done. -/
theorem Order.node {e : Served.Event} (h : Order opts s) (hstep : s.node.step e = some t.node)
    (hquiet : s.handshakeDone = false → Quiet e) (hread : t.read = s.read) (hpc : t.pc = s.pc)
    (hdone : t.handshakeDone = s.handshakeDone) : Order opts t := by
  cases hd : s.handshakeDone with
  | true =>
    exact h.of_done hd (Served.out_prefix hstep) hread (hpc ▸ (h.after hd).2.2) (hdone.trans hd)
  | false =>
    obtain ⟨hblank, hopts, hphase⟩ := h.before hd
    obtain ⟨hblank', hout, hopts', hclosed⟩ := hblank.step (hquiet hd) hstep
    refine ⟨fun _ => ⟨hblank', hopts'.trans hopts, hphase.mono hout hclosed hread hpc⟩, ?_⟩
    intro ht
    rw [hdone, hd] at ht
    cases ht

/-- A step of the coroutine before the handshake is done. -/
theorem Order.of_before (hd : t.handshakeDone = false) (hblank : Blank t.node.link)
    (hopts : t.node.link.opts = opts) (hphase : t.Phase opts) : Order opts t where
  before _ := ⟨hblank, hopts, hphase⟩
  after ht := by
    rw [hd] at ht
    cases ht

/-- The handshake is not done where the coroutine has not stored that it is. -/
theorem Order.not_done (h : Order opts s)
    (hpc : ¬(s.pc = .stored ∨ s.pc = .signalled ∨ s.pc = .reader ∨ s.pc = .finished)) :
    s.handshakeDone = false ∧ Blank s.node.link ∧ s.node.link.opts = opts ∧ s.Phase opts := by
  have hd : s.handshakeDone = false := by
    by_contra hd
    exact hpc (h.after (Bool.not_eq_false _ ▸ hd)).2.2
  exact ⟨hd, h.before hd⟩

/-- The handshake is done where the coroutine has stored that it is. -/
theorem Order.done (h : Order opts s) (hpc : s.pc = .stored ∨ s.pc = .signalled ∨ s.pc = .reader) :
    s.handshakeDone = true := by
  cases hd : s.handshakeDone with
  | true => rfl
  | false =>
    have hphase := (h.before hd).2.2
    unfold Phase at hphase
    obtain hpc | hpc | hpc := hpc <;> simp only [hpc] at hphase

theorem Blank.enqueue {l : Link} (hb : Blank l) (f : ShineFrame) : Blank (l.enqueueFrame f) where
  heap p := by
    rw [Link.enqueueFrame_heap]
    exact hb.heap p
  posted := by
    rw [Link.enqueueFrame_posted]
    exact hb.posted

theorem Sent.enqueue {fs : List ShineFrame} (hs : s.Sent fs) (f : ShineFrame) (pc : StartPc) :
    (s.sendFrame f pc).Sent (fs ++ [f]) := by
  have hout : (s.sendFrame f pc).node.out = _ := Served.enqueue_out s.node f
  have hclosed : (s.sendFrame f pc).node.link.closed = s.node.link.closed :=
    Link.enqueueFrame_closed ..
  rw [Sent, hout, hclosed]
  split_ifs with hc
  · rw [hc]
    exact ⟨hs.1.trans (List.prefix_append fs [f]), nofun⟩
  · rw [hs.2 (Bool.not_eq_true _ ▸ hc)]
    exact ⟨List.prefix_rfl, fun _ => rfl⟩

theorem hello_le_preamble (opts : LinkOptions) : [helloFrame] <+: preamble opts := ⟨_, rfl⟩

theorem preamble_of_password (hp : opts.password ≠ []) :
    preamble opts = [helloFrame] ++ [.auth opts.password] := by
  simp [preamble, hp]

/-- `failLink` in the handshake. -/
theorem Order.failWith (h : Order opts s) (hd : s.handshakeDone = false)
    (hout : s.node.out <+: preamble opts) : Order opts (s.failWith .returned) := by
  obtain ⟨hblank, hopts, -⟩ := h.before hd
  obtain ⟨hblank', hout', hopts', -⟩ := hblank.step (e := .failLink) trivial rfl
  refine .of_before hd hblank' (hopts'.trans hopts) ⟨⟨?_, ?_⟩, ?_⟩
  · exact hout' ▸ hout
  · intro hf
    rw [show (s.failWith .returned).node.link.closed = true from Link.failLink_closed _] at hf
    cases hf
  · intro hf
    rw [show (s.failWith .returned).node.link.closed = true from Link.failLink_closed _] at hf
    cases hf

/-- The pieces of the coroutine that read nothing. -/
theorem Order.runPiece (h : Order opts s) (hrun : s.runPiece = some t) : Order opts t := by
  unfold Opening.runPiece at hrun
  split at hrun
  case h_1 hpc =>
    cases hrun
    obtain ⟨hd, hblank, hopts, hphase⟩ := h.not_done (by simp [hpc])
    simp only [Phase, hpc] at hphase
    refine .of_before hd (hblank.enqueue _) ?_ ⟨hphase.1.enqueue helloFrame .hello, hphase.2⟩
    exact (Link.enqueueFrame_opts ..).trans hopts
  case h_2 hpc =>
    cases hrun
    obtain ⟨hd, hblank, hopts, hphase⟩ := h.not_done (by simp [hpc])
    simp only [Phase, hpc] at hphase
    obtain ⟨hpass, hsent, hread⟩ := hphase
    refine .of_before hd (hblank.enqueue _) ?_ ⟨hpass, ?_, hread⟩
    · exact (Link.enqueueFrame_opts ..).trans hopts
    · rw [preamble_of_password hpass, hopts]
      exact hsent.enqueue _ _
  case h_3 hpc =>
    cases hrun
    obtain ⟨hd, hblank, hopts, hphase⟩ := h.not_done (by simp [hpc])
    simp only [Phase, hpc] at hphase
    refine .of_before hd hblank hopts ?_
    cases hclosed : s.node.link.closed with
    | true => exact ⟨hphase.1.1, hclosed⟩
    | false => exact ⟨hphase.1.2 hclosed, hphase.2 hclosed⟩
  case h_4 hpc =>
    cases hrun
    obtain ⟨-, -, -, hphase⟩ := h.not_done (by simp [hpc])
    simp only [Phase, hpc] at hphase
    refine ⟨nofun, fun _ => ⟨?_, hphase.2, .inl rfl⟩⟩
    exact hphase.1 ▸ List.prefix_rfl
  case h_5 hpc =>
    cases hrun
    have hd := h.done (.inl hpc)
    exact h.of_done hd List.prefix_rfl rfl (.inr (.inl rfl)) hd
  case h_6 hpc =>
    cases hrun
    have hd := h.done (.inr (.inl hpc))
    exact h.of_done hd List.prefix_rfl rfl (.inr (.inr (.inl rfl))) hd
  case h_7 hpc =>
    split_ifs at hrun
    cases hrun
    have hd := h.done (.inr (.inr hpc))
    exact h.of_done hd List.prefix_rfl rfl (.inr (.inr (.inr rfl))) hd
  all_goals cases hrun

/-- The frames, and the errors, that the coroutine reads. -/
theorem Order.takeFrame {now : UInt64} {f : Option ShineFrame} (h : Order opts s)
    (hrun : s.takeFrame now f = some t) : Order opts t := by
  unfold Opening.takeFrame at hrun
  split at hrun
  case h_1 hpc =>
    obtain ⟨hd, hblank, hopts, hphase⟩ := h.not_done (by simp [hpc])
    simp only [Phase, hpc] at hphase
    obtain ⟨hsent, hread⟩ := hphase
    split at hrun <;> cases hrun
    · refine .of_before hd hblank hopts ?_
      by_cases hpass : opts.password = []
      · have hpre : preamble opts = [helloFrame] := by simp [preamble, hpass]
        simp only [Phase, hopts, hpass, if_true, hread, List.nil_append, Accepted, hpre]
        exact ⟨hsent, fun _ => ⟨_, _, rfl⟩⟩
      · simp only [Phase, hopts, hpass, if_false, hread, List.nil_append]
        exact ⟨hpass, hsent, _, _, rfl⟩
    · exact h.failWith hd (hsent.1.trans (hello_le_preamble opts))
  case h_2 hpc =>
    obtain ⟨hd, hblank, hopts, hphase⟩ := h.not_done (by simp [hpc])
    simp only [Phase, hpc] at hphase
    obtain ⟨hpass, hsent, v, x, hread⟩ := hphase
    split at hrun <;> cases hrun
    · refine .of_before hd hblank hopts ⟨hsent, fun _ => ⟨v, x, ?_⟩⟩
      simp [hread, hpass]
    · exact h.failWith hd hsent.1
  case h_3 hpc =>
    have hd := h.done (.inr (.inr hpc))
    split_ifs at hrun
    split at hrun <;> cases hrun
    · rename_i f
      exact h.node (e := .dispatch now f) rfl (fun hf => by simp [hd] at hf) rfl rfl rfl
    · exact h.of_done hd (Served.out_prefix (e := .failLink) rfl) rfl (.inr (.inr (.inr rfl))) hd
  all_goals cases hrun

/-! ## What the calls are told -/

/-- What a call has learnt is true. -/
def Learnt (s : Opening) : WaitPc → Prop
  | .start | .checkClosed | .receiving => True
  | .resumed => s.handshakeDone = true ∨ s.node.link.closed = true
  | .opening | .opened => s.handshakeDone = true
  | .refused => s.node.link.closed = true

/-- What the signal says is true, and it says whatever there is to say. -/
structure Told (s : Opening) : Prop where
  heard : s.signal.queue ≠ [] ∨ s.signal.closed = true →
    s.handshakeDone = true ∨ s.node.link.closed = true
  closing : s.node.link.closed = true →
    s.failing = true ∨ s.posted = true ∨ s.signal.closed = true
  pending : s.failing = true ∨ s.posted = true → s.node.link.closed = true
  past : s.pc = .reader ∨ s.pc = .finished →
    s.signal.closed = true ∨ s.node.link.closed = true
  calls : ∀ i, s.Learnt (s.calls i)

theorem Told.start (opts : LinkOptions) (now : UInt64) : Told (start opts now) where
  heard := by simp [Opening.start]
  closing := nofun
  pending := by simp [Opening.start]
  past := by simp [Opening.start]
  calls _ := trivial

theorem Learnt.mono {pc : WaitPc} (h : s.Learnt pc)
    (hdone : s.handshakeDone = true → t.handshakeDone = true)
    (hclosed : s.node.link.closed = true → t.node.link.closed = true) : t.Learnt pc := by
  cases pc with
  | start => trivial
  | checkClosed => trivial
  | receiving => trivial
  | resumed => exact h.imp hdone hclosed
  | opening => exact hdone h
  | opened => exact hdone h
  | refused => exact hclosed h

/-- One call moves. -/
theorem Told.setCall {pc : WaitPc} (h : Told s) (i : Nat) (hpc : s.Learnt pc) :
    Told (s.setCall i pc) where
  heard := h.heard
  closing := h.closing
  pending := h.pending
  past := h.past
  calls j := by
    change Learnt _ (Function.update s.calls i pc j)
    rw [Function.update_apply]
    split_ifs
    · exact hpc
    · exact h.calls j

/-- A step of the link that does not close it. -/
theorem Told.node {w : Served} (h : Told s) (hclosed : w.link.closed = s.node.link.closed) :
    Told { s with node := w } where
  heard := by
    rw [hclosed]
    exact h.heard
  closing := by
    rw [hclosed]
    exact h.closing
  pending hp := hclosed.trans (h.pending hp)
  past := by
    rw [hclosed]
    exact h.past
  calls i := (h.calls i).mono id fun hc => hclosed.trans hc

/-- The coroutine moves to a place where it has not told anybody. -/
theorem Told.move {pc : StartPc} (h : Told s)
    (hpc : pc = .reader ∨ pc = .finished → s.signal.closed = true ∨ s.node.link.closed = true) :
    Told { s with pc := pc } where
  heard := h.heard
  closing := h.closing
  pending := h.pending
  past := hpc
  calls i := (h.calls i).mono id id

/-- `failLink` up to the signal. -/
theorem Told.failWith (h : Told s) (pc : StartPc) : Told (s.failWith pc) := by
  have hclosed : (s.failWith pc).node.link.closed = true := Link.failLink_closed _
  refine ⟨fun _ => .inr hclosed, fun _ => ?_, fun _ => hclosed, fun _ => .inr hclosed, fun i => ?_⟩
  · cases hc : s.node.link.closed with
    | true =>
      obtain hf | hrest := h.closing hc
      · exact .inl (by simp [Opening.failWith, hf])
      · exact .inr hrest
    | false => exact .inl (by simp [Opening.failWith, hc])
  · exact (h.calls i).mono id fun _ => hclosed

/-- `closeNow`. -/
theorem Told.closeNow (h : Told s) : Told
    { s with
      node := s.node.setLink s.node.link.closeNow
      posted := s.posted || !s.node.link.closed } := by
  refine ⟨fun _ => .inr rfl, fun _ => ?_, fun _ => rfl, fun _ => .inr rfl, fun i => ?_⟩
  · cases hc : s.node.link.closed with
    | true =>
      obtain hf | hp | hsig := h.closing hc
      · exact .inl hf
      · exact .inr (.inl (by simp [hp]))
      · exact .inr (.inr hsig)
    | false => exact .inr (.inl (by simp))
  · exact (h.calls i).mono id fun _ => rfl

/-- The signal is closed once there is something to tell. -/
theorem Told.close {failing posted : Bool} {pc : StartPc} (h : Told s)
    (hsaid : s.handshakeDone = true ∨ s.node.link.closed = true)
    (hpend : failing = true ∨ posted = true → s.node.link.closed = true) : Told
    { s with signal := s.signal.close, failing := failing, posted := posted, pc := pc } where
  heard _ := hsaid
  closing _ := .inr (.inr rfl)
  pending := hpend
  past _ := .inl rfl
  calls i := (h.calls i).mono id id

/-- The pieces of the coroutine that read nothing. -/
theorem Told.runPiece (h : Told s) (ho : Order opts s) (hrun : s.runPiece = some t) : Told t := by
  unfold Opening.runPiece at hrun
  split at hrun
  case h_1 =>
    cases hrun
    exact (h.node (Link.enqueueFrame_closed ..)).move (by simp)
  case h_2 =>
    cases hrun
    exact (h.node (Link.enqueueFrame_closed ..)).move (by simp)
  case h_3 =>
    cases hrun
    refine h.move ?_
    split_ifs with hc
    · exact fun _ => .inr hc
    · simp
  case h_4 =>
    cases hrun
    exact ⟨fun _ => .inl rfl, h.closing, h.pending, by simp,
      fun i => (h.calls i).mono (fun _ => rfl) id⟩
  case h_5 hpc =>
    cases hrun
    have hd := ho.done (.inl hpc)
    refine ⟨fun _ => .inl hd, ?_, h.pending, by simp, fun i => (h.calls i).mono id id⟩
    simpa using h.closing
  case h_6 hpc =>
    cases hrun
    exact h.close (.inl (ho.done (.inr (.inl hpc)))) h.pending
  case h_7 hpc =>
    split_ifs at hrun with hc
    cases hrun
    exact h.move fun _ => .inr hc
  all_goals cases hrun

/-- The frames, and the errors, that the coroutine reads. -/
theorem Told.takeFrame {now : UInt64} {f : Option ShineFrame} (h : Told s)
    (hrun : s.takeFrame now f = some t) : Told t := by
  unfold Opening.takeFrame at hrun
  split at hrun
  case h_1 =>
    split at hrun <;> cases hrun
    · refine ⟨h.heard, h.closing, h.pending, ?_, fun i => (h.calls i).mono id id⟩
      split_ifs <;> simp
    · exact h.failWith _
  case h_2 =>
    split at hrun <;> cases hrun
    · exact ⟨h.heard, h.closing, h.pending, by simp, fun i => (h.calls i).mono id id⟩
    · exact h.failWith _
  case h_3 =>
    split_ifs at hrun
    split at hrun <;> cases hrun
    · rename_i f
      exact h.node (s.node.link.dispatchFrame_kept f now).2.2
    · exact h.failWith _
  all_goals cases hrun

/-- A call hears the signal. -/
theorem Told.receiveSignal {i : Nat} (h : Told s) (hrun : s.receiveSignal i = some t) : Told t := by
  unfold Opening.receiveSignal at hrun
  split at hrun
  case h_1 u signal hrec =>
    cases hrun
    unfold Chan.receive at hrec
    split at hrec
    · cases hrec
    · rename_i u' rest hqueue
      cases hrec
      have hsaid := h.heard (.inl (hqueue ▸ List.cons_ne_nil _ _))
      have hset : Told (s.setCall i .resumed) := h.setCall i hsaid
      exact ⟨fun _ => hsaid, hset.closing, hset.pending, hset.past, hset.calls⟩
  case h_2 =>
    split_ifs at hrun with hclosed
    cases hrun
    exact h.setCall i (h.heard (.inr hclosed))

/-! ## Every run -/

/-- What holds in every state. -/
structure Inv (opts : LinkOptions) (s : Opening) : Prop where
  order : Order opts s
  told : Told s

theorem Inv.step {e : Event} (h : Inv opts s) (hstep : s.step e = some t) : Inv opts t := by
  obtain ⟨ho, ht⟩ := h
  cases e with
  | run => exact ⟨ho.runPiece hstep, ht.runPiece ho hstep⟩
  | frame now f => exact ⟨ho.takeFrame hstep, ht.takeFrame hstep⟩
  | fail =>
    cases hstep
    exact ⟨ho.node (e := .failLink) rfl (fun _ => trivial) rfl rfl rfl, ht.failWith _⟩
  | closeSignal =>
    simp only [Opening.step] at hstep
    split_ifs at hstep with hf
    cases hstep
    refine ⟨ho.of_eq rfl rfl rfl rfl, ht.close (.inr (ht.pending (.inl hf))) ?_⟩
    exact fun _ => ht.pending (.inl hf)
  | closeNow =>
    cases hstep
    exact ⟨ho.node (e := .closeNow) rfl (fun _ => trivial) rfl rfl rfl, ht.closeNow⟩
  | runClose =>
    simp only [Opening.step] at hstep
    split_ifs at hstep with hp
    cases hstep
    refine ⟨ho.of_eq rfl rfl rfl rfl, ht.close (.inr (ht.pending (.inr hp))) ?_⟩
    exact fun _ => ht.pending (.inr hp)
  | load i =>
    simp only [Opening.step] at hstep
    split at hstep <;> cases hstep
    refine ⟨ho.of_eq rfl rfl rfl rfl, ht.setCall i ?_⟩
    split_ifs with hd
    · exact hd
    · trivial
  | checkClosed i =>
    simp only [Opening.step] at hstep
    split at hstep <;> cases hstep
    refine ⟨ho.of_eq rfl rfl rfl rfl, ht.setCall i ?_⟩
    split_ifs with hc
    · exact hc
    · trivial
  | receive i =>
    simp only [Opening.step] at hstep
    split at hstep
    · refine ⟨?_, ht.receiveSignal hstep⟩
      unfold Opening.receiveSignal at hstep
      split at hstep
      · cases hstep
        exact ho.of_eq rfl rfl rfl rfl
      · split_ifs at hstep
        cases hstep
        exact ho.of_eq rfl rfl rfl rfl
    · cases hstep
  | result i =>
    simp only [Opening.step] at hstep
    split at hstep <;> cases hstep
    rename_i hcall
    refine ⟨ho.of_eq rfl rfl rfl rfl, ht.setCall i ?_⟩
    have hlearnt := ht.calls i
    rw [hcall] at hlearnt
    split_ifs with hd
    · exact hd
    · exact hlearnt.resolve_left hd
  | openSession i sid target isUdp =>
    simp only [Opening.step] at hstep
    split at hstep
    · rename_i hcall
      obtain ⟨w, hw, rfl⟩ := Option.map_eq_some_iff.mp hstep
      have hd := ht.calls i
      rw [hcall] at hd
      refine ⟨ho.node hw (fun hf => ?_) rfl rfl rfl, ?_⟩
      · rw [show s.handshakeDone = true from hd] at hf
        cases hf
      · have hset : Told (s.setCall i .opened) := ht.setCall i hd
        exact hset.node ((Served.step_kept hw).2 nofun nofun)
    · cases hstep
  | flush =>
    obtain ⟨w, hw, rfl⟩ := Option.map_eq_some_iff.mp hstep
    exact ⟨ho.node hw (fun _ => trivial) rfl rfl rfl, ht.node ((Served.step_kept hw).2 nofun nofun)⟩
  | call q op =>
    obtain ⟨w, hw, rfl⟩ := Option.map_eq_some_iff.mp hstep
    exact ⟨ho.node hw (fun _ => trivial) rfl rfl rfl, ht.node ((Served.step_kept hw).2 nofun nofun)⟩
  | runPosted =>
    obtain ⟨w, hw, rfl⟩ := Option.map_eq_some_iff.mp hstep
    exact ⟨ho.node hw (fun _ => trivial) rfl rfl rfl, ht.node ((Served.step_kept hw).2 nofun nofun)⟩
  | ping nonce =>
    simp only [Opening.step] at hstep
    split_ifs at hstep with hd
    obtain ⟨w, hw, rfl⟩ := Option.map_eq_some_iff.mp hstep
    refine ⟨ho.node hw (fun hf => ?_) rfl rfl rfl, ht.node ((Served.step_kept hw).2 nofun nofun)⟩
    rw [hd] at hf
    cases hf

theorem Inv.reach {now : UInt64} (h : system.Reach Lts.Free (start opts now) s) : Inv opts s :=
  h.invariant ⟨.start opts now, .start opts now⟩ fun _ _ _ hi _ hstep => hi.step hstep

/-- **A client link speaks of sessions only once the server has let it in**: until
`handshake_done_` is set it has sent a part of its HELLO and AUTH and has no session; after it,
the server has answered the HELLO and, where there is a password, said OK, and all that the link
sends comes after its HELLO and AUTH. -/
theorem sessions_after_handshake {now : UInt64}
    (h : system.Reach Lts.Free (start opts now) s) :
    (s.handshakeDone = false → s.node.out <+: preamble opts ∧ ∀ p, s.node.link.heap p = none) ∧
    (s.handshakeDone = true → preamble opts <+: s.node.out ∧ Accepted opts s.read) := by
  obtain ⟨ho, -⟩ := Inv.reach h
  refine ⟨fun hd => ?_, fun hd => ?_⟩
  · obtain ⟨hblank, -, hphase⟩ := ho.before hd
    refine ⟨?_, hblank.heap⟩
    unfold Phase at hphase
    split at hphase
    · exact hphase.1.1.trans List.nil_prefix
    · exact hphase.1.1.trans (hello_le_preamble opts)
    · exact hphase.2.1.1.trans (hello_le_preamble opts)
    · exact hphase.2.1.1
    · exact hphase.1.1
    · exact hphase.1 ▸ List.prefix_rfl
    · exact hphase.elim
    · exact hphase.elim
    · exact hphase.elim
    · exact hphase.1
  · obtain ⟨hpre, hacc, -⟩ := ho.after hd
    exact ⟨hpre, hacc⟩

/-- A client with a password. -/
def sampleOpts : LinkOptions := { Link.sampleOpts with password := ascii "pw" }

/-- The handshake with a password, up to the store. -/
def sampleEvents : List Event :=
  [.run, .frame 0 (some helloFrame), .run, .frame 0 (some .ok), .run, .run]

theorem sessions_after_handshake_password :
    ∃ s, system.Reach Lts.Free (start sampleOpts 0) s ∧ s.handshakeDone = true ∧
      [helloFrame, .auth (ascii "pw")] <+: s.node.out := by
  have hs : system.Reach Lts.Free (start sampleOpts 0) _ := Lts.reach_of_exec sampleEvents rfl
  exact ⟨_, hs, rfl, ((sessions_after_handshake hs).2 rfl).1⟩

/-- The call whose own step in `waitHandshake` an event is. -/
def Event.caller : Event → Option Nat
  | .load i | .checkClosed i | .receive i | .result i => some i
  | _ => none

/-- A step of the call `i` in `waitHandshake`. -/
def Own (i : Nat) (_ : Opening) (e : Event) : Prop := e.caller = some i

/-- The handshake is over, or the link is closed, and neither `failLink` nor the function that
`closeNow` posts still has to close the signal. -/
structure Settled (s : Opening) : Prop where
  ended : s.pc = .reader ∨ s.pc = .finished ∨ s.node.link.closed = true
  failing : s.failing = false
  posted : s.posted = false

/-- By then the signal is closed. -/
theorem Settled.signal (hs : Settled s) (h : Told s) : s.signal.closed = true := by
  have hclosed (hc : s.node.link.closed = true) : s.signal.closed = true := by
    obtain hf | hp | hsig := h.closing hc
    · rw [hs.failing] at hf
      cases hf
    · rw [hs.posted] at hp
      cases hp
    · exact hsig
  obtain hpc | hpc | hc := hs.ended
  · exact (h.past (.inl hpc)).elim id hclosed
  · exact (h.past (.inr hpc)).elim id hclosed
  · exact hclosed hc

/-- The call `i` can run to the end of `waitHandshake` by its own steps. -/
def Ends (i : Nat) (s : Opening) : Prop :=
  ∃ t, system.Reach (Own i) s t ∧
    (t.calls i = .opening ∨ t.calls i = .opened ∨ t.calls i = .refused)

theorem Ends.step {i : Nat} {e : Event} (hstep : s.step e = some t) (he : Own i s e)
    (ht : Ends i t) : Ends i s := by
  obtain ⟨u, hu, hend⟩ := ht
  exact ⟨u, (Lts.Reach.refl.tail he hstep).trans hu, hend⟩

@[simp] theorem setCall_self (s : Opening) (i : Nat) (pc : WaitPc) :
    (s.setCall i pc).calls i = pc := Function.update_self ..

/-- The steps of `waitHandshake`, from the last to the first. -/
theorem Ends.of_resumed {i : Nat} (hi : s.calls i = .resumed) : Ends i s := by
  have hstep : s.step (.result i)
      = some (s.setCall i (if s.handshakeDone then .opening else .refused)) := by
    simp only [Opening.step, hi]
  refine .step hstep rfl ⟨_, .refl, ?_⟩
  rw [setCall_self]
  split_ifs
  · exact .inl rfl
  · exact .inr (.inr rfl)

theorem Ends.of_receiving {i : Nat} (hsig : s.signal.closed = true) (hi : s.calls i = .receiving) :
    Ends i s := by
  have hrec : ∃ t, s.step (.receive i) = some t ∧ t.calls i = .resumed := by
    simp only [Opening.step, hi, Opening.receiveSignal]
    split
    · exact ⟨_, rfl, setCall_self ..⟩
    · rw [if_pos hsig]
      exact ⟨_, rfl, setCall_self ..⟩
  obtain ⟨t, hstep, ht⟩ := hrec
  exact .step hstep rfl (.of_resumed ht)

theorem Ends.of_checkClosed {i : Nat} (hsig : s.signal.closed = true)
    (hi : s.calls i = .checkClosed) : Ends i s := by
  have hstep : s.step (.checkClosed i)
      = some (s.setCall i (if s.node.link.closed then .refused else .receiving)) := by
    simp only [Opening.step, hi]
  refine .step hstep rfl ?_
  split_ifs
  · exact ⟨_, .refl, .inr (.inr (setCall_self ..))⟩
  · exact .of_receiving hsig (setCall_self ..)

theorem Ends.of_start {i : Nat} (hsig : s.signal.closed = true) (hi : s.calls i = .start) :
    Ends i s := by
  have hstep : s.step (.load i)
      = some (s.setCall i (if s.handshakeDone then .opening else .checkClosed)) := by
    simp only [Opening.step, hi]
  refine .step hstep rfl ?_
  split_ifs
  · exact ⟨_, .refl, .inl (setCall_self ..)⟩
  · exact .of_checkClosed hsig (setCall_self ..)

/-- **No call is left waiting, and none is told wrong**: in whatever order the handshake, a
failure, a `closeNow` and the calls run, once the link has settled every call can run to the end
of `waitHandshake` by its own steps alone; it then goes on to `openSession` only on a link whose
handshake is done, and fails only on one that is closed. -/
theorem waiters_told {now : UInt64} (h : system.Reach Lts.Free (start opts now) s)
    (hs : s.Settled) (i : Nat) :
    ∃ t, system.Reach (Own i) s t ∧
      ((t.calls i = .opening ∨ t.calls i = .opened) ∧ t.handshakeDone = true ∨
        t.calls i = .refused ∧ t.node.link.closed = true) := by
  have hsig := hs.signal (Inv.reach h).told
  have hends : Ends i s := by
    cases hi : s.calls i with
    | start => exact .of_start hsig hi
    | checkClosed => exact .of_checkClosed hsig hi
    | receiving => exact .of_receiving hsig hi
    | resumed => exact .of_resumed hi
    | opening => exact ⟨s, .refl, .inl hi⟩
    | opened => exact ⟨s, .refl, .inr (.inl hi)⟩
    | refused => exact ⟨s, .refl, .inr (.inr hi)⟩
  obtain ⟨t, ht, hend⟩ := hends
  have hlearnt := (Inv.reach (h.trans (ht.mono fun _ _ _ => trivial))).told.calls i
  refine ⟨t, ht, ?_⟩
  obtain hi | hi | hi := hend <;> rw [hi] at hlearnt
  · exact .inl ⟨.inl hi, hlearnt⟩
  · exact .inl ⟨.inr hi, hlearnt⟩
  · exact .inr ⟨hi, hlearnt⟩

/-- A call that was waiting before the handshake was done goes on to `openSession`. -/
theorem waiters_told_waiting :
    ∃ s, system.Reach Lts.Free (start sampleOpts 0) s ∧ s.calls 0 = .receiving ∧
      ∃ t, system.Reach (Own 0) s t ∧
        ((t.calls 0 = .opening ∨ t.calls 0 = .opened) ∧ t.handshakeDone = true ∨
          t.calls 0 = .refused ∧ t.node.link.closed = true) := by
  have hs : system.Reach Lts.Free (start sampleOpts 0) _ :=
    Lts.reach_of_exec (.load 0 :: .checkClosed 0 :: sampleEvents ++ [.run, .run]) rfl
  exact ⟨_, hs, rfl, waiters_told hs ⟨.inl rfl, rfl, rfl⟩ 0⟩

end Opening

end Shine
