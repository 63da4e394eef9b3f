import Shine.Transport.Guarantees

/-!
# Can a slow session block the link?

`Session::onData` sends a payload into `inbox_` from the link's reader coroutine, so a full
`inbox_` suspends the reader, and with it every other session of the link. Credit counts
bytes, while `inbox_` has room for 1024 payloads: a peer that obeys its credit can still send
more payloads than that, of one byte each.

`slow_session`: the reader always finds a free slot, in every run, exactly if the client's
`init_window` (which is the window of both directions) is at most 1024 bytes. One half is
window conservation, as no payload is empty (`roomy_of_window`); for the other a writer sends
single bytes to an application that does not read (`fills`).
-/

namespace Shine

/-- An `inbox_` as `Session` makes it: room for 1024 payloads, of which none is empty. -/
def SessionIo.Sized : SessionIo → Prop
  | .tcp inbox _ => inbox.cap = 1024 ∧ ∀ c ∈ inbox.queue, c ≠ []
  | .udp _ => True

/-- Every session object of the link has such an inbox. -/
def Link.Sized (l : Link) : Prop := ∀ p s, l.heap p = some s → s.io.Sized

namespace SessionIo.Sized

variable {s s' : Session}

theorem new (sid : UInt64) (target : Address) (peerWindow ourWindow : UInt32)
    (protocol : Protocol) : (Session.new sid target peerWindow ourWindow protocol).io.Sized := by
  cases protocol with
  | tcp => exact ⟨rfl, by simp [Chan.new]⟩
  | udp => trivial

theorem onData (h : s.io.Sized) (payload : Bytes) : (s.onData payload).io.Sized := by
  unfold Session.onData
  cases hio : s.io with
  | udp _ => simpa [hio] using h
  | tcp inbox signal =>
    rw [hio] at h
    obtain ⟨hcap, hne⟩ := h
    simp only
    split_ifs with hempty
    · simpa [hio] using ⟨hcap, hne⟩
    · -- `onData` has dropped the empty payloads
      unfold Chan.send
      split_ifs
      · exact ⟨hcap, hne⟩
      · refine ⟨hcap, fun c hc => ?_⟩
        rcases List.mem_append.mp hc with hold | hnew
        · exact hne c hold
        · rwa [List.mem_singleton.mp hnew]

theorem onUdpData (h : s.io.Sized) (payload : Bytes) (addr : Address) :
    (s.onUdpData payload addr).io.Sized := by
  unfold Session.onUdpData
  cases hio : s.io with
  | tcp _ _ => simpa [hio] using h
  | udp _ => trivial

theorem onWindow (h : s.io.Sized) (delta : UInt32) : (s.onWindow delta).io.Sized := by
  unfold Session.onWindow
  cases hio : s.io with
  | tcp _ _ =>
    rw [hio] at h
    exact h
  | udp _ => trivial

theorem closeAll {io : SessionIo} (h : io.Sized) : io.closeAll.Sized := by
  cases io with
  | tcp _ _ => exact h
  | udp _ => trivial

theorem closeInbox {io : SessionIo} (h : io.Sized) : io.closeInbox.Sized := by
  cases io with
  | tcp _ _ => exact h
  | udp _ => trivial

theorem receive (h : s.io.Sized) {k : Nat} {out : Bytes} (hr : s.receive k = .bytes out s') :
    s'.io.Sized := by
  unfold Session.receive at hr
  cases hio : s.io with
  | udp _ => simp [hio] at hr
  | tcp inbox signal =>
    rw [hio] at h
    obtain ⟨hcap, hne⟩ := h
    simp only [hio, Chan.receive] at hr
    cases hq : inbox.queue with
    | nil =>
      simp only [hq] at hr
      split_ifs at hr
    | cons pay rest =>
      simp only [hq] at hr
      cases hr
      have hsized : SessionIo.Sized (.tcp { inbox with queue := rest } signal) :=
        ⟨hcap, fun c hc => hne c (hq ▸ List.mem_cons_of_mem pay hc)⟩
      unfold Session.keepRest
      split_ifs <;> exact hsized

end SessionIo.Sized

namespace Link.Sized

variable {l l' : Link} {p : Nat} {f : Session → Session}

theorem of_heap (h : l.Sized) (hheap : l'.heap = l.heap) : l'.Sized := by
  intro q s hs
  rw [hheap] at hs
  exact h q s hs

theorem modify (h : l.Sized) (hf : ∀ s, s.io.Sized → (f s).io.Sized) : (l.modify p f).Sized := by
  intro q s hs
  rw [Link.modify_heap] at hs
  split_ifs at hs with hq
  · obtain ⟨s₀, hs₀, rfl⟩ := Option.map_eq_some_iff.mp hs
    exact hf s₀ (h p s₀ hs₀)
  · exact h q s hs

theorem emplace (h : l.Sized) {s : Session} (hs : s.io.Sized) : (l.emplace s).Sized := by
  intro q s' hs'
  rw [Link.emplace_heap] at hs'
  split_ifs at hs' with hq
  · cases hs'
    exact hs
  · exact h q s' hs'

theorem enqueueFrame (h : l.Sized) (fr : ShineFrame) : (l.enqueueFrame fr).Sized :=
  h.of_heap (Link.enqueueFrame_heap ..)

theorem accept (h : l.Sized) (sid : UInt64) (target : Address) (win : UInt32)
    (protocol : Protocol) : (l.accept sid target win protocol).Sized :=
  ((h.emplace (.new ..)).enqueueFrame (.ack sid)).of_heap rfl

theorem failLink (h : l.Sized) : l.failLink.Sized := by
  intro q s hs
  unfold Link.failLink at hs
  split_ifs at hs
  · exact h q s hs
  · obtain ⟨s₀, hs₀, rfl⟩ := Option.map_eq_some_iff.mp hs
    split_ifs
    · exact (h q s₀ hs₀).closeAll
    · exact h q s₀ hs₀

theorem openSession (h : l.Sized) (sid : UInt64) (target : Address) (isUdp : Bool) :
    (l.openSession sid target isUdp).Sized := by
  unfold Link.openSession
  split_ifs
  · exact h
  · exact (h.emplace (.new ..)).enqueueFrame _

theorem shutdownWrite (h : l.Sized) (p : Nat) : (l.shutdownWrite p).Sized := by
  unfold Link.shutdownWrite
  cases l.heap p with
  | none => exact h
  | some s =>
    simp only
    split_ifs
    · exact h
    · cases s.state with
      | init | halfClosedLocal | closed => exact h
      | opened =>
        have hmod : (l.modify p (·.setState .halfClosedLocal)).Sized := h.modify fun _ hs => hs
        exact hmod.enqueueFrame _
      | halfClosedRemote =>
        have hmod : (l.modify p (·.setState .closed)).Sized := h.modify fun _ hs => hs
        have herase : ((l.modify p (·.setState .closed)).eraseSession s.sid).Sized :=
          hmod.of_heap rfl
        exact herase.enqueueFrame _

theorem close (h : l.Sized) (p : Nat) : (l.close p).Sized := by
  unfold Link.close
  cases l.heap p with
  | none => exact h
  | some s =>
    simp only
    split_ifs
    · have hmod : (l.modify p (·.setState .closed)).Sized := h.modify fun _ hs => hs
      refine Link.Sized.modify ?_ fun _ hs => hs.closeAll
      exact (hmod.of_heap (Link.spawnEnqueue_heap ..)).of_heap rfl
    · exact h.modify fun _ hs => hs.closeAll

/-- Whatever frame is dispatched. -/
theorem dispatchFrame (h : l.Sized) (now : UInt64) (fr : ShineFrame) :
    (l.dispatchFrame now fr).Sized := by
  cases fr with
  | data sid payload =>
    simp only [Link.dispatchFrame]
    split
    · exact h
    · exact h.modify fun _ hs => hs.onData payload
  | udpData sid blob payload =>
    simp only [Link.dispatchFrame]
    split
    · exact h
    · split
      · exact h
      · exact h.modify fun _ hs => hs.onUdpData payload _
  | new sid blob win =>
    simp only [Link.dispatchFrame]
    split_ifs
    · exact h
    · split
      · exact h.enqueueFrame _
      · exact h.accept _ _ _ _
  | newUdp sid =>
    simp only [Link.dispatchFrame]
    split_ifs
    · exact h
    · exact h.accept _ _ _ _
  | close sid reason =>
    simp only [Link.dispatchFrame]
    split
    · exact h
    · rename_i q _
      have hmod : (l.modify q (·.onPeerClose)).Sized := h.modify fun _ hs => hs.closeInbox
      split_ifs
      · exact hmod.of_heap rfl
      · exact hmod
  | reset sid =>
    simp only [Link.dispatchFrame]
    split
    · exact h
    · rename_i q _
      have hmod : (l.modify q (·.onReset)).Sized := h.modify fun _ hs => hs.closeAll
      exact hmod.of_heap rfl
  | window sid delta =>
    simp only [Link.dispatchFrame]
    split
    · exact h
    · exact h.modify fun _ hs => hs.onWindow delta
  | ping nonce => exact h.enqueueFrame _
  | pong nonce =>
    simp only [Link.dispatchFrame]
    split_ifs
    · exact h.of_heap rfl
    · exact h
  | ack _ | hello _ _ | auth _ | ok | err _ _ => exact h

end Link.Sized

/-- A step of one end. -/
theorem Peer.step_sized {pe pe' : Peer} {act : LocalAct} (h : pe.link.Sized)
    (hstep : pe.step act = some pe') : pe'.link.Sized := by
  have hmod : ∀ {p : Nat} {s : Session}, s.io.Sized → (pe.link.modify p fun _ => s).Sized :=
    fun hs => h.modify fun _ _ => hs
  cases htarget : act.target with
  | none =>
    cases act with
    | openSession sid target =>
      cases hstep
      exact h.openSession sid target false
    | runPosted =>
      obtain ⟨l, hl, rfl⟩ := Option.map_eq_some_iff.mp hstep
      unfold Link.runPosted at hl
      split at hl <;> cases hl
      exact h.of_heap (Link.enqueueFrame_heap ..)
    | control f =>
      simp only [Peer.step, LocalAct.target] at hstep
      split_ifs at hstep
      cases hstep
      exact h.enqueueFrame f
    | failLink =>
      cases hstep
      exact h.failLink
    | closeNow =>
      cases hstep
      exact h.of_heap rfl
    | _ => cases htarget
  | some p =>
    obtain ⟨s, hs, hpiece⟩ := piece_of_step hstep htarget
    have hsized := h p s hs
    cases hpiece with
    | takeChunk => exact hmod hsized
    | sendChunk | sendWindow => exact h.enqueueFrame _
    | shutdownWrite => exact h.shutdownWrite p
    | close => exact h.close p
    | read_bytes n out s' _ hread =>
      obtain ⟨-, -, -, -, hio, -⟩ := Session.readStart_bytes hread
      exact hmod (hio ▸ hsized)
    | receive_bytes n out s' _ hread => exact hmod (hsized.receive hread)
    | check_due delta s' _ hdue =>
      obtain ⟨-, -, rfl⟩ := Session.takeWindow_some hdue
      exact hmod hsized
    | _ => exact h

open ShineFrame End

namespace Net

variable {n n' : Net}

/-- Every session object of both links. -/
def Sized (n : Net) : Prop := ∀ z, (n.peer z).link.Sized

theorem Sized.setPeer (h : n.Sized) {z : Side} {pe : Peer} (hpe : pe.link.Sized) :
    (n.setPeer z pe).Sized := by
  intro y
  by_cases hy : y = z
  · subst hy
    have hself : (n.setPeer y pe).peer y = pe := Function.update_self ..
    rwa [hself]
  · have hkept : (n.setPeer z pe).peer y = n.peer y := Function.update_of_ne hy ..
    rw [hkept]
    exact h y

/-- Every step. -/
theorem Sized.step (h : n.Sized) {e : NetEvent} (hstep : n.step e = some n') : n'.Sized := by
  cases e with
  | act z a =>
    obtain ⟨pe, hpe, rfl⟩ := Option.map_eq_some_iff.mp hstep
    exact h.setPeer (Peer.step_sized (h z) hpe)
  | flush z =>
    obtain ⟨f, rest, -, -, rfl⟩ := flush_of_step hstep
    exact h.setPeer ((h z).of_heap rfl)
  | dispatch z now =>
    obtain ⟨f, rest, -, rfl⟩ := dispatch_of_step hstep
    exact h.setPeer ((h z).dispatchFrame now _)
  | cut z k =>
    cases hstep
    exact h

/-- Every run. -/
theorem Sized.reach {client srv : LinkOptions} {now : UInt64} {ok : Net → NetEvent → Prop}
    (h : netSystem.Reach ok (start client srv now) n) : n.Sized := by
  refine h.invariant ?_ fun _ _ _ hn _ hstep => hn.step hstep
  intro z p s hs
  cases z <;> simp [start, Link.new] at hs

/-! ## Enough slots -/

/-- No reader coroutine is suspended in `onData`, and the next DATA frame that one of them
dispatches finds a free slot. -/
structure Roomy (n : Net) : Prop where
  unblocked : ∀ z p t inbox signal, (n.peer z).link.heap p = some t →
    t.io = .tcp inbox signal → inbox.sendBlocked = false
  slot : ∀ x sid c rest p t inbox signal, n.wire x = .data sid c :: rest →
    (n.peer x.other).link.findSession sid = some p → (n.peer x.other).link.heap p = some t →
    t.io = .tcp inbox signal → inbox.queue.length < inbox.cap

/-- Payloads that are not empty are no more than their bytes. -/
theorem length_le_flatten {q : List Bytes} (h : ∀ c ∈ q, c ≠ []) :
    q.length ≤ q.flatten.length := by
  induction q with
  | nil => exact Nat.le_refl _
  | cons c q ih =>
    have hc : 0 < c.length := List.length_pos_iff.mpr (h c List.mem_cons_self)
    have hq := ih fun c' hc' => h c' (List.mem_cons_of_mem c hc')
    rw [List.flatten_cons, List.length_append, List.length_cons]
    omega

variable {client srv : LinkOptions} {now : UInt64} {sid : UInt64} {x : Side} {p : Nat}
  {t : Session} {inbox : Chan Bytes} {signal : Chan Unit}

/-- **What waits at the reader and what is on its way** is within the client's window. -/
theorem queued_le (h : n.Inv client.initWindow srv.initWindow fun _ _ => False)
    (ht : (n.peer x.other).link.heap p = some t) (hsid : t.sid = sid) :
    (t.inboxQueue.flatten.length : Int)
      + (((n.wire x).filterMap (msgOf sid)).map Msg.chunk).flatten.length
      ≤ client.initWindow.toNat := by
  subst hsid
  have hobject := (h.peers x.other).distinct.object_of_heap ht
  have hflow := (h.sessions t.sid).flows (h.client_present hobject) x
  have hnonneg := hflow.balanced.credit_nonneg
  have htotal := hflow.balanced.total_le
  have hinbox : (flowOf (n.endOf client.initWindow t.sid x)
      (n.endOf client.initWindow t.sid x.other) (n.aborted t.sid)).inbox = t.inboxQueue := by
    show (n.endOf client.initWindow t.sid x.other).session.inboxQueue = _
    rw [(endOf_of_object hobject).2]
  have hcarried : (((n.wire x).filterMap (msgOf t.sid)).map Msg.chunk).flatten.length
      ≤ (flowOf (n.endOf client.initWindow t.sid x) (n.endOf client.initWindow t.sid x.other)
        (n.aborted t.sid)).carried.length := by
    show _ ≤ (((((n.peer x).traffic (n.wire x) (n.cut x)).filterMap (msgOf t.sid)).map
      Msg.chunk).flatten).length
    rw [Peer.traffic, List.filterMap_append, List.map_append, List.flatten_append,
      List.length_append]
    exact Nat.le_add_right ..
  rw [Flow.total, hinbox] at htotal
  omega

/-- A writer sends no empty payload. -/
theorem data_ne (h : n.Inv client.initWindow srv.initWindow fun _ _ => False)
    (ht : (n.peer x.other).link.heap p = some t) {c : Bytes}
    (hwire : .data t.sid c ∈ n.wire x) : c ≠ [] := by
  have hobject := (h.peers x.other).distinct.object_of_heap ht
  have hflow := (h.sessions t.sid).flows (h.client_present hobject) x
  refine hflow.ended.data_ne c (List.mem_filterMap.mpr ⟨.data t.sid c, ?_, by simp [msgOf]⟩)
  exact List.mem_append_left _ hwire

/-- **Window conservation leaves a slot free**, if the window has no more bytes than `inbox_`
has slots. -/
theorem roomy_of_window (hwindow : client.initWindow.toNat ≤ 1024)
    (hreach : netSystem.Reach FreshSids (start client srv now) n) : n.Roomy := by
  have h := inv_of_fresh hreach
  have hsized := Sized.reach hreach
  constructor
  · intro z p t inbox signal ht hio
    have hs := hsized z p t ht
    rw [hio] at hs
    obtain ⟨hcap, hne⟩ := hs
    have hle := queued_le (x := z.other) h (by rwa [Side.other_other]) rfl
    have hqueue : t.inboxQueue = inbox.queue := by rw [Session.inboxQueue, hio]; rfl
    have hlen := length_le_flatten hne
    rw [hqueue] at hle
    simp only [Chan.sendBlocked, gt_iff_lt, decide_eq_false_iff_not, not_lt]
    omega
  · intro x sid c rest p t inbox signal hwire hfind ht hio
    obtain ⟨t', ht', rfl, -⟩ := (h.peers x.other).sound.stored_live sid p hfind
    rw [ht] at ht'
    cases ht'
    have hs := hsized x.other p t ht
    rw [hio] at hs
    obtain ⟨hcap, hne⟩ := hs
    have hle := queued_le h ht rfl
    have hqueue : t.inboxQueue = inbox.queue := by rw [Session.inboxQueue, hio]; rfl
    have hlen := length_le_flatten hne
    -- the frame itself takes at least one byte of the window
    have hc : 0 < c.length :=
      List.length_pos_iff.mpr (data_ne h ht (hwire ▸ List.mem_cons_self))
    have hhead : c.length ≤ (((n.wire x).filterMap (msgOf t.sid)).map Msg.chunk).flatten.length := by
      rw [hwire, List.filterMap_cons]
      simp [msgOf]
    rw [hqueue] at hle
    omega

/-! ## A run that fills the inbox -/

/-- The session 7 has `credit` bytes left to write at `x`, `wire` is on its way, and `k`
payloads wait at a reader that does not read. -/
structure Filling (x : Side) (k : Nat) (credit : Nat) (wire : List ShineFrame) (n : Net) :
    Prop where
  live : (n.peer x).link.closed = false
  chan : (n.peer x).link.writeChan = []
  frame : 0 < (n.peer x).link.opts.maxDataFrame
  idle : ((n.peer x).app 7).writer = .idle
  writer : ∃ s, (n.peer x).link.heap 0 = some s ∧ s.sid = 7 ∧ s.state = .opened ∧
    s.sendCredit = credit
  wire_eq : n.wire x = wire
  uncut : n.cut x = false
  entry : (n.peer x.other).link.sessions 7 = some 0
  reader : ∃ t inbox signal, (n.peer x.other).link.heap 0 = some t ∧ t.io = .tcp inbox signal ∧
    inbox.closed = false ∧ inbox.cap = 1024 ∧ inbox.queue.length = k

section Byte

-- the pieces of a `write` of one byte on the session object 0
variable {pe : Peer} {s : Session} (hs : pe.link.heap 0 = some s)

include hs

theorem step_write (hidle : (pe.app s.sid).writer = .idle) (hlive : pe.link.closed = false)
    (hstate : s.state = .opened) : ∃ pe', pe.step (.write 0 [0]) = some pe' ∧
      pe'.link = pe.link ∧ (pe'.app s.sid).writer = .writing [0] [0] := by
  refine ⟨pe.setApp s.sid ((pe.app s.sid).accept [0]), ?_, rfl, ?_⟩
  · simp [Peer.step, LocalAct.target, hs, Peer.sessionStep, hidle, hlive, Session.writeClosed,
      hstate]
  · simp [Peer.setApp, App.accept]

theorem step_takeChunk (hwriting : (pe.app s.sid).writer = .writing [0] [0])
    (hcredit : 0 < s.sendCredit) (hframe : 0 < pe.link.opts.maxDataFrame) :
    ∃ pe', pe.step (.takeChunk 0) = some pe' ∧
      pe'.link = pe.link.modify 0 (fun _ => s.takeCredit 1) ∧
      (pe'.app s.sid).writer = .sending [0] [] [0] := by
  have hsize : s.chunkSize 1 pe.link.opts.maxDataFrame = 1 := by
    unfold Session.chunkSize
    omega
  refine ⟨pe.update 0 (s.takeCredit 1)
    { pe.app s.sid with writer := .sending [0] [] [0] }, ?_, rfl, ?_⟩
  · simp [Peer.step, LocalAct.target, hs, Peer.sessionStep, hwriting, Peer.takeChunk, hsize]
  · simp [Peer.update, Peer.setApp, Session.takeCredit]

theorem step_sendChunk (hsending : (pe.app s.sid).writer = .sending [0] [] [0]) :
    ∃ pe', pe.step (.sendChunk 0) = some pe' ∧
      pe'.link = pe.link.enqueueFrame (.data s.sid [0]) ∧ (pe'.app s.sid).writer = .idle := by
  refine ⟨pe.enqueue (.data s.sid [0]) s.sid ((pe.app s.sid).chunkSent [0] []), ?_, rfl, ?_⟩
  · simp [Peer.step, LocalAct.target, hs, Peer.sessionStep, hsending]
  · simp [Peer.enqueue, Peer.setApp, App.chunkSent]

end Byte

/-- An act of one end, as a step of the pair. -/
theorem reach_act {z : Side} {a : LocalAct} {pe : Peer} (hstep : (n.peer z).step a = some pe)
    (hfresh : FreshSids n (.act z a)) : ∃ n', netSystem.Reach FreshSids n n' ∧
      n'.peer z = pe ∧ n'.peer z.other = n.peer z.other ∧ n'.wire = n.wire ∧ n'.cut = n.cut := by
  refine ⟨{ n.setPeer z pe with aborted := abortedBy (n.peer z) n.aborted a },
    .tail .refl hfresh ?_, setPeer_peer pe, setPeer_peer_other pe, rfl, rfl⟩
  show n.step (.act z a) = _
  rw [step, hstep]
  rfl

/-- The writer coroutine, on an intact connection. -/
theorem reach_flush {z : Side} {f : ShineFrame} {rest : List ShineFrame}
    (hchan : (n.peer z).link.writeChan = f :: rest) (hlive : (n.peer z).link.closed = false)
    (huncut : n.cut z = false) : ∃ n', netSystem.Reach FreshSids n n' ∧
      n'.peer z = (n.peer z).setLink { (n.peer z).link with writeChan := rest } ∧
      n'.peer z.other = n.peer z.other ∧ n'.wire z = n.wire z ++ [f] ∧ n'.cut = n.cut := by
  have hstep := step_flush hchan (by simp [hlive])
  have hfresh : FreshSids n (.flush z) := trivial
  refine ⟨_, Lts.Reach.refl.tail hfresh hstep, setPeer_peer _, setPeer_peer_other _, ?_, rfl⟩
  rw [setWire_wire, huncut]
  rfl

/-- The reader coroutine of the other end. -/
theorem reach_dispatch {z : Side} {f : ShineFrame} {rest : List ShineFrame}
    (hwire : n.wire z = f :: rest) : ∃ n', netSystem.Reach FreshSids n n' ∧
      n'.peer z.other = (n.peer z.other).setLink ((n.peer z.other).link.dispatchFrame 0 f) ∧
      n'.peer z = n.peer z ∧ n'.wire z = rest ∧ n'.cut = n.cut := by
  rw [← Side.other_other z] at hwire
  have hfresh : FreshSids n (.dispatch z.other 0) := trivial
  refine ⟨_, Lts.Reach.refl.tail hfresh (step_dispatch hwire 0), setPeer_peer _,
    setPeer_other_peer _, ?_, rfl⟩
  simp [setWire]

/-- **One more byte is written** and put on the connection. -/
theorem Filling.offer {k credit : Nat} (h : Filling x k (credit + 1) [] n) :
    ∃ n', netSystem.Reach FreshSids n n' ∧ Filling x k credit [.data 7 [0]] n' := by
  obtain ⟨s, hs, hsid, hstate, hcredit⟩ := h.writer
  have hidle : ((n.peer x).app s.sid).writer = .idle := hsid ▸ h.idle
  obtain ⟨pe₁, hstep₁, hlink₁, hwriter₁⟩ := step_write hs hidle h.live hstate
  obtain ⟨n₁, hreach₁, rfl, hother₁, hwire₁, hcut₁⟩ := reach_act hstep₁ trivial
  obtain ⟨pe₂, hstep₂, hlink₂, hwriter₂⟩ := step_takeChunk (hlink₁ ▸ hs) hwriter₁ (by omega)
    (hlink₁ ▸ h.frame)
  obtain ⟨n₂, hreach₂, rfl, hother₂, hwire₂, hcut₂⟩ := reach_act hstep₂ trivial
  have hs₂ : (n₂.peer x).link.heap 0 = some (s.takeCredit 1) := by
    rw [hlink₂, Link.modify_heap_self, hlink₁, hs]
    rfl
  obtain ⟨pe₃, hstep₃, hlink₃, hwriter₃⟩ := step_sendChunk hs₂ hwriter₂
  obtain ⟨n₃, hreach₃, rfl, hother₃, hwire₃, hcut₃⟩ := reach_act hstep₃ trivial
  have hlive₂ : (n₂.peer x).link.closed = false := by rw [hlink₂, Link.modify_closed, hlink₁, h.live]
  have hchan₃ : (n₃.peer x).link.writeChan = [.data 7 [0]] := by
    rw [hlink₃, Link.enqueueFrame_writeChan, hlive₂, if_neg (by decide), hlink₂, Link.modify_writeChan,
      hlink₁, h.chan, List.nil_append]
    simp [Session.takeCredit, hsid]
  have hlive₃ : (n₃.peer x).link.closed = false := by
    rw [hlink₃, Link.enqueueFrame_closed, hlive₂]
  have huncut₃ : n₃.cut x = false := by rw [hcut₃, hcut₂, hcut₁, h.uncut]
  obtain ⟨n₄, hreach₄, hpeer₄, hother₄, hwire₄, hcut₄⟩ := reach_flush hchan₃ hlive₃ huncut₃
  have hreader : n₄.peer x.other = n.peer x.other := by rw [hother₄, hother₃, hother₂, hother₁]
  refine ⟨n₄, ((hreach₁.trans hreach₂).trans hreach₃).trans hreach₄, ?_⟩
  constructor
  · rw [hpeer₄]
    exact hlive₃
  · rw [hpeer₄]
    rfl
  · rw [hpeer₄]
    simpa [Peer.setLink, hlink₃, hlink₂, hlink₁] using h.frame
  · rw [hpeer₄, ← hsid]
    exact hwriter₃
  · refine ⟨s.takeCredit 1, ?_, hsid, hstate, ?_⟩
    · rw [hpeer₄]
      simpa [Peer.setLink, hlink₃] using hs₂
    · simp only [Session.takeCredit]
      omega
  · rw [hwire₄, hwire₃, hwire₂, hwire₁, h.wire_eq, List.nil_append]
  · rw [hcut₄, huncut₃]
  · rw [hreader]
    exact h.entry
  · rw [hreader]
    exact h.reader

/-- **The byte is dispatched**, and waits at the reader. -/
theorem Filling.take {k credit : Nat} (h : Filling x k credit [.data 7 [0]] n) :
    ∃ n', netSystem.Reach FreshSids n n' ∧ Filling x (k + 1) credit [] n' := by
  obtain ⟨t, inbox, signal, ht, hio, hopen, hcap, hlen⟩ := h.reader
  have hlink : (n.peer x.other).link.dispatchFrame 0 (.data 7 [0])
      = (n.peer x.other).link.modify 0 (·.onData [0]) := by
    simp [Link.dispatchFrame, Link.findSession, h.entry]
  obtain ⟨n', hreach, hpeer, hother, hwire, hcut⟩ := reach_dispatch h.wire_eq
  rw [hlink] at hpeer
  refine ⟨n', hreach, ?_⟩
  constructor
  · exact hother ▸ h.live
  · exact hother ▸ h.chan
  · exact hother ▸ h.frame
  · exact hother ▸ h.idle
  · exact hother ▸ h.writer
  · exact hwire
  · exact hcut ▸ h.uncut
  · rw [hpeer]
    exact h.entry
  · refine ⟨t.onData [0], inbox.send [0], signal, ?_, ?_, by simpa using hopen, ?_, ?_⟩
    · rw [hpeer, Peer.setLink, Link.modify_heap_self, ht]
      rfl
    · simp [Session.onData, hio]
    · simp [Chan.send, hopen, hcap]
    · simp [Chan.send, hopen, hlen]

/-- **The inbox fills** with one payload for each byte of credit. -/
theorem Filling.fills {k credit : Nat} (h : Filling x k credit [] n) {m : Nat}
    (hm : m ≤ credit) :
    ∃ n', netSystem.Reach FreshSids n n' ∧ Filling x (k + m) (credit - m) [] n' := by
  induction m with
  | zero => exact ⟨n, .refl, h⟩
  | succ m ih =>
    obtain ⟨n₁, hreach₁, h₁⟩ := ih (Nat.le_of_succ_le hm)
    obtain ⟨c, hc⟩ : ∃ c, credit - m = c + 1 := ⟨credit - m - 1, by omega⟩
    rw [hc] at h₁
    obtain ⟨n₂, hreach₂, h₂⟩ := h₁.offer
    obtain ⟨n₃, hreach₃, h₃⟩ := h₂.take
    have hcredit : credit - (m + 1) = c := by omega
    exact ⟨n₃, (hreach₁.trans hreach₂).trans hreach₃, by rw [hcredit]; exact h₃⟩

/-- The client opens the session, and the server accepts it. -/
def acceptEvents : List NetEvent :=
  [.act .client (.openSession 7 Link.sampleTarget), .flush .client, .dispatch .server 0,
    .flush .server, .dispatch .client 0]

/-- The options of one end. -/
def optsOf (client srv : LinkOptions) : Side → LinkOptions
  | .client => client
  | .server => srv

/-- Both ends may write as much as the client's window. -/
theorem filling_start (client srv : LinkOptions) (now : UInt64) (x : Side)
    (hframe : 0 < (optsOf client srv x).maxDataFrame) :
    ∃ n, netSystem.Reach FreshSids (start client srv now) n ∧
      Filling x 0 client.initWindow.toNat [] n := by
  refine ⟨_, Lts.reach_of_exec acceptEvents rfl, ?_⟩
  cases x with
  | client =>
    exact ⟨rfl, rfl, hframe, rfl, ⟨_, rfl, rfl, rfl, rfl⟩, rfl, rfl, rfl,
      ⟨_, _, _, rfl, rfl, rfl, rfl, rfl⟩⟩
  | server =>
    exact ⟨rfl, rfl, hframe, rfl, ⟨_, rfl, rfl, rfl, rfl⟩, rfl, rfl, rfl,
      ⟨_, _, _, rfl, rfl, rfl, rfl, rfl⟩⟩

/-- **With a larger window** a writer that obeys its credit finds the inbox full: it sends
1025 single bytes to an application that does not read. -/
theorem overfills (client srv : LinkOptions) (now : UInt64) (x : Side)
    (hframe : 0 < (optsOf client srv x).maxDataFrame)
    (hwindow : 1024 < client.initWindow.toNat) :
    ∃ n, netSystem.Reach FreshSids (start client srv now) n ∧ ¬ n.Roomy := by
  obtain ⟨n₀, hreach₀, h₀⟩ := filling_start client srv now x hframe
  obtain ⟨n₁, hreach₁, h₁⟩ := h₀.fills (m := 1024) hwindow.le
  obtain ⟨c, hc⟩ : ∃ c, client.initWindow.toNat - 1024 = c + 1 :=
    ⟨client.initWindow.toNat - 1025, by omega⟩
  rw [hc] at h₁
  obtain ⟨n₂, hreach₂, h₂⟩ := h₁.offer
  refine ⟨n₂, (hreach₀.trans hreach₁).trans hreach₂, fun hroomy => ?_⟩
  obtain ⟨t, inbox, signal, ht, hio, -, hcap, hlen⟩ := h₂.reader
  have hfree := hroomy.slot x 7 [0] [] 0 t inbox signal h₂.wire_eq h₂.entry ht hio
  omega

/-- **A slow session does not block the link exactly for small windows.** If the client's
window has at most 1024 bytes, then in every run every DATA frame finds a free slot in the
`inbox_` of its session when it is dispatched, whether its application reads or not, and no
reader coroutine is suspended in `onData`. With a larger window some run breaks this, from
either end that sends DATA at all. -/
theorem slow_session (client srv : LinkOptions) (now : UInt64) :
    (client.initWindow ≤ 1024 →
      ∀ n, netSystem.Reach FreshSids (start client srv now) n → n.Roomy) ∧
    ∀ x, 0 < (optsOf client srv x).maxDataFrame →
      (∀ n, netSystem.Reach FreshSids (start client srv now) n → n.Roomy) →
        client.initWindow ≤ 1024 := by
  constructor
  · intro hwindow n hreach
    exact roomy_of_window (UInt32.le_iff_toNat_le.mp hwindow) hreach
  · intro x hframe hroomy
    by_contra hlarge
    have hlt : 1024 < client.initWindow.toNat := by
      have hle : ¬ client.initWindow.toNat ≤ 1024 :=
        fun hle => hlarge (UInt32.le_iff_toNat_le.mpr hle)
      omega
    obtain ⟨n, hreach, hfull⟩ := overfills client srv now x hframe hlt
    exact hfull (hroomy n hreach)

/-- A window of 1025 bytes. -/
def wideOpts : LinkOptions := { Link.sampleOpts with initWindow := 1025 }

theorem slow_session_fails_on_wide_window :
    ¬ ∀ (client srv : LinkOptions) (now : UInt64) (n : Net),
      netSystem.Reach FreshSids (start client srv now) n → n.Roomy := by
  intro hall
  obtain ⟨n, hreach, hfull⟩ := overfills wideOpts wideOpts 0 .client (by decide) (by decide)
  exact hfull (hall wideOpts wideOpts 0 n hreach)

end Net

end Shine
