import Shine.Transport.Leaves

/-!
# What a session can rely on at one end

`NodeInv` determines the session object at one end of a pair: its state is the one that the
calls on it and the peer's CLOSE lead to (`stateOf`), and it is in the table exactly as long
as it is not Closed. One lemma for each step that concerns the session; the others are
covered by `NodeInv.of_leaves`.
-/

namespace Shine

/-- The state that the calls on a session and the peer's CLOSE lead to. -/
def stateOf (shutCalled closeCalled heard : Bool) : SessionState :=
  if closeCalled then .closed
  else if shutCalled then (if heard then .closed else .halfClosedLocal)
  else if heard then .halfClosedRemote
  else .opened

/-- The session object `p` of the node. -/
structure Holds (sid : UInt64) (n : Node) (p : Nat) (s : Session) : Prop where
  heap : n.link.heap p = some s
  sid_eq : s.sid = sid
  state : s.state = stateOf n.shutCalled n.closeCalled n.heard
  credit : ∀ closed, s.creditSignal = some closed → closed = n.closeCalled
  table : n.link.sessions sid = if s.state = .closed then none else some p
  unique : ∀ q s', n.link.heap q = some s' → s'.sid = sid → q = p

/-- What an end of the session can rely on. -/
structure NodeInv (sid : UInt64) (n : Node) : Prop where
  consistent : Consistent n.link
  absent : n.ptr = none → (∀ q s, n.link.heap q = some s → s.sid ≠ sid) ∧
    n.shutCalled = false ∧ n.closeCalled = false ∧ n.heard = false
  holds : ∀ p, n.ptr = some p → ∃ s, Holds sid n p s

namespace NodeInv

variable {sid : UInt64} {n n' : Node} {p : Nat} {s : Session}

/-- Without an object the table has no entry for the sid. -/
theorem no_entry (h : NodeInv sid n) (hnone : n.ptr = none) : n.link.sessions sid = none := by
  cases hq : n.link.sessions sid with
  | none => rfl
  | some q =>
    obtain ⟨s, hs, hsid⟩ := h.consistent.entry sid q hq
    exact absurd hsid ((h.absent hnone).1 q s hs)

/-- A step that does not concern the session. -/
theorem of_leaves (h : NodeInv sid n) (hl : Leaves sid n.link n'.link) (hptr : n'.ptr = n.ptr)
    (hshut : n'.shutCalled = n.shutCalled) (hclose : n'.closeCalled = n.closeCalled)
    (hheard : n'.heard = n.heard) : NodeInv sid n' where
  consistent := hl.consistent h.consistent
  absent hnone := by
    obtain ⟨hobjects, hflags⟩ := h.absent (hptr ▸ hnone)
    refine ⟨fun q s hs hsid => ?_, by rw [hshut, hclose, hheard]; exact hflags⟩
    exact hobjects q s ((hl.kept h.consistent q s hsid).mp hs) hsid
  holds p hp := by
    obtain ⟨s, hs⟩ := h.holds p (hptr ▸ hp)
    exact ⟨s,
      { heap := (hl.kept h.consistent p s hs.sid_eq).mpr hs.heap
        sid_eq := hs.sid_eq
        state := by rw [hshut, hclose, hheard]; exact hs.state
        credit := by rw [hclose]; exact hs.credit
        table := (hl.table h.consistent).trans hs.table
        unique := fun q s' hq hsid =>
          hs.unique q s' ((hl.kept h.consistent q s' hsid).mp hq) hsid }⟩

/-- A step that changes neither the objects nor the table. -/
theorem of_same (h : NodeInv sid n) (hheap : n'.link.heap = n.link.heap)
    (hnext : n'.link.next = n.link.next) (hsess : n'.link.sessions = n.link.sessions)
    (hptr : n'.ptr = n.ptr) (hshut : n'.shutCalled = n.shutCalled)
    (hclose : n'.closeCalled = n.closeCalled) (hheard : n'.heard = n.heard) :
    NodeInv sid n' where
  consistent := ⟨by rw [hsess, hheap]; exact h.consistent.entry,
    by rw [hheap, hnext]; exact h.consistent.bound⟩
  absent hnone := by
    rw [hheap, hshut, hclose, hheard]
    exact h.absent (hptr ▸ hnone)
  holds p hp := by
    obtain ⟨s, hs⟩ := h.holds p (hptr ▸ hp)
    exact ⟨s,
      { heap := by rw [hheap]; exact hs.heap
        sid_eq := hs.sid_eq
        state := by rw [hshut, hclose, hheard]; exact hs.state
        credit := by rw [hclose]; exact hs.credit
        table := by rw [hsess]; exact hs.table
        unique := by rw [hheap]; exact hs.unique }⟩

/-- **A step on the session object itself.** -/
theorem update (h : NodeInv sid n) (hs : Holds sid n p s) (s' : Session)
    (hptr : n'.ptr = some p)
    (hheap : ∀ q, n'.link.heap q = if q = p then some s' else n.link.heap q)
    (hnext : n'.link.next = n.link.next) (hsid : s'.sid = sid)
    (hstate : s'.state = stateOf n'.shutCalled n'.closeCalled n'.heard)
    (hcredit : ∀ closed, s'.creditSignal = some closed → closed = n'.closeCalled)
    (htable : ∀ sid', n'.link.sessions sid' =
      if sid' = sid then (if s'.state = .closed then none else some p)
      else n.link.sessions sid') : NodeInv sid n' where
  consistent := by
    constructor
    · intro sid' q hq
      rw [htable] at hq
      split_ifs at hq with hown hclosed
      · cases hq
        exact ⟨s', by rw [hheap, if_pos rfl], hsid.trans hown.symm⟩
      · obtain ⟨s₀, hs₀, rfl⟩ := h.consistent.entry sid' q hq
        have hne : q ≠ p := by
          rintro rfl
          rw [hs.heap] at hs₀
          cases hs₀
          exact hown hs.sid_eq
        exact ⟨s₀, by rw [hheap, if_neg hne, hs₀], rfl⟩
    · intro q s₀ hs₀
      rw [hheap] at hs₀
      rw [hnext]
      split_ifs at hs₀ with hq
      · exact hq ▸ h.consistent.bound p s hs.heap
      · exact h.consistent.bound q s₀ hs₀
  absent hnone := by simp [hptr] at hnone
  holds q hq := by
    rw [hptr] at hq
    cases hq
    exact ⟨s',
      { heap := by rw [hheap, if_pos rfl]
        sid_eq := hsid
        state := hstate
        credit := hcredit
        table := by rw [htable, if_pos rfl]
        unique := by
          intro q s₀ hs₀ hsid₀
          rw [hheap] at hs₀
          split_ifs at hs₀ with hq
          · exact hq
          · exact hs.unique q s₀ hs₀ hsid₀ }⟩

/-- A method of the session that keeps its state. -/
theorem modify (h : NodeInv sid n) (hs : Holds sid n p s) (hptr : n.ptr = some p)
    {f : Session → Session} (hsid : (f s).sid = s.sid) (hstate : (f s).state = s.state)
    (hcredit : (f s).creditSignal = s.creditSignal) :
    NodeInv sid (n.setLink (n.link.modify p f)) := by
  refine h.update hs (f s) hptr ?_ rfl (hsid.trans hs.sid_eq) (hstate.trans hs.state)
    (fun closed hc => hs.credit closed (hcredit ▸ hc)) ?_
  · intro q
    show (n.link.modify p f).heap q = _
    rw [Link.modify_heap, hs.heap]
    rfl
  · intro sid'
    show n.link.sessions sid' = _
    split_ifs with hown hclosed
    · rw [hown, hs.table, if_pos (hstate ▸ hclosed)]
    · rw [hown, hs.table, if_neg (hstate ▸ hclosed)]
    · rfl

/-! ## The calls that close -/

/-- `shutdownWrite` on an open link. -/
theorem shutdownWrite (h : NodeInv sid n) (hs : Holds sid n p s) (hptr : n.ptr = some p)
    (hopen : n.link.closed = false) :
    NodeInv sid { n.setLink (n.link.shutdownWrite p) with shutCalled := true } := by
  have hstate := hs.state
  -- what the call does depends on the state alone
  have hsame : n.link.shutdownWrite p = n.link → s.state = stateOf true n.closeCalled n.heard →
      NodeInv sid { n.setLink (n.link.shutdownWrite p) with shutCalled := true } := by
    intro hl hst
    refine h.update hs s hptr ?_ (congrArg Link.next hl) hs.sid_eq hst hs.credit ?_
    · intro q
      show (n.link.shutdownWrite p).heap q = _
      rw [hl]
      split_ifs with hq
      · rw [hq, hs.heap]
      · rfl
    · intro sid'
      show (n.link.shutdownWrite p).sessions sid' = _
      rw [hl]
      by_cases hown : sid' = sid
      · rw [if_pos hown, hown, hs.table]
      · rw [if_neg hown]
  cases hst : s.state with
  | init => simp [stateOf, hst] at hstate; split_ifs at hstate
  | halfClosedLocal =>
    refine hsame (by simp [Link.shutdownWrite, hs.heap, hst, hopen]) ?_
    rw [hst] at hstate ⊢
    cases hc : n.closeCalled <;> cases hsh : n.shutCalled <;> cases hh : n.heard <;>
      simp_all [stateOf]
  | closed =>
    refine hsame (by simp [Link.shutdownWrite, hs.heap, hst, hopen]) ?_
    rw [hst] at hstate ⊢
    cases hc : n.closeCalled <;> cases hsh : n.shutCalled <;> cases hh : n.heard <;>
      simp_all [stateOf]
  | opened =>
    have hl : n.link.shutdownWrite p
        = (n.link.modify p (·.setState .halfClosedLocal)).enqueueFrame (.close s.sid []) := by
      simp [Link.shutdownWrite, hs.heap, hst, hopen]
    refine h.update hs (s.setState .halfClosedLocal) hptr ?_ ?_ hs.sid_eq ?_ hs.credit ?_
    · intro q
      show (n.link.shutdownWrite p).heap q = _
      rw [hl, Link.enqueueFrame_heap, Link.modify_heap, hs.heap]
      rfl
    · show (n.link.shutdownWrite p).next = _
      rw [hl, Link.enqueueFrame_next, Link.modify_next]
    · rw [hst] at hstate
      show SessionState.halfClosedLocal = stateOf true n.closeCalled n.heard
      cases hc : n.closeCalled <;> cases hsh : n.shutCalled <;> cases hh : n.heard <;>
        simp_all [stateOf]
    · intro sid'
      show (n.link.shutdownWrite p).sessions sid' = _
      rw [hl, Link.enqueueFrame_sessions, Link.modify_sessions]
      by_cases hown : sid' = sid
      · rw [if_pos hown, hown, hs.table, hst]
        rfl
      · rw [if_neg hown]
  | halfClosedRemote =>
    have hl : n.link.shutdownWrite p
        = ((n.link.modify p (·.setState .closed)).eraseSession s.sid).enqueueFrame
          (.close s.sid []) := by
      simp [Link.shutdownWrite, hs.heap, hst, hopen]
    refine h.update hs (s.setState .closed) hptr ?_ ?_ hs.sid_eq ?_ hs.credit ?_
    · intro q
      show (n.link.shutdownWrite p).heap q = _
      rw [hl, Link.enqueueFrame_heap, Link.eraseSession_heap, Link.modify_heap, hs.heap]
      rfl
    · show (n.link.shutdownWrite p).next = _
      rw [hl, Link.enqueueFrame_next, Link.eraseSession_next, Link.modify_next]
    · rw [hst] at hstate
      show SessionState.closed = stateOf true n.closeCalled n.heard
      cases hc : n.closeCalled <;> cases hsh : n.shutCalled <;> cases hh : n.heard <;>
        simp_all [stateOf]
    · intro sid'
      show (n.link.shutdownWrite p).sessions sid' = _
      rw [hl, Link.enqueueFrame_sessions, Link.eraseSession_sessions, hs.sid_eq,
        Link.modify_sessions]
      rfl

/-- `close`. -/
theorem close (h : NodeInv sid n) (hs : Holds sid n p s) (hptr : n.ptr = some p) :
    NodeInv sid { n.setLink (n.link.close p) with closeCalled := true } := by
  have hcredit : ∀ closed, (s.setState .closed).closeChannels.creditSignal = some closed →
      closed = true := by
    intro closed hc
    unfold Session.closeChannels Session.creditSignal at hc
    cases hio : s.io with
    | tcp inbox signal => simpa [Session.setState, SessionIo.closeAll, hio] using hc.symm
    | udp inbox => simp [Session.setState, SessionIo.closeAll, hio] at hc
  refine h.update hs (s.setState .closed).closeChannels hptr ?_ ?_ ?_ ?_
    hcredit ?_
  · intro q
    show (n.link.close p).heap q = _
    simp only [Link.close, hs.heap]
    by_cases hclosed : s.state = .closed
    · have hsame : s.setState .closed = s := by
        rw [Session.setState, ← hclosed]
      rw [if_neg (by simpa using hclosed), Link.modify_heap, hs.heap, hsame]
      rfl
    · rw [if_pos hclosed, Link.modify_heap, Link.eraseSession_heap, Link.spawnEnqueue_heap,
        Link.modify_heap_self, hs.heap]
      split_ifs with hq
      · rfl
      · rw [Link.modify_heap, if_neg hq]
  · show (n.link.close p).next = _
    simp only [Link.close, hs.heap]
    split_ifs <;> simp
  · exact hs.sid_eq
  · rfl
  · intro sid'
    show (n.link.close p).sessions sid' = _
    simp only [Link.close, hs.heap]
    by_cases hclosed : s.state = .closed
    · rw [if_neg (by simpa using hclosed), Link.modify_sessions]
      by_cases hown : sid' = sid
      · rw [if_pos hown, hown, hs.table, if_pos hclosed]
        rfl
      · rw [if_neg hown]
    · rw [if_pos hclosed, Link.modify_sessions, Link.eraseSession_sessions,
        Link.spawnEnqueue_sessions, Link.modify_sessions, hs.sid_eq]
      rfl

/-! ## Frames of the session -/

/-- The entry of the sid is the session object, as long as it is not Closed. -/
theorem entry_eq (hs : Holds sid n p s) {q : Nat} (hq : n.link.sessions sid = some q) :
    q = p ∧ s.state ≠ .closed := by
  have htable := hs.table
  rw [hq] at htable
  split_ifs at htable with hclosed
  exact ⟨Option.some.inj htable, hclosed⟩

/-- The peer's CLOSE. -/
theorem onPeerClose (h : NodeInv sid n) (hs : Holds sid n p s) (hptr : n.ptr = some p)
    (now : UInt64) (reason : Bytes) (k : Nat) :
    NodeInv sid { n.setLink (n.link.dispatchFrame now (.close sid reason)) with
      taken := k, heard := true } := by
  have hstate := hs.state
  cases hq : n.link.sessions sid with
  | none =>
    -- the session has been closed at this end already
    have hclosed : s.state = .closed := by
      by_contra hne
      have htable := hs.table
      rw [hq, if_neg hne] at htable
      cases htable
    have hl : n.link.dispatchFrame now (.close sid reason) = n.link := by
      simp [Link.dispatchFrame, Link.findSession, hq]
    refine h.update hs s hptr ?_ (congrArg Link.next hl) hs.sid_eq ?_ hs.credit ?_
    · intro q
      show (n.link.dispatchFrame now (.close sid reason)).heap q = _
      rw [hl]
      split_ifs with hp
      · rw [hp, hs.heap]
      · rfl
    · show s.state = stateOf n.shutCalled n.closeCalled true
      rw [hclosed] at hstate ⊢
      cases hc : n.closeCalled <;> cases hsh : n.shutCalled <;> cases hh : n.heard <;>
        simp_all [stateOf]
    · intro sid'
      show (n.link.dispatchFrame now (.close sid reason)).sessions sid' = _
      rw [hl]
      by_cases hown : sid' = sid
      · rw [if_pos hown, hown, hs.table]
      · rw [if_neg hown]
  | some q =>
    obtain ⟨rfl, hlive⟩ := entry_eq hs hq
    have hafter : s.onPeerClose.state = stateOf n.shutCalled n.closeCalled true := by
      rw [Session.onPeerClose_state, hstate]
      rw [hstate] at hlive
      cases hc : n.closeCalled <;> cases hsh : n.shutCalled <;> cases hh : n.heard <;>
        simp_all [stateOf]
    have hcredit : s.onPeerClose.creditSignal = s.creditSignal := by
      unfold Session.onPeerClose Session.closeInbox Session.creditSignal
      cases hio : s.io <;> simp [Session.setState, hio, SessionIo.closeInbox]
    have hl : n.link.dispatchFrame now (.close sid reason)
        = if s.onPeerClose.state = .closed then
            (n.link.modify q (·.onPeerClose)).eraseSession sid
          else n.link.modify q (·.onPeerClose) := by
      simp only [Link.dispatchFrame, Link.findSession, hq, Link.modify_heap_self, hs.heap,
        Option.map_some, Option.some.injEq]
    refine h.update hs s.onPeerClose hptr ?_ ?_ ?_ hafter ?_ ?_
    · intro q'
      show (n.link.dispatchFrame now (.close sid reason)).heap q' = _
      rw [hl]
      split_ifs with hclosed hq'
      · rw [hq', Link.eraseSession_heap, Link.modify_heap_self, hs.heap]
        rfl
      · rw [Link.eraseSession_heap, Link.modify_heap, if_neg hq']
      · rename_i hq'
        rw [hq', Link.modify_heap_self, hs.heap]
        rfl
      · rename_i hq'
        rw [Link.modify_heap, if_neg hq']
    · show (n.link.dispatchFrame now (.close sid reason)).next = _
      rw [hl]
      split_ifs <;> rfl
    · rw [Session.onPeerClose_sid, hs.sid_eq]
    · rw [hcredit]
      exact hs.credit
    · intro sid'
      show (n.link.dispatchFrame now (.close sid reason)).sessions sid' = _
      rw [hl]
      split_ifs with hclosed hown hown
      · rw [Link.eraseSession_sessions, if_pos hown]
      · rw [Link.eraseSession_sessions, if_neg hown, Link.modify_sessions]
      · rw [Link.modify_sessions, hown, hq]
      · rfl

end NodeInv

/-- The frames other than NEW, NEW_UDP and RESET. -/
def ShineFrame.plain : ShineFrame → Bool
  | .new .. | .newUdp .. | .reset .. => false
  | _ => true

/-- A plain frame of a session is answered by none. -/
theorem Link.dispatchFrame_plain_frames (l : Link) (now : UInt64) {f : ShineFrame} {sid : UInt64}
    (hsession : f.session = some sid) (hplain : f.plain = true) :
    (l.dispatchFrame now f).writeChan = l.writeChan ∧
      (l.dispatchFrame now f).posted = l.posted ∧
      (l.dispatchFrame now f).onNewSession = l.onNewSession := by
  cases f with
  | data _ _ | window _ _ =>
    simp only [dispatchFrame]
    split <;> exact ⟨rfl, rfl, rfl⟩
  | udpData _ _ _ =>
    simp only [dispatchFrame]
    split
    · exact ⟨rfl, rfl, rfl⟩
    · split <;> exact ⟨rfl, rfl, rfl⟩
  | close _ _ =>
    simp only [dispatchFrame]
    split
    · exact ⟨rfl, rfl, rfl⟩
    · split_ifs <;> exact ⟨rfl, rfl, rfl⟩
  | ack _ => exact ⟨rfl, rfl, rfl⟩
  | new _ _ _ | newUdp _ | reset _ => cases hplain
  | hello _ _ | auth _ | ok | err _ _ | ping _ | pong _ => cases hsession

/-- `shutdownWrite` enqueues a CLOSE in the states in which this end may still write. -/
theorem Link.shutdownWrite_frames {l : Link} {p : Nat} {s : Session} (hs : l.heap p = some s)
    (hopen : l.closed = false) :
    (l.shutdownWrite p).writeChan = l.writeChan ++
        (if s.state = .opened ∨ s.state = .halfClosedRemote then [.close s.sid []] else []) ∧
      (l.shutdownWrite p).posted = l.posted ∧
      (l.shutdownWrite p).onNewSession = l.onNewSession := by
  cases hst : s.state <;>
    simp [Link.shutdownWrite, hs, hopen, hst, Link.enqueueFrame_writeChan]

/-- `close` spawns a CLOSE unless the session is Closed. -/
theorem Link.close_frames {l : Link} {p : Nat} {s : Session} (hs : l.heap p = some s)
    (hopen : l.closed = false) :
    (l.close p).posted = l.posted ++ (if s.state = .closed then [] else [.close s.sid []]) ∧
      (l.close p).writeChan = l.writeChan ∧
      (l.close p).onNewSession = l.onNewSession := by
  by_cases hst : s.state = .closed <;>
    simp [Link.close, hs, hopen, hst, Link.spawnEnqueue_posted]

theorem Link.enqueueFrame_extends (l : Link) {f : ShineFrame} {P : ShineFrame → Prop} (hf : P f) :
    ∃ extra, (l.enqueueFrame f).writeChan = l.writeChan ++ extra ∧ ∀ g ∈ extra, P g := by
  rw [Link.enqueueFrame_writeChan]
  split_ifs
  · exact ⟨[], (List.append_nil _).symm, by simp⟩
  · exact ⟨[f], rfl, by simpa using hf⟩

theorem Node.chunk_closed {sid : UInt64} {n n' : Node} {p i : Nat}
    (h : n.chunk sid p i = some n') : n'.link.closed = n.link.closed := by
  have hrun : ∀ {k : Nat} {r : Option Nat} {l : Link},
      (SessionOp.takeChunk k).run n.link p = some (r, l) → l.closed = n.link.closed := by
    intro k r l hrun
    obtain rfl | ⟨_, _, -, -, -, rfl⟩ | ⟨_, hop, -⟩ | ⟨hop, -⟩ | ⟨hop, -⟩ :=
      SessionOp.run_cases hrun
    · rfl
    · rfl
    all_goals cases hop
  unfold Node.chunk at h
  split at h
  · cases h
  · split at h
    · cases h
    · rename_i hchunk
      cases h
      exact hrun hchunk
    · rename_i hchunk
      cases h
      exact (Link.enqueueFrame_closed _ _).trans (hrun hchunk)

namespace NodeInv

variable {sid : UInt64} {n n' : Node} {p : Nat} {s : Session}

/-- A plain frame that keeps the session's state. -/
theorem dispatch_method (h : NodeInv sid n) (hs : Holds sid n p s) (hptr : n.ptr = some p)
    (now : UInt64) {f : ShineFrame} {g : Session → Session} (hopens : f.opensFor sid = false)
    (hcloses : f.closes sid = false)
    (hl : n.link.dispatchFrame now f = n.link ∨
      ∃ q, n.link.sessions sid = some q ∧ n.link.dispatchFrame now f = n.link.modify q g)
    (hsid : (g s).sid = s.sid) (hstate : (g s).state = s.state)
    (hcredit : (g s).creditSignal = s.creditSignal) : NodeInv sid (n.dispatch sid now f) := by
  have hnode : ∀ l, n.link.dispatchFrame now f = l → NodeInv sid (n.setLink l) →
      NodeInv sid (n.dispatch sid now f) := by
    rintro l rfl hinv
    exact hinv.of_same rfl rfl rfl (by simp [Node.dispatch, hopens, Node.setLink]) rfl rfl
      (by simp [Node.dispatch, hcloses, Node.setLink])
  rcases hl with hsame | ⟨q, hq, hmod⟩
  · exact hnode _ hsame (h.of_same rfl rfl rfl rfl rfl rfl rfl)
  · obtain ⟨rfl, -⟩ := entry_eq hs hq
    exact hnode _ hmod (h.modify hs hptr hsid hstate hcredit)

/-- **A plain frame of the session.** -/
theorem dispatch_plain (h : NodeInv sid n) (hs : Holds sid n p s) (hptr : n.ptr = some p)
    (now : UInt64) {f : ShineFrame} (hsession : f.session = some sid)
    (hplain : f.plain = true) : NodeInv sid (n.dispatch sid now f) := by
  cases f with
  | new _ _ _ | newUdp _ | reset _ => cases hplain
  | hello _ _ | auth _ | ok | err _ _ | ping _ | pong _ => cases hsession
  | ack _ =>
    exact h.dispatch_method hs hptr now (g := id) rfl rfl (.inl rfl) rfl rfl rfl
  | data sid' payload =>
    cases hsession
    refine h.dispatch_method hs hptr now (g := (·.onData payload)) rfl rfl ?_ (by simp) (by simp) ?_
    · simp only [Link.dispatchFrame, Link.findSession]
      cases hq : n.link.sessions sid with
      | none => exact .inl rfl
      | some q => exact .inr ⟨q, rfl, rfl⟩
    · unfold Session.onData Session.creditSignal
      cases hio : s.io with
      | udp inbox => simp [hio]
      | tcp inbox signal =>
        simp only
        split_ifs <;> simp [hio]
  | udpData sid' blob payload =>
    cases hsession
    cases haddr : Address.parseBinary blob with
    | error e =>
      refine h.dispatch_method hs hptr now (g := id) rfl rfl (.inl ?_) rfl rfl rfl
      simp only [Link.dispatchFrame, haddr]
      split <;> rfl
    | ok addr =>
      refine h.dispatch_method hs hptr now (g := (·.onUdpData payload addr)) rfl rfl ?_ (by simp)
        (by simp) ?_
      · simp only [Link.dispatchFrame, Link.findSession, haddr]
        cases hq : n.link.sessions sid with
        | none => exact .inl rfl
        | some q => exact .inr ⟨q, rfl, rfl⟩
      · unfold Session.onUdpData Session.creditSignal
        cases hio : s.io <;> simp [hio]
  | window sid' delta =>
    cases hsession
    refine h.dispatch_method hs hptr now (g := (·.onWindow delta)) rfl rfl ?_ rfl (by simp) ?_
    · simp only [Link.dispatchFrame, Link.findSession]
      cases hq : n.link.sessions sid with
      | none => exact .inl rfl
      | some q => exact .inr ⟨q, rfl, rfl⟩
    · unfold Session.onWindow Session.creditSignal
      cases hio : s.io <;> simp
  | close sid' reason =>
    cases hsession
    have hclose := h.onPeerClose hs hptr now reason (n.taken + 1)
    refine hclose.of_same rfl rfl rfl ?_ rfl rfl ?_
    · simp [Node.dispatch, ShineFrame.opensFor, Node.setLink]
    · simp [Node.dispatch, ShineFrame.closes, hptr]

/-- A new session's `credit_signal_` is open. -/
theorem creditSignal_new {target : Address} {peerWindow ourWindow : UInt32} {protocol : Protocol}
    {closed : Bool}
    (h : (Session.new sid target peerWindow ourWindow protocol).creditSignal = some closed) :
    closed = false := by
  cases protocol with
  | tcp => cases h; rfl
  | udp => cases h

/-- **The session object is made.** -/
theorem born (h : NodeInv sid n) (hnone : n.ptr = none) (s₀ : Session) (hsid : s₀.sid = sid)
    (hstate : s₀.state = .opened)
    (hcredit : ∀ closed, s₀.creditSignal = some closed → closed = false) {n' : Node} (hptr : n'.ptr = some n.link.next)
    (hheap : n'.link.heap = (n.link.emplace s₀).heap)
    (hnext : n'.link.next = n.link.next + 1)
    (hsess : n'.link.sessions = (n.link.emplace s₀).sessions)
    (hshut : n'.shutCalled = n.shutCalled) (hclose : n'.closeCalled = n.closeCalled)
    (hheard : n'.heard = n.heard) : NodeInv sid n' := by
  obtain ⟨hobjects, hflags⟩ := h.absent hnone
  have hfree := h.no_entry hnone
  have hat : ∀ q, n'.link.heap q = if q = n.link.next then some s₀ else n.link.heap q := by
    intro q
    rw [hheap, Link.emplace_heap]
  have htable : ∀ sid', n'.link.sessions sid'
      = if sid' = sid then some n.link.next else n.link.sessions sid' := by
    intro sid'
    rw [hsess, Link.emplace, hsid]
    simp only [hfree]
    exact Function.update_apply ..
  have hopened : s₀.state ≠ .closed := by simp [hstate]
  constructor
  · constructor
    · intro sid' q hq
      rw [htable] at hq
      split_ifs at hq with hown
      · cases hq
        exact ⟨s₀, by rw [hat, if_pos rfl], hsid.trans hown.symm⟩
      · obtain ⟨s', hs', hsid'⟩ := h.consistent.entry sid' q hq
        have hne : q ≠ n.link.next := Nat.ne_of_lt (h.consistent.bound q s' hs')
        exact ⟨s', by rw [hat, if_neg hne, hs'], hsid'⟩
    · intro q s' hs'
      rw [hat] at hs'
      rw [hnext]
      split_ifs at hs' with hq
      · omega
      · exact Nat.lt_succ_of_lt (h.consistent.bound q s' hs')
  · intro hnone'
    simp [hptr] at hnone'
  · intro p hp
    rw [hptr] at hp
    cases hp
    exact ⟨s₀,
      { heap := by rw [hat, if_pos rfl]
        sid_eq := hsid
        state := by rw [hstate, hshut, hclose, hheard, hflags.1, hflags.2.1, hflags.2.2]; rfl
        credit := by rw [hclose, hflags.2.1]; exact hcredit
        table := by rw [htable, if_pos rfl, if_neg hopened]
        unique := by
          intro q s' hs' hsid'
          rw [hat] at hs'
          split_ifs at hs' with hq
          · exact hq
          · exact absurd hsid' (hobjects q s' hs') }⟩

/-- `openSession` on an open link. -/
theorem openSession (h : NodeInv sid n) (hnone : n.ptr = none) (hopen : n.link.closed = false)
    (target : Address) (isUdp : Bool) :
    NodeInv sid { n.setLink (n.link.openSession sid target isUdp) with
      ptr := some n.link.next } := by
  have hl : n.link.openSession sid target isUdp
      = (n.link.emplace (n.link.openedSession sid target isUdp)).enqueueFrame
        (n.link.openFrame sid target isUdp) := by
    simp [Link.openSession, hopen]
  refine h.born hnone (n.link.openedSession sid target isUdp) rfl rfl
    (fun _ => creditSignal_new) rfl ?_ ?_ ?_ rfl rfl rfl
  · show (n.link.openSession sid target isUdp).heap = _
    rw [hl, Link.enqueueFrame_heap]
  · show (n.link.openSession sid target isUdp).next = _
    rw [hl, Link.enqueueFrame_next, Link.emplace_next]
  · show (n.link.openSession sid target isUdp).sessions = _
    rw [hl, Link.enqueueFrame_sessions]

/-- A NEW or NEW_UDP that is accepted. -/
theorem dispatch_accept (h : NodeInv sid n) (hnone : n.ptr = none) (now : UInt64)
    {f : ShineFrame} (hopens : f.opensFor sid = true) {target : Address} {win : UInt32}
    {protocol : Protocol}
    (hl : n.link.dispatchFrame now f = n.link.accept sid target win protocol) :
    NodeInv sid (n.dispatch sid now f) ∧ (n.dispatch sid now f).ptr = some n.link.next := by
  have hnext : (n.link.accept sid target win protocol).next = n.link.next + 1 := by
    simp [Link.accept]
  have hptr : (n.dispatch sid now f).ptr = some n.link.next := by
    simp [Node.dispatch, hnone, hopens, hl, hnext]
  refine ⟨?_, hptr⟩
  refine h.born hnone (.new sid target win n.link.opts.initWindow protocol) rfl rfl
    (fun _ => creditSignal_new) hptr
    ?_ ?_ ?_ rfl rfl ?_
  · show (n.link.dispatchFrame now f).heap = _
    rw [hl, Link.accept]
    simp only [Link.enqueueFrame_heap]
  · show (n.link.dispatchFrame now f).next = _
    rw [hl, hnext]
  · show (n.link.dispatchFrame now f).sessions = _
    rw [hl, Link.accept]
    simp only [Link.enqueueFrame_sessions]
  · simp [Node.dispatch, hnone]

/-- What `read` takes out of a session does not touch its `credit_signal_`. -/
theorem creditSignal_readStart {s s' : Session} {k : Nat} {out : Bytes}
    (h : s.readStart k = .bytes out s') : s'.creditSignal = s.creditSignal := by
  unfold Session.readStart at h
  split_ifs at h
  cases h
  unfold Session.dropLeftover
  split_ifs <;> rfl

theorem creditSignal_receive {s s' : Session} {k : Nat} {out : Bytes}
    (h : s.receive k = .bytes out s') : s'.creditSignal = s.creditSignal := by
  unfold Session.receive at h
  cases hio : s.io with
  | udp inbox => simp [hio] at h
  | tcp inbox signal =>
    simp only [hio] at h
    split at h
    · cases h
      unfold Session.keepRest
      split_ifs <;> simp [Session.creditSignal, Session.consumed, hio]
    · split_ifs at h

/-- **The pieces of `read`, `sendTo` and `receiveFrom`** keep the session's state. -/
theorem call (h : NodeInv sid n) (hs : Holds sid n p s) (hptr : n.ptr = some p)
    {op : SessionOp} {r : op.Ans} {l' : Link} (hreads : Node.reads sid op = true)
    (hrun : op.run n.link p = some (r, l')) : NodeInv sid (n.setLink l') := by
  have hkeep : NodeInv sid (n.setLink n.link) := h.of_same rfl rfl rfl rfl rfl rfl rfl
  obtain ⟨s₀, hs₀, happly⟩ := Option.bind_eq_some_iff.mp hrun
  rw [hs.heap] at hs₀
  cases hs₀
  cases op with
  | readStart k =>
    simp only [SessionOp.apply] at happly
    split at happly <;> cases happly
    · rename_i hread
      obtain ⟨-, -, -, -, -, hstate, -, hsid, -⟩ := Session.readStart_bytes hread
      exact h.modify hs hptr hsid hstate (creditSignal_readStart hread)
    · exact hkeep
    · exact hkeep
  | receive k =>
    simp only [SessionOp.apply] at happly
    split at happly <;> cases happly
    · rename_i hread
      obtain ⟨-, -, -, -, -, -, -, -, -, hstate, -, hsid, -⟩ := Session.receive_bytes hread
      exact h.modify hs hptr hsid hstate (creditSignal_receive hread)
    · exact hkeep
  | takeWindow =>
    simp only [SessionOp.apply] at happly
    split_ifs at happly <;> cases happly
    · exact hkeep
    · refine h.modify hs hptr ?_ ?_ ?_ <;> unfold Session.takeWindow <;> split_ifs <;> rfl
  | checkWrite =>
    simp only [SessionOp.apply] at happly
    split_ifs at happly <;> cases happly <;> exact hkeep
  | enqueueFrame f =>
    cases happly
    exact h.of_same (Link.enqueueFrame_heap _ _) (Link.enqueueFrame_next _ _)
      (Link.enqueueFrame_sessions _ _) rfl rfl rfl rfl
  | checkReceive =>
    cases happly
    exact hkeep
  | receiveDatagram =>
    simp only [SessionOp.apply, SessionOp.receiveUdp] at happly
    cases hio : s.io with
    | tcp inbox signal => simp [hio] at happly
    | udp inbox =>
      simp only [hio] at happly
      split at happly
      · cases happly
        exact h.modify hs hptr rfl rfl (by simp [Session.creditSignal, hio])
      · split_ifs at happly
        cases happly
        exact hkeep
  | takeChunk _ | shutdownWrite | close => cases hreads

/-- A write takes credit and enqueues a chunk. -/
theorem chunk (h : NodeInv sid n) (hs : Holds sid n p s) (hptr : n.ptr = some p) {i : Nat}
    (hchunk : n.chunk sid p i = some n') :
    NodeInv sid n' ∧ n'.ptr = n.ptr ∧ n'.served.sent = n.served.sent ∧ n'.taken = n.taken ∧
      n'.shutCalled = n.shutCalled ∧ n'.closeCalled = n.closeCalled ∧ n'.heard = n.heard ∧
      (∃ extra, n'.link.writeChan = n.link.writeChan ++ extra ∧
        ∀ f ∈ extra, f.plain = true) ∧
      n'.link.posted = n.link.posted ∧ n'.link.onNewSession = n.link.onNewSession := by
  unfold Node.chunk at hchunk
  split at hchunk
  · cases hchunk
  · rename_i data hdata
    split at hchunk
    · cases hchunk
    · rename_i l hrun
      obtain ⟨s₀, hs₀, happly⟩ := Option.bind_eq_some_iff.mp hrun
      simp only [SessionOp.apply] at happly
      split_ifs at happly <;> cases happly
      cases hchunk
      exact ⟨h.of_same rfl rfl rfl rfl rfl rfl rfl, rfl, rfl, rfl, rfl, rfl, rfl,
        ⟨[], (List.append_nil _).symm, by simp⟩, rfl, rfl⟩
    · rename_i k l hrun
      obtain ⟨s₀, hs₀, happly⟩ := Option.bind_eq_some_iff.mp hrun
      simp only [SessionOp.apply] at happly
      split_ifs at happly <;> cases happly
      cases hchunk
      have hcredit := h.modify hs hptr
        (f := (·.takeCredit (s₀.chunkSize data.length n.link.opts.maxDataFrame))) rfl rfl rfl
      refine ⟨hcredit.of_same (Link.enqueueFrame_heap _ _) (Link.enqueueFrame_next _ _)
        (Link.enqueueFrame_sessions _ _) rfl rfl rfl rfl, rfl, rfl, rfl, rfl, rfl, rfl, ?_,
        Link.enqueueFrame_posted _ _, Link.enqueueFrame_onNewSession _ _⟩
      exact Link.enqueueFrame_extends (n.link.modify p _) (P := fun f => f.plain = true) rfl

/-- **Once the peer's CLOSE has been dispatched**, the session is torn down exactly if it has
been closed at this end, or half-closed without a write that lacks credit. -/
theorem tornDown_iff (h : NodeInv sid n) (hheard : n.heard = true) :
    n.TornDown ↔ n.closeCalled = true ∨ (n.shutCalled = true ∧ ¬ n.OutOfCredit) := by
  obtain ⟨p, hp⟩ : ∃ p, n.ptr = some p := by
    refine Option.ne_none_iff_exists'.mp fun hnone => ?_
    obtain ⟨-, -, -, hunheard⟩ := h.absent hnone
    rw [hheard] at hunheard
    cases hunheard
  obtain ⟨s, hs⟩ := h.holds p hp
  have hsession : n.session = some s := by rw [Node.session, hp, Option.bind_some, hs.heap]
  have hclosed : s.state = .closed ↔ n.closeCalled = true ∨ n.shutCalled = true := by
    rw [hs.state, hheard]
    cases n.closeCalled <;> cases n.shutCalled <;> simp [stateOf]
  constructor
  · rintro ⟨p', s', hp', hheap, hstate, -, hidle⟩
    rw [hp] at hp'
    cases hp'
    rw [hs.heap] at hheap
    cases hheap
    rcases hclosed.mp hstate with hclose | hshut
    · exact .inl hclose
    · cases hclose : n.closeCalled with
      | true => exact .inl rfl
      | false =>
        refine .inr ⟨hshut, ?_⟩
        rintro ⟨hwrites, s', hs', htcp, hcredit⟩
        rw [hsession] at hs'
        cases hs'
        -- nothing but `close` closes `credit_signal_`, so the write waits
        obtain ⟨closed, hsignal⟩ : ∃ closed, s.creditSignal = some closed := by
          unfold Session.protocol at htcp
          unfold Session.creditSignal
          cases hio : s.io with
          | tcp _ signal => exact ⟨signal.closed, rfl⟩
          | udp _ => simp [hio] at htcp
        have hopen := hs.credit closed hsignal
        rw [hclose] at hopen
        exact hidle ⟨hwrites, s, hsession, hcredit, hopen ▸ hsignal⟩
  · intro hcalled
    have hstate : s.state = .closed := hclosed.mpr (hcalled.imp id And.left)
    refine ⟨p, s, hp, hs.heap, hstate, ?_, ?_⟩
    · intro sid' hentry
      obtain ⟨s', hs', hsid⟩ := h.consistent.entry sid' p hentry
      rw [hs.heap] at hs'
      cases hs'
      rw [← hsid, hs.sid_eq, hs.table, if_pos hstate] at hentry
      cases hentry
    · rintro ⟨hwrites, s', hs', hcredit, hsignal⟩
      rw [hsession] at hs'
      cases hs'
      rcases hcalled with hclose | ⟨-, hok⟩
      · have hopen := hs.credit false hsignal
        rw [hclose] at hopen
        cases hopen
      · refine hok ⟨hwrites, s, hsession, ?_, hcredit⟩
        unfold Session.creditSignal at hsignal
        unfold Session.protocol
        cases hio : s.io with
        | tcp _ _ => rfl
        | udp _ => simp [hio] at hsignal

end NodeInv

end Shine
