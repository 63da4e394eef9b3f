import Shine.Inbound.Served

/-!
# What a link leaves alone

Of all that can happen on a link (`Served.step`) only two things concern the datagrams of
a UDP session: the dispatch of one of its UDP_DATA frames, which may put a datagram into
its `udp_inbox_`, and `sendTo`, which enqueues one. `Spares F p l l'` says that the way
from `l` to `l'` is harmless to the session object `p`: what waits in its inbox is at most
taken out, it is not stored under another sid, and the frames that are enqueued satisfy
`F`. `Spares.step` has every event of the link except for those two.
-/

namespace Shine

/-- The datagrams waiting in `udp_inbox_`. -/
def Session.datagrams (s : Session) : List Datagram :=
  match s.io with
  | .tcp .. => []
  | .udp inbox => inbox.queue

namespace Session

variable (s : Session)

@[simp] theorem datagrams_setState (st : SessionState) :
    (s.setState st).datagrams = s.datagrams := rfl

@[simp] theorem datagrams_takeCredit (n : Nat) : (s.takeCredit n).datagrams = s.datagrams := rfl

@[simp] theorem datagrams_takeWindow : s.takeWindow.2.datagrams = s.datagrams := by
  unfold takeWindow
  split_ifs <;> rfl

@[simp] theorem datagrams_onData (payload : Bytes) :
    (s.onData payload).datagrams = s.datagrams := by
  unfold onData datagrams
  cases hio : s.io with
  | udp inbox => simp [hio]
  | tcp inbox signal =>
    simp only
    split_ifs
    · simp [hio]
    · rfl

@[simp] theorem datagrams_onWindow (delta : UInt32) :
    (s.onWindow delta).datagrams = s.datagrams := by
  unfold onWindow datagrams
  cases s.io <;> rfl

@[simp] theorem datagrams_closeChannels : s.closeChannels.datagrams = s.datagrams := by
  unfold closeChannels datagrams
  cases s.io <;> rfl

@[simp] theorem datagrams_closeInbox : s.closeInbox.datagrams = s.datagrams := by
  unfold closeInbox datagrams
  cases s.io <;> rfl

@[simp] theorem datagrams_onPeerClose : s.onPeerClose.datagrams = s.datagrams := by
  rw [onPeerClose, datagrams_closeInbox, datagrams_setState]

@[simp] theorem datagrams_onReset : s.onReset.datagrams = s.datagrams := by
  rw [onReset, datagrams_closeChannels, datagrams_setState]

/-- A full or closed queue drops the datagram. -/
theorem datagrams_onUdpData (payload : Bytes) (addr : Address) :
    (s.onUdpData payload addr).datagrams.Sublist (s.datagrams ++ [(payload, addr)]) := by
  unfold onUdpData datagrams
  cases hio : s.io with
  | tcp inbox signal => simp [hio]
  | udp inbox =>
    simp only [Chan.trySend]
    split_ifs
    · exact List.sublist_append_left ..
    · exact List.Sublist.refl _

end Session

/-- The datagrams waiting at the session object `p`. -/
def Link.inboxOf (l : Link) (p : Nat) : List Datagram :=
  ((l.heap p).map (·.datagrams)).getD []

/-- The way from `l` to `l'` is harmless to the session object `p`, and the frames that it
enqueues satisfy `F`. -/
structure Spares (F : ShineFrame → Prop) (p : Nat) (l l' : Link) : Prop where
  next : l.next ≤ l'.next
  table : p < l.next → ∀ sid, l'.sessions sid = some p → l.sessions sid = some p
  inbox : p < l.next → (l'.inboxOf p).Sublist (l.inboxOf p)
  written : ∃ extra, l'.writeChan = l.writeChan ++ extra ∧ ∀ f ∈ extra, F f
  posted : ∀ f ∈ l'.posted, f ∈ l.posted ∨ F f

namespace Spares

variable {F : ShineFrame → Prop} {p q : Nat} {l l' l'' : Link}

/-- A step that touches neither the objects nor the frames and stores nothing. -/
theorem of_eq (hheap : l'.heap = l.heap) (hnext : l'.next = l.next)
    (hsess : ∀ sid, l'.sessions sid = some p → l.sessions sid = some p)
    (hchan : l'.writeChan = l.writeChan) (hposted : l'.posted = l.posted) :
    Spares F p l l' where
  next := hnext ▸ Nat.le_refl _
  table _ := hsess
  inbox _ := by rw [Link.inboxOf, hheap, Link.inboxOf]
  written := ⟨[], by simp [hchan], by simp⟩
  posted f hf := .inl (hposted ▸ hf)

theorem refl : Spares F p l l := of_eq rfl rfl (fun _ h => h) rfl rfl

theorem trans (h : Spares F p l l') (h' : Spares F p l' l'') : Spares F p l l'' where
  next := h.next.trans h'.next
  table hp sid hs := h.table hp sid (h'.table (hp.trans_le h.next) sid hs)
  inbox hp := (h'.inbox (hp.trans_le h.next)).trans (h.inbox hp)
  written := by
    obtain ⟨extra, hchan, hF⟩ := h.written
    obtain ⟨extra', hchan', hF'⟩ := h'.written
    refine ⟨extra ++ extra', by rw [hchan', hchan, List.append_assoc], fun f hf => ?_⟩
    exact (List.mem_append.mp hf).elim (hF f) (hF' f)
  posted f hf := (h'.posted f hf).elim (h.posted f) .inr

theorem enqueueFrame {f : ShineFrame} (hf : F f) : Spares F p l (l.enqueueFrame f) where
  next := by simp
  table _ sid hs := by simpa using hs
  inbox _ := by simp [Link.inboxOf]
  written := by
    rw [Link.enqueueFrame_writeChan]
    split_ifs
    · exact ⟨[], by simp, by simp⟩
    · exact ⟨[f], rfl, by simpa using hf⟩
  posted g hg := .inl (by simpa using hg)

theorem spawnEnqueue {f : ShineFrame} (hf : F f) : Spares F p l (l.spawnEnqueue f) where
  next := by simp
  table _ sid hs := by simpa using hs
  inbox _ := by simp [Link.inboxOf]
  written := ⟨[], by simp, by simp⟩
  posted g hg := by
    rw [Link.spawnEnqueue_posted] at hg
    split_ifs at hg
    · exact .inl hg
    · rcases List.mem_append.mp hg with hold | hnew
      · exact .inl hold
      · exact .inr (List.mem_singleton.mp hnew ▸ hf)

/-- A method that puts nothing into the inbox. -/
theorem modify {f : Session → Session}
    (hf : ∀ s, l.heap q = some s → (f s).datagrams.Sublist s.datagrams) :
    Spares F p l (l.modify q f) where
  next := Nat.le_refl _
  table _ sid hs := hs
  inbox _ := by
    by_cases hne : p = q
    · subst hne
      cases hs : l.heap p with
      | none => simp [Link.inboxOf, hs]
      | some s => simpa [Link.inboxOf, hs] using hf s hs
    · rw [Link.inboxOf, Link.modify_heap, if_neg hne, Link.inboxOf]
  written := ⟨[], by simp, by simp⟩
  posted g hg := .inl hg

theorem eraseSession (sid : UInt64) : Spares F p l (l.eraseSession sid) :=
  of_eq rfl rfl (fun _ hs => Served.sessions_eraseSession hs) rfl rfl

/-- A new object does not take the place of another one. -/
theorem emplace (s : Session) : Spares F p l (l.emplace s) where
  next := by simp
  table hp sid hs := by
    rcases Link.emplace_sessions_cases hs with hold | hnew
    · exact hold
    · exact absurd hnew (Nat.ne_of_lt hp)
  inbox hp := by
    rw [Link.inboxOf, Link.emplace_heap, if_neg (Nat.ne_of_lt hp), Link.inboxOf]
  written := ⟨[], by simp, by simp⟩
  posted g hg := .inl hg

/-- Resetting every session keeps what waits in the inboxes. -/
theorem resetAll : Spares F p l ({ l with closed := true }.resetAll) where
  next := Nat.le_refl _
  table _ sid hs := by cases hs
  inbox _ := by
    rw [Link.inboxOf, Link.resetAll_heap, Link.inboxOf]
    cases l.heap p with
    | none => exact List.Sublist.refl _
    | some s =>
      simp only [Option.map_some, Option.getD_some]
      split_ifs <;> simp
  written := ⟨[], by simp [Link.resetAll], by simp⟩
  posted f hf := .inl hf

theorem failLink : Spares F p l l.failLink := by
  unfold Link.failLink
  split_ifs
  · exact refl
  · exact resetAll

/-! ## The pieces of the link -/

section Pieces

-- `F` holds of every frame that is not a datagram
variable (hF : ∀ f : ShineFrame, (∀ sid blob payload, f ≠ .udpData sid blob payload) → F f)

include hF

theorem accept (sid : UInt64) (target : Address) (win : UInt32) (protocol : Protocol) :
    Spares F p l (l.accept sid target win protocol) := by
  have hack : F (.ack sid) := hF _ (by simp)
  have hnew := (emplace (F := F) (p := p) (l := l)
    (.new sid target win l.opts.initWindow protocol)).trans (enqueueFrame hack)
  exact hnew.trans (of_eq rfl rfl (fun _ h => h) rfl rfl)

/-- Every frame but a datagram spares every inbox. -/
theorem dispatchFrame (now : UInt64) {f : ShineFrame}
    (hf : ∀ sid blob payload, f ≠ .udpData sid blob payload) :
    Spares F p l (l.dispatchFrame now f) := by
  cases f with
  | data sid payload =>
    simp only [Link.dispatchFrame]
    split
    · exact refl
    · exact modify (by simp)
  | udpData sid blob payload => exact absurd rfl (hf sid blob payload)
  | new sid blob win =>
    simp only [Link.dispatchFrame]
    split_ifs
    · exact refl
    · split
      · exact enqueueFrame (hF _ (by simp))
      · exact accept hF ..
  | newUdp sid =>
    simp only [Link.dispatchFrame]
    split_ifs
    · exact refl
    · exact accept hF ..
  | close sid reason =>
    simp only [Link.dispatchFrame]
    split
    · exact refl
    · split_ifs
      · exact (modify (by simp)).trans (eraseSession sid)
      · exact modify (by simp)
  | reset sid =>
    simp only [Link.dispatchFrame]
    split
    · exact refl
    · exact (modify (by simp)).trans (eraseSession sid)
  | window sid delta =>
    simp only [Link.dispatchFrame]
    split
    · exact refl
    · exact modify (by simp)
  | ping nonce => exact enqueueFrame (hF _ (by simp))
  | pong nonce =>
    simp only [Link.dispatchFrame]
    split_ifs
    · exact of_eq rfl rfl (fun _ h => h) rfl rfl
    · exact refl
  | ack _ | hello _ _ | auth _ | ok | err _ _ => exact refl

theorem openSession (sid : UInt64) (target : Address) (isUdp : Bool) :
    Spares F p l (l.openSession sid target isUdp) := by
  have hopen : F (l.openFrame sid target isUdp) := by
    unfold Link.openFrame
    split_ifs <;> exact hF _ (by simp)
  unfold Link.openSession
  split_ifs
  · exact refl
  · exact (emplace _).trans (enqueueFrame hopen)

theorem shutdownWrite (q : Nat) : Spares F p l (l.shutdownWrite q) := by
  have hclose : ∀ sid, F (.close sid []) := fun sid => hF _ (by simp)
  unfold Link.shutdownWrite
  cases l.heap q with
  | none => exact refl
  | some s =>
    simp only
    split_ifs
    · exact refl
    · cases s.state with
      | init | halfClosedLocal | closed => exact refl
      | opened => exact (modify (by simp)).trans (enqueueFrame (hclose _))
      | halfClosedRemote =>
        exact ((modify (by simp)).trans (eraseSession _)).trans (enqueueFrame (hclose _))

theorem close (q : Nat) : Spares F p l (l.close q) := by
  have hclose : ∀ sid, F (.close sid []) := fun sid => hF _ (by simp)
  unfold Link.close
  cases l.heap q with
  | none => exact refl
  | some s =>
    simp only
    split_ifs
    · exact (((modify (by simp)).trans (spawnEnqueue (hclose _))).trans (eraseSession _)).trans
        (modify (by simp))
    · exact modify (by simp)

end Pieces

/-- What a piece of `read` or `receiveFrom` takes out of the session. -/
theorem datagrams_readStart {s s' : Session} {n : Nat} {out : Bytes}
    (h : s.readStart n = .bytes out s') : s'.datagrams = s.datagrams := by
  unfold Session.readStart at h
  split_ifs at h
  cases h
  unfold Session.dropLeftover
  split_ifs <;> rfl

theorem datagrams_receive {s s' : Session} {n : Nat} {out : Bytes}
    (h : s.receive n = .bytes out s') : s'.datagrams = s.datagrams := by
  unfold Session.receive at h
  cases hio : s.io with
  | udp inbox => simp [hio] at h
  | tcp inbox signal =>
    simp only [hio] at h
    split at h
    · cases h
      unfold Session.keepRest
      split_ifs <;> simp [Session.datagrams, Session.consumed, hio]
    · split_ifs at h

/-- Taking a datagram out of the inbox. -/
theorem inboxOf_receive {d : Datagram} (h : SessionOp.receiveDatagram.run l p = some (some d, l')) :
    l.inboxOf p = d :: l'.inboxOf p := by
  obtain ⟨s, hs, happly⟩ := Option.bind_eq_some_iff.mp h
  simp only [SessionOp.apply, SessionOp.receiveUdp] at happly
  cases hio : s.io with
  | tcp inbox signal => simp [hio] at happly
  | udp inbox =>
    simp only [hio, Chan.receive] at happly
    cases hqueue : inbox.queue with
    | nil =>
      simp only [hqueue] at happly
      split_ifs at happly
      cases happly
    | cons first rest =>
      simp only [hqueue] at happly
      cases happly
      simp [Link.inboxOf, hs, Session.datagrams, hio, hqueue]

/-- **Every piece of a session's methods** spares every inbox, where the frame that it
enqueues satisfies `F`. -/
theorem call (hF : ∀ f : ShineFrame, (∀ sid blob payload, f ≠ .udpData sid blob payload) → F f)
    {op : SessionOp} {r : op.Ans} (hrun : op.run l q = some (r, l'))
    (hop : ∀ f, op = .enqueueFrame f → F f) : Spares F p l l' := by
  obtain ⟨s, hs, happly⟩ := Option.bind_eq_some_iff.mp hrun
  -- the pieces that replace the object they were called on
  have hmodify : ∀ {s' : Session}, s'.datagrams.Sublist s.datagrams →
      Spares F p l (l.modify q fun _ => s') := by
    intro s' hs'
    refine modify fun s₀ hs₀ => ?_
    rw [hs] at hs₀
    cases hs₀
    exact hs'
  cases op with
  | readStart n =>
    simp only [SessionOp.apply] at happly
    split at happly <;> cases happly
    · rename_i hread
      exact hmodify (by rw [datagrams_readStart hread])
    · exact refl
    · exact refl
  | receive n =>
    simp only [SessionOp.apply] at happly
    split at happly <;> cases happly
    · rename_i hread
      exact hmodify (by rw [datagrams_receive hread])
    · exact refl
  | takeWindow =>
    simp only [SessionOp.apply] at happly
    split_ifs at happly <;> cases happly
    · exact refl
    · exact hmodify (by simp)
  | checkWrite =>
    simp only [SessionOp.apply] at happly
    split_ifs at happly <;> cases happly <;> exact refl
  | takeChunk remaining =>
    simp only [SessionOp.apply] at happly
    split_ifs at happly <;> cases happly
    · exact modify (by simp)
    · exact refl
  | enqueueFrame f =>
    cases happly
    exact enqueueFrame (hop f rfl)
  | shutdownWrite =>
    cases happly
    exact shutdownWrite hF q
  | close =>
    cases happly
    exact close hF q
  | checkReceive =>
    cases happly
    exact refl
  | receiveDatagram =>
    simp only [SessionOp.apply, SessionOp.receiveUdp] at happly
    cases hio : s.io with
    | tcp inbox signal => simp [hio] at happly
    | udp inbox =>
      simp only [hio, Chan.receive] at happly
      cases hqueue : inbox.queue with
      | nil =>
        simp only [hqueue] at happly
        split_ifs at happly
        cases happly
        exact refl
      | cons first rest =>
        simp only [hqueue] at happly
        cases happly
        refine modify fun s₀ hs₀ => ?_
        rw [hs] at hs₀
        cases hs₀
        simp [Session.datagrams, hio, hqueue]

end Spares

namespace Served

variable {F : ShineFrame → Prop} {p : Nat} {w w' : Served}

/-- The frames that an event enqueues by itself. -/
def Event.enqueues : Event → Option ShineFrame
  | .call _ (.enqueueFrame f) => some f
  | _ => none

/-- What the event dispatches. -/
def Event.dispatches : Event → Option ShineFrame
  | .dispatch _ f => some f
  | _ => none

/-- One step as the session object `p` and the peer see it. -/
structure Quiet (F : ShineFrame → Prop) (p : Nat) (w w' : Served) : Prop where
  next : w.link.next ≤ w'.link.next
  table : p < w.link.next → ∀ sid, w'.link.sessions sid = some p → w.link.sessions sid = some p
  inbox : p < w.link.next → (w'.link.inboxOf p).Sublist (w.link.inboxOf p)
  sent : w.sent <+: w'.sent
  out : ∃ extra, w'.out = w.out ++ extra ∧ ∀ f ∈ extra, F f
  posted : ∀ f ∈ w'.link.posted, f ∈ w.link.posted ∨ F f
  injected : w'.injected = w.injected

theorem Quiet.of_spares {l : Link} (h : Spares F p w.link l) : Quiet F p w (w.setLink l) where
  next := h.next
  table := h.table
  inbox := h.inbox
  sent := List.prefix_rfl
  out := by
    obtain ⟨extra, hchan, hF⟩ := h.written
    exact ⟨extra, by simp [Served.out, hchan], hF⟩
  posted := h.posted
  injected := rfl

/-- **Every event of the link** other than the dispatch of a datagram. -/
theorem quiet_step
    (hF : ∀ f : ShineFrame, (∀ sid blob payload, f ≠ .udpData sid blob payload) → F f)
    (hposted : ∀ f ∈ w.link.posted, F f) {e : Event} (hstep : w.step e = some w')
    (hout : ∀ f, e.enqueues = some f → F f)
    (hin : ∀ sid blob payload, e.dispatches ≠ some (.udpData sid blob payload)) :
    Quiet F p w w' := by
  cases e with
  | dispatch now f =>
    cases hstep
    refine .of_spares (.dispatchFrame hF now fun sid blob payload hf => ?_)
    exact hin sid blob payload (congrArg some hf)
  | flush =>
    rw [Served.step] at hstep
    split at hstep
    · cases hstep
    · rename_i f rest hchan
      split_ifs at hstep
      cases hstep
      exact
        { next := Nat.le_refl _
          table := fun _ _ hs => hs
          inbox := fun _ => List.Sublist.refl _
          sent := List.prefix_append ..
          out := ⟨[], by simp [Served.out, hchan], by simp⟩
          posted := fun g hg => .inl hg
          injected := rfl }
  | runPosted =>
    obtain ⟨l, hl, rfl⟩ := Option.map_eq_some_iff.mp hstep
    rw [Link.runPosted] at hl
    split at hl <;> cases hl
    rename_i f rest hrest
    have hf : F f := hposted f (by rw [hrest]; exact List.mem_cons_self)
    have htake : Spares F p w.link { w.link with posted := rest } :=
      { next := Nat.le_refl _
        table := fun _ _ hs => hs
        inbox := fun _ => List.Sublist.refl _
        written := ⟨[], by simp, by simp⟩
        posted := fun g hg => .inl (by rw [hrest]; exact List.mem_cons_of_mem _ hg) }
    exact .of_spares (htake.trans (.enqueueFrame hf))
  | control f =>
    rw [Served.step] at hstep
    split_ifs at hstep with hcontrol
    cases hstep
    refine .of_spares (.enqueueFrame (hF f fun sid blob payload hf => ?_))
    subst hf
    simp [ShineFrame.isControl] at hcontrol
  | openSession sid target isUdp =>
    cases hstep
    exact .of_spares (.openSession hF sid target isUdp)
  | call q op =>
    obtain ⟨⟨r, l'⟩, hrun, rfl⟩ := Option.map_eq_some_iff.mp hstep
    refine .of_spares (.call hF hrun fun f hf => hout f ?_)
    subst hf
    rfl
  | failLink =>
    cases hstep
    exact .of_spares .failLink
  | closeNow =>
    cases hstep
    exact .of_spares (.of_eq rfl rfl (fun _ hs => hs) rfl rfl)

/-- A datagram that arrives changes one session at most. -/
theorem dispatch_udpData (l : Link) (now : UInt64) (sid : UInt64) (blob payload : Bytes) :
    l.dispatchFrame now (.udpData sid blob payload) = l ∨
      ∃ q addr, l.sessions sid = some q ∧ Address.parseBinary blob = .ok addr ∧
        l.dispatchFrame now (.udpData sid blob payload)
          = l.modify q (·.onUdpData payload addr) := by
  simp only [Link.dispatchFrame, Link.findSession]
  cases hq : l.sessions sid with
  | none => exact .inl rfl
  | some q =>
    cases haddr : Address.parseBinary blob with
    | error e => exact .inl rfl
    | ok addr => exact .inr ⟨q, addr, rfl, rfl, rfl⟩

/-- **What the peer gets to see** of any event of the link. -/
theorem out_step
    (hF : ∀ f : ShineFrame, (∀ sid blob payload, f ≠ .udpData sid blob payload) → F f)
    (hposted : ∀ f ∈ w.link.posted, F f) {e : Event} (hstep : w.step e = some w')
    (hout : ∀ f, e.enqueues = some f → F f) :
    w.sent <+: w'.sent ∧ (∃ extra, w'.out = w.out ++ extra ∧ ∀ f ∈ extra, F f) ∧
      ∀ f ∈ w'.link.posted, F f := by
  by_cases hin : ∀ sid blob payload, e.dispatches ≠ some (.udpData sid blob payload)
  · have hquiet : Quiet F 0 w w' := quiet_step hF hposted hstep hout hin
    exact ⟨hquiet.sent, hquiet.out, fun f hf => (hquiet.posted f hf).elim (hposted f) id⟩
  · -- a datagram for one of our own sessions enqueues nothing
    push Not at hin
    obtain ⟨sid, blob, payload, hin⟩ := hin
    cases e with
    | dispatch now f =>
      obtain rfl : f = .udpData sid blob payload := Option.some.inj hin
      cases hstep
      rcases dispatch_udpData w.link now sid blob payload with hsame | ⟨q, addr, -, -, hsame⟩ <;>
      · rw [hsame]
        exact ⟨List.prefix_rfl, ⟨[], by simp [Served.out], by simp⟩, hposted⟩
    | _ => cases hin

end Served

end Shine
