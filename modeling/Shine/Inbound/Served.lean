import Shine.Transport.Pair
import Shine.Transport.Pipe

/-!
# The server link around one session

What happens on the link of a shine inbound while the handler of one of its sessions
runs: frames arrive, the writer coroutine sends, other coroutines call methods of any
session, sessions are opened, the link fails or is closed. `Served.step` has all of it,
in any order.

`Held p sid w` is what a session object `p` with the sid `sid` can rely on, from its
creation on and whatever happens, sids being used twice included: it is stored under
no other sid, once Closed it is not stored any more, and once our side of it is closed
the peer has been told, as long as the link is open. The only step that can break this
is a RESET that arrives before the peer has been told.
-/

namespace Shine

/-- A server link with the frames that its writer coroutine has put on the connection,
and the datagram in the `InjectedStream` of the session's handler. -/
structure Served where
  link : Link
  sent : List ShineFrame
  injected : Option Datagram

namespace Served

def setLink (w : Served) (l : Link) : Served := { w with link := l }

@[simp] theorem setLink_link (w : Served) (l : Link) : (w.setLink l).link = l := rfl
@[simp] theorem setLink_sent (w : Served) (l : Link) : (w.setLink l).sent = w.sent := rfl

/-- Every frame enqueued so far: on the connection, in `write_chan_`, or held by an
`enqueueFrame` that `Session::close` has spawned. -/
def frames (w : Served) : List ShineFrame := w.sent ++ w.link.writeChan ++ w.link.posted

/-- All that has been put on the connection or in `write_chan_`, in order. -/
def out (w : Served) : List ShineFrame := w.sent ++ w.link.writeChan

/-- A CLOSE or RESET for the sid has been enqueued. -/
def Told (w : Served) (sid : UInt64) : Prop :=
  (∃ reason, ShineFrame.close sid reason ∈ w.frames) ∨ ShineFrame.reset sid ∈ w.frames

/-- What can happen on the link. -/
inductive Event where
  /-- The reader coroutine dispatches a frame. -/
  | dispatch (now : UInt64) (f : ShineFrame)
  /-- The writer coroutine puts a frame on the connection. -/
  | flush
  /-- A coroutine spawned by `Session::close` runs. -/
  | runPosted
  /-- A frame of the handshake or the heartbeat is enqueued. -/
  | control (f : ShineFrame)
  | openSession (sid : UInt64) (target : Address) (isUdp : Bool)
  /-- A piece of a method of the session object `q`. -/
  | call (q : Nat) (op : SessionOp)
  | failLink
  | closeNow

/-- The effect of an event; `none` where it cannot happen. -/
def step (w : Served) : Event → Option Served
  | .dispatch now f => some (w.setLink (w.link.dispatchFrame now f))
  | .flush =>
    match w.link.writeChan with
    | [] => none
    | f :: rest =>
      if w.link.closed then none
      else some { w with link := { w.link with writeChan := rest }, sent := w.sent ++ [f] }
  | .runPosted => w.link.runPosted.map w.setLink
  | .control f => if f.isControl then some (w.setLink (w.link.enqueueFrame f)) else none
  | .openSession sid target isUdp => some (w.setLink (w.link.openSession sid target isUdp))
  | .call q op => (op.run w.link q).map fun r => w.setLink r.2
  | .failLink => some (w.setLink w.link.failLink)
  | .closeNow => some (w.setLink w.link.closeNow)

/-- The handler for new sessions is set once and for all, and only `failLink` and `closeNow` close
a link. -/
theorem step_kept {w w' : Served} {e : Event} (h : w.step e = some w') :
    w'.link.onNewSession = w.link.onNewSession ∧
      (e ≠ .failLink → e ≠ .closeNow → w'.link.closed = w.link.closed) := by
  cases e with
  | dispatch now f =>
    cases h
    obtain ⟨-, hhandler, hclosed⟩ := w.link.dispatchFrame_kept f now
    exact ⟨hhandler, fun _ _ => hclosed⟩
  | flush =>
    rw [step] at h
    split at h
    · cases h
    · split_ifs at h
      cases h
      exact ⟨rfl, fun _ _ => rfl⟩
  | runPosted =>
    obtain ⟨l, hl, rfl⟩ := Option.map_eq_some_iff.mp h
    rw [Link.runPosted] at hl
    split at hl <;> cases hl
    exact ⟨Link.enqueueFrame_onNewSession .., fun _ _ => Link.enqueueFrame_closed ..⟩
  | control f =>
    rw [step] at h
    split_ifs at h
    cases h
    exact ⟨Link.enqueueFrame_onNewSession .., fun _ _ => Link.enqueueFrame_closed ..⟩
  | openSession sid target isUdp =>
    cases h
    rw [setLink_link, Link.openSession]
    split_ifs
    · exact ⟨rfl, fun _ _ => rfl⟩
    · simp
  | call q op =>
    obtain ⟨⟨r, l⟩, hrun, rfl⟩ := Option.map_eq_some_iff.mp h
    obtain rfl | ⟨_, _, -, -, -, rfl⟩ | ⟨_, -, rfl⟩ | ⟨-, rfl⟩ | ⟨-, rfl⟩ :=
      SessionOp.run_cases hrun <;> simp
  | failLink =>
    cases h
    exact ⟨Link.failLink_onNewSession _, fun hfail => absurd rfl hfail⟩
  | closeNow =>
    cases h
    exact ⟨rfl, fun _ hclose => absurd rfl hclose⟩

/-- The server link as a transition system. -/
def system : Lts Served Event where
  step := step

/-- A link that has just been constructed. -/
def start (opts : LinkOptions) (now : UInt64) : Served := ⟨.new opts true now, [], none⟩

/-- A RESET of the session arrives only after the peer has been told. -/
def NotResetFirst (sid : UInt64) (w : Served) : Event → Prop
  | .dispatch _ (.reset sid') => sid' = sid → w.Told sid
  | _ => True

/-! ## What a session can rely on -/

/-- The sid and the state of a session object. -/
def lookAt (l : Link) (p : Nat) : Option (UInt64 × SessionState) :=
  (l.heap p).map fun s => (s.sid, s.state)

/-- The session object is Closed. -/
def Shut (p : Nat) (w : Served) : Prop := (lookAt w.link p).map (·.2) = some .closed

structure Held (p : Nat) (sid : UInt64) (w : Served) : Prop where
  object : ∃ st, lookAt w.link p = some (sid, st)
  used : p < w.link.next
  own : ∀ sid', w.link.sessions sid' = some p → sid' = sid
  erased : Shut p w → ∀ sid', w.link.sessions sid' ≠ some p
  told : ∀ st, lookAt w.link p = some (sid, st) → st = .closed ∨ st = .halfClosedLocal →
    w.link.closed = true ∨ w.Told sid

/-- A step that keeps what the session relies on, and does not reopen it. -/
structure Follows (p : Nat) (sid : UInt64) (w w' : Served) : Prop where
  held : Held p sid w'
  shut : Shut p w → Shut p w'

variable {p q : Nat} {sid : UInt64} {w w' : Served} {l' : Link}

theorem told_mono (h : ∀ f ∈ w.frames, f ∈ w'.frames) (ht : w.Told sid) : w'.Told sid := by
  obtain ⟨reason, hr⟩ | hr := ht
  · exact .inl ⟨reason, h _ hr⟩
  · exact .inr (h _ hr)

/-- A step that does not change the session's own state and does not store it. -/
theorem Held.follows_told (h : Held p sid w) (hlook : lookAt w'.link p = lookAt w.link p)
    (hnext : w.link.next ≤ w'.link.next)
    (hsess : ∀ sid', w'.link.sessions sid' = some p → w.link.sessions sid' = some p)
    (hclosed : w.link.closed = true → w'.link.closed = true)
    (htold : w.Told sid → w'.link.closed = true ∨ w'.Told sid) : Follows p sid w w' where
  held :=
    { object := hlook ▸ h.object
      used := Nat.lt_of_lt_of_le h.used hnext
      own := fun sid' hs => h.own sid' (hsess sid' hs)
      erased := by
        intro hshut sid' hs
        rw [Shut, hlook] at hshut
        exact h.erased hshut sid' (hsess sid' hs)
      told := by
        intro st hst hside
        rw [hlook] at hst
        exact (h.told st hst hside).elim (fun hc => .inl (hclosed hc)) htold }
  shut := by
    intro hshut
    rwa [Shut, hlook]

/-- The usual case: no frame is lost. -/
theorem Held.follows (h : Held p sid w) (hlook : lookAt w'.link p = lookAt w.link p)
    (hnext : w.link.next ≤ w'.link.next)
    (hsess : ∀ sid', w'.link.sessions sid' = some p → w.link.sessions sid' = some p)
    (hclosed : w.link.closed = true → w'.link.closed = true)
    (hframes : ∀ f ∈ w.frames, f ∈ w'.frames) : Follows p sid w w' :=
  h.follows_told hlook hnext hsess hclosed fun ht => .inr (told_mono hframes ht)

theorem Held.refl (h : Held p sid w) : Follows p sid w w :=
  h.follows rfl (Nat.le_refl _) (fun _ hs => hs) id fun _ hf => hf

/-- A step that closes the session and takes it out of the table. -/
theorem Held.retired (hlook : lookAt w'.link p = some (sid, .closed)) (hused : p < w'.link.next)
    (hsess : ∀ sid', w'.link.sessions sid' ≠ some p)
    (htold : w'.link.closed = true ∨ w'.Told sid) : Follows p sid w w' where
  held :=
    { object := ⟨_, hlook⟩
      used := hused
      own := fun sid' hs => absurd hs (hsess sid')
      erased := fun _ => hsess
      told := fun _ _ _ => htold }
  shut := fun _ => by rw [Shut, hlook]; rfl

/-- A step that changes the state of a session that stays live. -/
theorem Held.moved {st : SessionState} (h : Held p sid w) (hlive : ¬ Shut p w)
    (hlook : lookAt w'.link p = some (sid, st)) (hst : st ≠ .closed)
    (hnext : w'.link.next = w.link.next) (hsess : w'.link.sessions = w.link.sessions)
    (htold : st = .halfClosedLocal → w'.link.closed = true ∨ w'.Told sid) :
    Follows p sid w w' where
  held :=
    { object := ⟨st, hlook⟩
      used := hnext ▸ h.used
      own := hsess ▸ h.own
      erased := by
        intro hshut
        rw [Shut, hlook] at hshut
        exact absurd (Option.some.inj hshut) hst
      told := by
        intro st' hst' hside
        rw [hlook] at hst'
        cases hst'
        exact htold (hside.resolve_left hst) }
  shut := fun hshut => absurd hshut hlive

theorem Follows.trans {w'' : Served} (h : Follows p sid w w') (h' : Follows p sid w' w'') :
    Follows p sid w w'' :=
  ⟨h'.held, fun hs => h'.shut (h.shut hs)⟩

/-! ## The building blocks of the link -/

section Blocks

variable {l : Link} {f : Session → Session}

theorem lookAt_modify_ne (hne : p ≠ q) : lookAt (l.modify q f) p = lookAt l p := by
  rw [lookAt, Link.modify_heap, if_neg hne, lookAt]

theorem lookAt_modify_self {s : Session} (hs : l.heap p = some s) :
    lookAt (l.modify p f) p = some ((f s).sid, (f s).state) := by
  rw [lookAt, Link.modify_heap_self, hs]
  rfl

/-- A method that changes neither the sid nor the state. -/
theorem lookAt_modify (hkeep : ∀ s, l.heap q = some s → (f s).sid = s.sid ∧ (f s).state = s.state) :
    lookAt (l.modify q f) p = lookAt l p := by
  by_cases hne : p = q
  · subst hne
    cases hs : l.heap p with
    | none => simp [lookAt, hs]
    | some s =>
      rw [lookAt_modify_self hs, (hkeep s hs).1, (hkeep s hs).2, lookAt, hs]
      rfl
  · exact lookAt_modify_ne hne

theorem mem_frames_enqueue (fr : ShineFrame) (g : ShineFrame) (hg : g ∈ w.frames) :
    g ∈ (w.setLink (w.link.enqueueFrame fr)).frames := by
  simp only [frames, setLink_sent, setLink_link, Link.enqueueFrame_writeChan,
    Link.enqueueFrame_posted, List.mem_append] at hg ⊢
  split_ifs
  · exact hg
  · rw [List.mem_append]
    tauto

/-- On an open link the frame is among the enqueued ones. -/
theorem enqueued_mem (fr : ShineFrame) (hopen : w.link.closed = false) :
    fr ∈ (w.setLink (w.link.enqueueFrame fr)).frames := by
  simp [frames, Link.enqueueFrame_writeChan, hopen]

theorem Held.enqueue (h : Held p sid w) (fr : ShineFrame) :
    Follows p sid w (w.setLink (w.link.enqueueFrame fr)) :=
  h.follows (by simp [lookAt]) (by simp) (by simp) (by simp) (mem_frames_enqueue fr)

theorem Held.modify (h : Held p sid w) (q : Nat)
    (hkeep : ∀ s, w.link.heap q = some s → (f s).sid = s.sid ∧ (f s).state = s.state) :
    Follows p sid w (w.setLink (w.link.modify q f)) :=
  h.follows (lookAt_modify hkeep) (by simp) (by simp) (by simp) (by simp [frames])

theorem Held.at_heap (h : Held p sid w) {s : Session} (hs : w.link.heap p = some s) :
    s.sid = sid ∧ lookAt w.link p = some (sid, s.state) := by
  obtain ⟨st, hst⟩ := h.object
  have hlook : lookAt w.link p = some (s.sid, s.state) := by rw [lookAt, hs]; rfl
  rw [hlook] at hst
  cases hst
  exact ⟨rfl, hlook⟩

/-- The object, as long as it is stored. -/
theorem Held.stored (h : Held p sid w) {sid' : UInt64} (hs : w.link.sessions sid' = some p) :
    sid' = sid ∧ ∃ s, w.link.heap p = some s ∧ s.sid = sid ∧ s.state ≠ .closed := by
  obtain ⟨st, hst⟩ := h.object
  obtain ⟨s, hheap, heq⟩ := Option.map_eq_some_iff.mp hst
  cases heq
  refine ⟨h.own sid' hs, s, hheap, rfl, fun hclosed => ?_⟩
  exact h.erased (by rw [Shut, hst, hclosed]; rfl) sid' hs

theorem sessions_eraseSession {sid' sid'' : UInt64}
    (h : (l.eraseSession sid').sessions sid'' = some p) : l.sessions sid'' = some p := by
  rw [Link.eraseSession_sessions] at h
  split_ifs at h
  exact h

/-- Without the entry of its sid the object is not stored. -/
theorem Held.erase_self (h : Held p sid w) (hsess : l.sessions = w.link.sessions)
    (sid' : UInt64) : (l.eraseSession sid).sessions sid' ≠ some p := by
  intro hs
  have hold := sessions_eraseSession hs
  rw [hsess] at hold
  rw [h.own sid' hold, Link.eraseSession_sessions, if_pos rfl] at hs
  cases hs

theorem Held.modify_ne (h : Held p sid w) (hne : p ≠ q) :
    Follows p sid w (w.setLink (w.link.modify q f)) :=
  h.follows (lookAt_modify_ne hne) (by simp) (by simp) (by simp) (by simp [frames])

/-- Another session is closed and its sid removed. -/
theorem Held.other (h : Held p sid w) (hne : p ≠ q) (sid' : UInt64) :
    Follows p sid w (w.setLink ((w.link.modify q f).eraseSession sid')) :=
  h.follows (lookAt_modify_ne hne) (by simp) (fun _ hs => sessions_eraseSession hs) (by simp)
    (by simp [frames])

end Blocks

/-! ## Frames from the peer -/

/-- A new object does not take the place of this one. -/
theorem Held.emplace (h : Held p sid w) (s : Session) :
    Follows p sid w (w.setLink (w.link.emplace s)) := by
  refine h.follows ?_ (by simp) ?_ (by simp) (by simp [frames])
  · rw [setLink_link, lookAt, Link.emplace_heap, if_neg (Nat.ne_of_lt h.used), lookAt]
  · intro sid' hs
    obtain hold | hnew := Link.emplace_sessions_cases hs
    · exact hold
    · exact absurd hnew (Nat.ne_of_lt h.used)

theorem Held.accept (h : Held p sid w) (sid' : UInt64) (target : Address) (win : UInt32)
    (protocol : Protocol) :
    Follows p sid w (w.setLink (w.link.accept sid' target win protocol)) := by
  have hnew := h.emplace (.new sid' target win w.link.opts.initWindow protocol)
  have henq := hnew.trans (hnew.held.enqueue (.ack sid'))
  exact henq.trans (henq.held.follows rfl (Nat.le_refl _) (fun _ hs => hs) id fun _ hf => hf)

theorem Held.onPeerClose (h : Held p sid w) {sid' : UInt64} (hq : w.link.sessions sid' = some q) :
    Follows p sid w (w.setLink
      (if ((w.link.modify q (·.onPeerClose)).heap q).map (·.state) = some .closed
        then (w.link.modify q (·.onPeerClose)).eraseSession sid'
        else w.link.modify q (·.onPeerClose))) := by
  by_cases hne : p = q
  · subst hne
    obtain ⟨rfl, s, hs, hsid, hopen⟩ := h.stored hq
    have hlook : lookAt w.link p = some (sid', s.state) := by rw [lookAt, hs, ← hsid]; rfl
    have hlive : ¬ Shut p w := fun hshut => h.erased hshut sid' hq
    have hafter : lookAt (w.link.modify p (·.onPeerClose)) p = some (sid', s.onPeerClose.state) := by
      rw [lookAt_modify_self hs, Session.onPeerClose_sid, hsid]
    rw [Link.modify_heap_self, hs]
    split_ifs with hclosed
    · -- only a session whose own side was closed before ends here
      have hst : s.onPeerClose.state = .closed := Option.some.inj hclosed
      have hside : s.state = .halfClosedLocal := by
        rw [Session.onPeerClose_state] at hst
        cases hcase : s.state <;> simp_all
      refine Held.retired ?_ h.used (h.erase_self rfl) ?_
      · exact hst ▸ hafter
      · exact h.told _ hlook (.inr hside)
    · refine h.moved hlive hafter (fun hst => hclosed (congrArg some hst)) rfl rfl ?_
      intro hst
      rw [Session.onPeerClose_state] at hst
      cases hcase : s.state <;> simp_all
  · split_ifs
    · exact h.other hne sid'
    · exact h.modify_ne hne

theorem Held.dispatchFrame (h : Held p sid w) (now : UInt64) (f : ShineFrame)
    (hreset : f = .reset sid → w.Told sid) :
    Follows p sid w (w.setLink (w.link.dispatchFrame now f)) := by
  cases f with
  | data sid' payload =>
    simp only [Link.dispatchFrame]
    split
    · exact h.refl
    · exact h.modify _ (by simp)
  | udpData sid' addrBlob payload =>
    simp only [Link.dispatchFrame]
    split
    · exact h.refl
    · split
      · exact h.refl
      · exact h.modify _ (by simp)
  | new sid' addrBlob initWindow =>
    simp only [Link.dispatchFrame]
    split_ifs
    · exact h.refl
    · split
      · exact h.enqueue _
      · exact h.accept ..
  | newUdp sid' =>
    simp only [Link.dispatchFrame]
    split_ifs
    · exact h.refl
    · exact h.accept ..
  | close sid' reason =>
    simp only [Link.dispatchFrame]
    split
    · exact h.refl
    · rename_i q hq
      exact h.onPeerClose hq
  | reset sid' =>
    simp only [Link.dispatchFrame]
    split
    · exact h.refl
    · rename_i q hq
      by_cases hne : p = q
      · subst hne
        obtain ⟨rfl, s, hs, hsid, -⟩ := h.stored hq
        refine Held.retired ?_ h.used (h.erase_self rfl) (.inr (hreset rfl))
        exact (lookAt_modify_self hs).trans (by rw [Session.onReset_sid, hsid]; rfl)
      · exact h.other hne sid'
  | window sid' delta =>
    simp only [Link.dispatchFrame]
    split
    · exact h.refl
    · exact h.modify _ (by simp)
  | ping nonce => exact h.enqueue _
  | pong nonce =>
    simp only [Link.dispatchFrame]
    split_ifs
    · exact h.follows rfl (Nat.le_refl _) (fun _ hs => hs) id fun _ hf => hf
    · exact h.refl
  | ack _ | hello _ _ | auth _ | ok | err _ _ => exact h.refl

/-! ## Calls on sessions -/

theorem mem_frames_spawn (fr : ShineFrame) (g : ShineFrame) (hg : g ∈ w.frames) :
    g ∈ (w.setLink (w.link.spawnEnqueue fr)).frames := by
  simp only [frames, setLink_sent, setLink_link, Link.spawnEnqueue_writeChan,
    Link.spawnEnqueue_posted, List.mem_append] at hg ⊢
  split_ifs
  · exact hg
  · rw [List.mem_append]
    tauto

theorem spawned_mem (fr : ShineFrame) (hopen : w.link.closed = false) :
    fr ∈ (w.setLink (w.link.spawnEnqueue fr)).frames := by
  simp [frames, Link.spawnEnqueue_posted, hopen]

theorem Held.spawn (h : Held p sid w) (fr : ShineFrame) :
    Follows p sid w (w.setLink (w.link.spawnEnqueue fr)) :=
  h.follows (by simp [lookAt]) (by simp) (by simp) (by simp) (mem_frames_spawn fr)

theorem Held.erase (h : Held p sid w) (sid' : UInt64) :
    Follows p sid w (w.setLink (w.link.eraseSession sid')) :=
  h.follows rfl (Nat.le_refl _) (fun _ hs => sessions_eraseSession hs) id fun _ hf => hf

/-- Our side of the session is closed, and the CLOSE is enqueued with it. -/
theorem Held.shutdownWrite (h : Held p sid w) (q : Nat) :
    Follows p sid w (w.setLink (w.link.shutdownWrite q)) := by
  rw [Link.shutdownWrite]
  cases hq : w.link.heap q with
  | none => exact h.refl
  | some s =>
    simp only
    split_ifs with hclosed
    · exact h.refl
    · have hopen : w.link.closed = false := by simpa using hclosed
      cases hst : s.state with
      | init | halfClosedLocal | closed => exact h.refl
      | opened =>
        by_cases hne : p = q
        · subst hne
          obtain ⟨hsid, hlook⟩ := h.at_heap hq
          have hlive : SessionState.halfClosedLocal ≠ .closed := nofun
          refine h.moved ?_ ?_ hlive (by simp) (by simp) fun _ => ?_
          · rw [Shut, hlook, hst]
            nofun
          · rw [setLink_link, lookAt, Link.enqueueFrame_heap]
            exact (lookAt_modify_self hq).trans (by rw [← hsid]; rfl)
          · exact .inr (.inl ⟨[], hsid ▸ enqueued_mem (w := w.setLink _) _ hopen⟩)
        · have hmod := h.modify_ne (f := (·.setState .halfClosedLocal)) hne
          exact hmod.trans (hmod.held.enqueue _)
      | halfClosedRemote =>
        by_cases hne : p = q
        · subst hne
          obtain ⟨hsid, hlook⟩ := h.at_heap hq
          refine Held.retired ?_ ?_ ?_ ?_
          · rw [setLink_link, lookAt, Link.enqueueFrame_heap]
            exact (lookAt_modify_self hq).trans (by rw [← hsid]; rfl)
          · simpa using h.used
          · simpa [hsid] using h.erase_self (l := w.link.modify p _) rfl
          · exact .inr (.inl ⟨[], hsid ▸ enqueued_mem (w := w.setLink _) _ hopen⟩)
        · have hmod := h.other (f := (·.setState .closed)) hne s.sid
          exact hmod.trans (hmod.held.enqueue _)

theorem Held.close (h : Held p sid w) (q : Nat) :
    Follows p sid w (w.setLink (w.link.close q)) := by
  rw [Link.close]
  cases hq : w.link.heap q with
  | none => exact h.refl
  | some s =>
    simp only
    split_ifs with hlive
    · by_cases hne : p = q
      · subst hne
        obtain ⟨hsid, hlook⟩ := h.at_heap hq
        refine Held.retired ?_ ?_ ?_ ?_
        · simp only [setLink_link, lookAt, Link.modify_heap_self, Link.eraseSession_heap,
            Link.spawnEnqueue_heap, hq, Option.map_some, Session.closeChannels_sid,
            Session.closeChannels_state, Session.setState_sid, Session.setState_state, hsid]
        · simpa using h.used
        · simpa [hsid] using h.erase_self (l := (w.link.modify p _).spawnEnqueue _) (by simp)
        · cases hclosed : w.link.closed with
          | true => exact .inl (by simpa using hclosed)
          | false =>
            have hmem := spawned_mem (w := w.setLink (w.link.modify p (·.setState .closed)))
              (.close s.sid []) hclosed
            exact .inr (.inl ⟨[], hsid ▸ hmem⟩)
      · have hmod := h.modify_ne (f := (·.setState .closed)) hne
        have hspawn := hmod.trans (hmod.held.spawn (.close s.sid []))
        have herase := hspawn.trans (hspawn.held.erase s.sid)
        exact herase.trans (herase.held.modify_ne hne)
    · exact h.modify q (by simp)

/-- The session object `p` itself is closed afterwards. -/
theorem Held.shut_close (h : Held p sid w) : Shut p (w.setLink (w.link.close p)) := by
  obtain ⟨st, hst⟩ := h.object
  obtain ⟨s, hs, -⟩ := Option.map_eq_some_iff.mp hst
  rw [Shut, setLink_link, Link.close, hs]
  simp only
  split_ifs with hlive
  · simp [lookAt, hs]
  · have hclosed : s.state = .closed := by simpa using hlive
    simp [lookAt, hs, hclosed]

theorem Held.call {op : SessionOp} {r : op.Ans} (h : Held p sid w)
    (hrun : op.run w.link q = some (r, l')) : Follows p sid w (w.setLink l') := by
  obtain rfl | ⟨s, f, hs, hsid, hstate, rfl⟩ | ⟨f, -, rfl⟩ | ⟨-, rfl⟩ | ⟨-, rfl⟩ :=
    SessionOp.run_cases hrun
  · exact h.refl
  · refine h.modify q fun t ht => ?_
    rw [hs] at ht
    cases ht
    exact ⟨hsid, hstate⟩
  · exact h.enqueue f
  · exact h.shutdownWrite q
  · exact h.close q

/-! ## Every event -/

theorem Held.failLink (h : Held p sid w) : Follows p sid w (w.setLink w.link.failLink) := by
  rw [Link.failLink]
  split_ifs with hclosed
  · exact h.refl
  · obtain ⟨st, hst⟩ := h.object
    obtain ⟨s, hs, -⟩ := Option.map_eq_some_iff.mp hst
    obtain ⟨hsid, hlook⟩ := h.at_heap hs
    by_cases hstored : w.link.sessions sid = some p
    · refine Held.retired ?_ h.used nofun (.inl rfl)
      simp [lookAt, Link.resetAll_heap, hs, hstored, hsid]
    · refine h.follows_told ?_ (Nat.le_refl _) nofun (fun _ => rfl) fun _ => .inl rfl
      rw [hlook]
      simp [lookAt, Link.resetAll_heap, hs, hstored, hsid]

/-- Whatever happens, except that a RESET comes before the peer has been told. -/
theorem Held.step (h : Held p sid w) {e : Event} (hok : NotResetFirst sid w e)
    (hstep : w.step e = some w') : Follows p sid w w' := by
  cases e with
  | dispatch now f =>
    cases hstep
    refine h.dispatchFrame now f ?_
    rintro rfl
    exact hok rfl
  | flush =>
    rw [Served.step] at hstep
    split at hstep
    · cases hstep
    · rename_i f rest hchan
      split_ifs at hstep
      cases hstep
      refine h.follows rfl (Nat.le_refl _) (fun _ hs => hs) id fun g hg => ?_
      simpa [frames, hchan, or_assoc] using hg
  | runPosted =>
    obtain ⟨l, hl, rfl⟩ := Option.map_eq_some_iff.mp hstep
    rw [Link.runPosted] at hl
    split at hl
    · cases hl
    · rename_i f rest hposted
      cases hl
      refine h.follows_told (by simp [lookAt]) (by simp) (by simp) (by simp) fun ht => ?_
      cases hclosed : w.link.closed with
      | true => exact .inl (by simp)
      | false =>
        refine .inr (told_mono (fun g hg => ?_) ht)
        simp only [frames, hposted, List.mem_append, List.mem_cons] at hg
        simp only [frames, setLink_sent, setLink_link, Link.enqueueFrame_writeChan,
          Link.enqueueFrame_posted, Bool.false_eq_true, if_false, List.mem_append,
          List.mem_singleton]
        tauto
  | control f =>
    rw [Served.step] at hstep
    split_ifs at hstep
    cases hstep
    exact h.enqueue f
  | openSession sid' target isUdp =>
    cases hstep
    rw [Link.openSession]
    split_ifs
    · exact h.refl
    · have hnew := h.emplace (w.link.openedSession sid' target isUdp)
      exact hnew.trans (hnew.held.enqueue _)
  | call q op =>
    obtain ⟨r, hr, rfl⟩ := Option.map_eq_some_iff.mp hstep
    exact h.call hr
  | failLink =>
    cases hstep
    exact h.failLink
  | closeNow =>
    cases hstep
    exact h.follows rfl (Nat.le_refl _) (fun _ hs => hs) (fun _ => rfl) fun _ hf => hf

/-! ## The creation of a session -/

/-- The pointers in the table are in use. -/
def InUse (l : Link) : Prop := ∀ sid q, l.sessions sid = some q → q < l.next

section InUse

variable {l : Link}

theorem InUse.sub (h : InUse l) (hnext : l.next ≤ l'.next)
    (hsess : ∀ sid q, l'.sessions sid = some q → l.sessions sid = some q) : InUse l' :=
  fun sid q hq => Nat.lt_of_lt_of_le (h sid q (hsess sid q hq)) hnext

theorem InUse.emplace (h : InUse l) (s : Session) : InUse (l.emplace s) := by
  intro sid q hq
  rw [Link.emplace_next]
  obtain hold | rfl := Link.emplace_sessions_cases hq
  · exact Nat.lt_succ_of_lt (h sid q hold)
  · exact Nat.lt_succ_self _

theorem InUse.enqueueFrame (h : InUse l) (f : ShineFrame) : InUse (l.enqueueFrame f) :=
  h.sub (by simp) (by simp)

theorem InUse.erased {f : Session → Session} (h : InUse l) (q : Nat) (sid : UInt64) :
    InUse ((l.modify q f).eraseSession sid) :=
  h.sub (Nat.le_refl _) fun _ _ hs => sessions_eraseSession hs

theorem InUse.modify {f : Session → Session} (h : InUse l) (q : Nat) : InUse (l.modify q f) :=
  h.sub (Nat.le_refl _) fun _ _ hs => hs

theorem InUse.accept (h : InUse l) (sid : UInt64) (target : Address) (win : UInt32)
    (protocol : Protocol) : InUse (l.accept sid target win protocol) :=
  ((h.emplace _).enqueueFrame (.ack sid)).sub (Nat.le_refl _) fun _ _ hs => hs

theorem InUse.dispatchFrame (h : InUse l) (now : UInt64) (f : ShineFrame) :
    InUse (l.dispatchFrame now f) := by
  cases f with
  | data _ _ | window _ _ =>
    simp only [Link.dispatchFrame]
    split
    · exact h
    · exact h.modify _
  | udpData _ _ _ =>
    simp only [Link.dispatchFrame]
    split
    · exact h
    · split
      · exact h
      · exact h.modify _
  | new _ _ _ =>
    simp only [Link.dispatchFrame]
    split_ifs
    · exact h
    · split
      · exact h.enqueueFrame _
      · exact h.accept _ _ _ _
  | newUdp _ =>
    simp only [Link.dispatchFrame]
    split_ifs
    · exact h
    · exact h.accept _ _ _ _
  | close sid _ =>
    simp only [Link.dispatchFrame]
    split
    · exact h
    · split_ifs
      · exact h.erased _ sid
      · exact h.modify _
  | reset sid =>
    simp only [Link.dispatchFrame]
    split
    · exact h
    · exact h.erased _ sid
  | ping _ => exact h.enqueueFrame _
  | pong _ =>
    simp only [Link.dispatchFrame]
    split_ifs
    · exact h.sub (Nat.le_refl _) fun _ _ hs => hs
    · exact h
  | ack _ | hello _ _ | auth _ | ok | err _ _ => exact h

theorem InUse.shutdownWrite (h : InUse l) (q : Nat) : InUse (l.shutdownWrite q) := by
  rw [Link.shutdownWrite]
  cases l.heap q with
  | none => exact h
  | some s =>
    simp only
    split_ifs
    · exact h
    · cases s.state with
      | init | halfClosedLocal | closed => exact h
      | opened => exact (h.modify q).enqueueFrame _
      | halfClosedRemote => exact (h.erased q s.sid).enqueueFrame _

theorem InUse.close (h : InUse l) (q : Nat) : InUse (l.close q) := by
  rw [Link.close]
  cases l.heap q with
  | none => exact h
  | some s =>
    simp only
    split_ifs
    · exact h.sub (by simp) fun _ _ hs => by simpa using sessions_eraseSession hs
    · exact h.modify q

theorem InUse.call {op : SessionOp} {q : Nat} {r : op.Ans} (h : InUse l)
    (hrun : op.run l q = some (r, l')) : InUse l' := by
  obtain rfl | ⟨_, f, -, -, -, rfl⟩ | ⟨f, -, rfl⟩ | ⟨-, rfl⟩ | ⟨-, rfl⟩ :=
    SessionOp.run_cases hrun
  · exact h
  · exact h.modify q
  · exact h.enqueueFrame f
  · exact h.shutdownWrite q
  · exact h.close q

theorem InUse.step (h : InUse w.link) {e : Event} (hstep : w.step e = some w') :
    InUse w'.link := by
  cases e with
  | dispatch now f =>
    cases hstep
    exact h.dispatchFrame now f
  | flush =>
    rw [Served.step] at hstep
    split at hstep
    · cases hstep
    · split_ifs at hstep
      cases hstep
      exact h.sub (Nat.le_refl _) fun _ _ hs => hs
  | runPosted =>
    obtain ⟨l, hl, rfl⟩ := Option.map_eq_some_iff.mp hstep
    rw [Link.runPosted] at hl
    split at hl <;> cases hl
    exact h.sub (by simp) (by simp)
  | control f =>
    rw [Served.step] at hstep
    split_ifs at hstep
    cases hstep
    exact h.enqueueFrame f
  | openSession sid target isUdp =>
    cases hstep
    rw [setLink_link, Link.openSession]
    split_ifs
    · exact h
    · exact (h.emplace _).enqueueFrame _
  | call q op =>
    obtain ⟨r, hr, rfl⟩ := Option.map_eq_some_iff.mp hstep
    exact h.call hr
  | failLink =>
    cases hstep
    rw [setLink_link, Link.failLink]
    split_ifs
    · exact h
    · exact nofun
  | closeNow =>
    cases hstep
    exact h

/-- In every run the table holds no pointer to an object yet to come. -/
theorem inUse_reach {opts : LinkOptions} {now : UInt64}
    (h : system.Reach Lts.Free (start opts now) w) : InUse w.link := by
  refine h.invariant (P := fun w => InUse w.link) ?_ fun _ _ _ hw _ hstep => hw.step hstep
  intro sid q hs
  simp [start, Link.new] at hs

/-- The new object is stored under its own sid, or not at all. -/
theorem InUse.emplace_own (h : InUse l) {s : Session} {sid' : UInt64}
    (hs : (l.emplace s).sessions sid' = some l.next) : sid' = s.sid := by
  have hold : l.sessions sid' ≠ some l.next := fun h' => Nat.lt_irrefl _ (h sid' _ h')
  by_contra hne
  apply hold
  rw [Link.emplace] at hs
  cases hfree : l.sessions s.sid with
  | some _ => simpa [hfree] using hs
  | none => simpa [hfree, Function.update_apply, hne] using hs

end InUse

/-- What `dispatchFrame` has just created can rely on its invariant. -/
theorem held_accept (h : InUse w.link) (sid : UInt64) (target : Address) (win : UInt32)
    (protocol : Protocol) :
    Held w.link.next sid (w.setLink (w.link.accept sid target win protocol)) := by
  have hlook : lookAt (w.link.accept sid target win protocol) w.link.next
      = some (sid, .opened) := by
    simp only [lookAt, Link.accept, Link.enqueueFrame_heap, Link.emplace_heap, if_pos]
    rfl
  refine ⟨⟨_, hlook⟩, ?_, ?_, ?_, ?_⟩
  · simp [Link.accept]
  · intro sid' hs
    simp only [setLink_link, Link.accept, Link.enqueueFrame_sessions] at hs
    exact h.emplace_own hs
  · intro hshut
    rw [Shut, setLink_link, hlook] at hshut
    cases hshut
  · intro st hst hside
    rw [setLink_link, hlook] at hst
    cases hst
    simp at hside

end Served

end Shine
