import Shine.Lib.Lts
import Shine.Transport.Link

/-!
# The session table

`sessions_` maps a sid to a session object. Insertion goes through `emplace`, whose
result the source ignores, and removal is by sid alone. As long as every insertion
uses a sid that the table does not hold, the table and the live sessions
correspond: this is `Link.Sound`, and every operation of the link keeps it.

- `Sound.modify`, `Sound.retire`, `Sound.emplace`: the three ways in which an
  operation can change the table or the life of a session.
- `tableSystem`: frames from the peer interleaved with local calls.
- `table_identity`: in every run whose insertions use sids not in the table, each
  live session is the one stored under its sid and closing a session removes no
  other; and an insertion that violates the condition breaks this at once.
-/

namespace Shine

namespace Link

/-- The live sessions are exactly the stored ones, each under its own sid, and no
object lies at an unused pointer. -/
structure Sound (l : Link) : Prop where
  live_stored : ∀ p s, l.heap p = some s → s.state ≠ .closed → l.sessions s.sid = some p
  stored_live : ∀ sid p, l.sessions sid = some p →
    ∃ s, l.heap p = some s ∧ s.sid = sid ∧ s.state ≠ .closed
  unused : ∀ p, l.next ≤ p → l.heap p = none

theorem sound_new (opts : LinkOptions) (h : Bool) (now : UInt64) : (new opts h now).Sound where
  live_stored := fun _ _ hp => nomatch hp
  stored_live := fun _ _ hp => nomatch hp
  unused := fun _ _ => rfl

variable {l : Link}

/-- Soundness is about the heap and the table only. -/
theorem Sound.congr {l' : Link} (hl : l.Sound) (hheap : l'.heap = l.heap)
    (hnext : l'.next = l.next) (htab : l'.sessions = l.sessions) : l'.Sound where
  live_stored := by rw [hheap, htab]; exact hl.live_stored
  stored_live := by rw [hheap, htab]; exact hl.stored_live
  unused := by rw [hheap, hnext]; exact hl.unused

theorem Sound.enqueueFrame (hl : l.Sound) (f : ShineFrame) : (l.enqueueFrame f).Sound :=
  hl.congr (by simp) (by simp) (by simp)

/-- A method that neither renames a session nor changes whether it is closed. -/
theorem Sound.modify (hl : l.Sound) (p : Nat) (f : Session → Session)
    (hsid : ∀ s, l.heap p = some s → (f s).sid = s.sid)
    (hstate : ∀ s, l.heap p = some s → ((f s).state = .closed ↔ s.state = .closed)) :
    (l.modify p f).Sound where
  live_stored := by
    intro q t hq hopen
    rw [modify_heap] at hq
    split_ifs at hq with hqp
    · obtain ⟨s, hs, rfl⟩ := Option.map_eq_some_iff.mp hq
      rw [modify_sessions, hsid s hs, hqp]
      exact hl.live_stored p s hs fun h => hopen ((hstate s hs).mpr h)
    · exact hl.live_stored q t hq hopen
  stored_live := by
    intro sid q hq
    obtain ⟨s, hs, hsid', hopen⟩ := hl.stored_live sid q hq
    rw [modify_heap]
    split_ifs with hqp
    · subst hqp
      rw [hs]
      exact ⟨f s, rfl, (hsid s hs).trans hsid', fun h => hopen ((hstate s hs).mp h)⟩
    · exact ⟨s, hs, hsid', hopen⟩
  unused := by
    intro q hq
    rw [modify_heap]
    split_ifs with hqp
    · rw [← hqp, hl.unused q hq]
      rfl
    · exact hl.unused q hq

/-- A method that closes a live session, together with the removal of its sid. -/
theorem Sound.retire (hl : l.Sound) {p : Nat} {s : Session} (f : Session → Session)
    (hp : l.heap p = some s) (hopen : s.state ≠ .closed)
    (hclosed : (f s).state = .closed) :
    ((l.modify p f).eraseSession s.sid).Sound where
  live_stored := by
    intro q t hq hqopen
    rw [eraseSession_heap, modify_heap] at hq
    split_ifs at hq with hqp
    · rw [hp] at hq
      cases hq
      exact absurd hclosed hqopen
    · have hstored := hl.live_stored q t hq hqopen
      rw [eraseSession_sessions, if_neg]
      · exact hstored
      · -- the erased entry is the one of `p`
        intro heq
        rw [heq, hl.live_stored p s hp hopen] at hstored
        cases hstored
        exact hqp rfl
  stored_live := by
    intro sid q hq
    rw [eraseSession_sessions] at hq
    split_ifs at hq with hsid
    obtain ⟨t, ht, htsid, htopen⟩ := hl.stored_live sid q hq
    rw [eraseSession_heap, modify_heap, if_neg]
    · exact ⟨t, ht, htsid, htopen⟩
    · rintro rfl
      rw [hp] at ht
      cases ht
      exact hsid htsid.symm
  unused := by
    intro q hq
    rw [eraseSession_heap, modify_heap]
    split_ifs with hqp
    · rw [← hqp, hl.unused q hq]
      rfl
    · exact hl.unused q hq

/-- A new object under a sid that the table does not hold. -/
theorem Sound.emplace (hl : l.Sound) {s : Session} (hfree : l.sessions s.sid = none)
    (hopen : s.state ≠ .closed) : (l.emplace s).Sound where
  live_stored := by
    intro p t hp htopen
    rw [emplace_heap] at hp
    simp only [Link.emplace, hfree, Function.update_apply]
    split_ifs at hp with hpn
    · cases hp
      rw [if_pos rfl, hpn]
    · have hstored := hl.live_stored p t hp htopen
      rw [if_neg]
      · exact hstored
      · intro heq
        rw [heq, hfree] at hstored
        cases hstored
  stored_live := by
    intro sid p hp
    simp only [Link.emplace, hfree, Function.update_apply] at hp
    simp only [emplace_heap]
    split_ifs at hp with hsid
    · cases hp
      exact ⟨s, if_pos rfl, hsid.symm, hopen⟩
    · obtain ⟨t, ht, htsid, htopen⟩ := hl.stored_live sid p hp
      refine ⟨t, ?_, htsid, htopen⟩
      rw [if_neg]
      · exact ht
      · rintro rfl
        rw [hl.unused l.next (Nat.le_refl _)] at ht
        cases ht
  unused := by
    intro p hp
    have hlt : l.next < p := hp
    rw [emplace_heap, if_neg (Nat.ne_of_gt hlt), hl.unused p (Nat.le_of_lt hlt)]

/-! ## The operations -/

theorem Sound.accept (hl : l.Sound) {sid : UInt64} (hfree : l.sessions sid = none)
    (target : Address) (win : UInt32) (protocol : Protocol) :
    (l.accept sid target win protocol).Sound :=
  have hins := hl.emplace (s := .new sid target win l.opts.initWindow protocol) hfree Session.new_ne_closed
  (hins.enqueueFrame (.ack sid)).congr rfl rfl rfl

/-- The sid of the session that dispatching a frame inserts, if any. -/
def frameInserts (l : Link) : ShineFrame → Option UInt64
  | .new sid addrBlob _ =>
    if l.onNewSession && (Address.parseBinary addrBlob).isOk then some sid else none
  | .newUdp sid => if l.onNewSession then some sid else none
  | _ => none

theorem Sound.onPeerClose (hl : l.Sound) {p : Nat} {sid : UInt64}
    (hp : l.sessions sid = some p) :
    (if ((l.modify p (·.onPeerClose)).heap p).map (·.state) = some .closed
      then (l.modify p (·.onPeerClose)).eraseSession sid
      else l.modify p (·.onPeerClose)).Sound := by
  obtain ⟨s, hs, hsid, hopen⟩ := hl.stored_live sid p hp
  rw [modify_heap_self, hs]
  split_ifs with hclosed
  · rw [← hsid]
    exact hl.retire _ hs hopen (Option.some.inj hclosed)
  · refine hl.modify p _ (fun _ _ => rfl) fun t ht => ?_
    rw [hs] at ht
    cases ht
    exact ⟨fun h => absurd (congrArg some h) hclosed, fun h => absurd h hopen⟩

theorem Sound.dispatchFrame (hl : l.Sound) (now : UInt64) {f : ShineFrame}
    (hfresh : (l.frameInserts f).bind l.sessions = none) : (l.dispatchFrame now f).Sound := by
  cases f with
  | data sid payload =>
    simp only [Link.dispatchFrame]
    split
    · exact hl
    · exact hl.modify _ _ (by simp) (by simp)
  | udpData sid addrBlob payload =>
    simp only [Link.dispatchFrame]
    split
    · exact hl
    · split
      · exact hl
      · exact hl.modify _ _ (by simp) (by simp)
  | new sid addrBlob initWindow =>
    simp only [Link.dispatchFrame]
    split_ifs with hno
    · exact hl
    · split
      · exact hl.enqueueFrame _
      · rename_i target hok
        have hins : l.frameInserts (.new sid addrBlob initWindow) = some sid := by
          rw [frameInserts, hok]
          simpa [Except.isOk, Except.toBool] using hno
        rw [hins] at hfresh
        exact hl.accept hfresh _ _ _
  | newUdp sid =>
    simp only [Link.dispatchFrame]
    split_ifs with hno
    · exact hl
    · have hins : l.frameInserts (.newUdp sid) = some sid := by simpa [frameInserts] using hno
      rw [hins] at hfresh
      exact hl.accept hfresh _ _ _
  | close sid reason =>
    simp only [Link.dispatchFrame]
    split
    · exact hl
    · rename_i p hp
      exact hl.onPeerClose hp
  | reset sid =>
    simp only [Link.dispatchFrame]
    split
    · exact hl
    · rename_i p hp
      obtain ⟨s, hs, rfl, hopen⟩ := hl.stored_live sid p hp
      exact hl.retire _ hs hopen rfl
  | window sid delta =>
    simp only [Link.dispatchFrame]
    split
    · exact hl
    · exact hl.modify _ _ (by simp) (by simp)
  | ping nonce => exact hl.enqueueFrame _
  | pong nonce =>
    simp only [Link.dispatchFrame]
    split_ifs
    · exact hl.congr rfl rfl rfl
    · exact hl
  | ack _ | hello _ _ | auth _ | ok | err _ _ => exact hl

theorem Sound.openSession (hl : l.Sound) {sid : UInt64} (hfree : l.sessions sid = none)
    (target : Address) (isUdp : Bool) : (l.openSession sid target isUdp).Sound := by
  unfold Link.openSession
  split_ifs with hclosed
  · exact hl
  · exact (hl.emplace (s := l.openedSession sid target isUdp) hfree Session.new_ne_closed).enqueueFrame _

theorem Sound.shutdownWrite (hl : l.Sound) (p : Nat) : (l.shutdownWrite p).Sound := by
  unfold Link.shutdownWrite
  split
  · exact hl
  · rename_i s hs
    split_ifs with hclosed
    · exact hl
    · split
      · rename_i hst
        refine (hl.modify p (·.setState .halfClosedLocal) (fun _ _ => rfl) fun t ht => ?_).enqueueFrame _
        rw [hs] at ht
        cases ht
        simp [hst]
      · rename_i hst
        exact (hl.retire _ hs (by simp [hst]) rfl).enqueueFrame _
      · exact hl

theorem Sound.close (hl : l.Sound) (p : Nat) : (l.close p).Sound := by
  unfold Link.close
  split
  · exact hl
  · rename_i s hs
    split_ifs with hopen
    · have hret := hl.retire (·.setState .closed) hs hopen rfl
      refine (hret.congr ?_ ?_ ?_).modify p _ (by simp) (by simp)
      all_goals simp [eraseSession]
    · exact hl.modify p _ (by simp) (by simp)

/-! ## Runs of the table -/

/-- What can happen to the table of a link that stays open. -/
inductive TableEvent where
  | frame (f : ShineFrame) (now : UInt64)
  | openSession (sid : UInt64) (target : Address) (isUdp : Bool)
  | shutdownWrite (p : Nat)
  | close (p : Nat)

/-- The effect of an event. -/
def react (l : Link) : TableEvent → Link
  | .frame f now => l.dispatchFrame now f
  | .openSession sid target isUdp => l.openSession sid target isUdp
  | .shutdownWrite p => l.shutdownWrite p
  | .close p => l.close p

/-- Frames of a peer in any order, interleaved with local calls. -/
def tableSystem : Lts Link TableEvent where
  step l e := some (l.react e)

/-- The sid of the session that an event inserts, if any. -/
def inserts (l : Link) : TableEvent → Option UInt64
  | .frame f _ => l.frameInserts f
  | .openSession sid _ _ => if l.closed then none else some sid
  | .shutdownWrite _ | .close _ => none

/-- If the event inserts a session, then under a sid that the table does not hold. -/
def InsertsFresh (l : Link) (e : TableEvent) : Prop := (l.inserts e).bind l.sessions = none

instance : DecidableRel InsertsFresh := fun _ _ => inferInstanceAs (Decidable (_ = none))

theorem Sound.react (hl : l.Sound) {e : TableEvent} (hfresh : l.InsertsFresh e) :
    (l.react e).Sound := by
  cases e with
  | frame f now => exact hl.dispatchFrame now hfresh
  | openSession sid target isUdp =>
    by_cases hclosed : l.closed = true
    · have hsame : l.openSession sid target isUdp = l := if_pos hclosed
      rw [Link.react, hsame]
      exact hl
    · have hins : l.inserts (.openSession sid target isUdp) = some sid := if_neg hclosed
      rw [InsertsFresh, hins] at hfresh
      exact hl.openSession hfresh target isUdp
  | shutdownWrite p => exact hl.shutdownWrite p
  | close p => exact hl.close p

/-- Every session that is not closed is the one stored under its sid. -/
def Identity (l : Link) : Prop :=
  ∀ p s, l.heap p = some s → s.state ≠ .closed → l.sessions s.sid = some p

/-- Closing a session removes no other: neither by a local call on `p`, nor by a
frame, which only removes a session that it closes. -/
structure RemovesOnlyItself (l : Link) : Prop where
  close : ∀ p sid q, l.sessions sid = some q → q ≠ p → (l.close p).sessions sid = some q
  shutdownWrite : ∀ p sid q, l.sessions sid = some q → q ≠ p →
    (l.shutdownWrite p).sessions sid = some q
  frame : ∀ f now sid q, l.sessions sid = some q →
    (l.dispatchFrame now f).sessions sid = some q ∨
      ∃ s, (l.dispatchFrame now f).heap q = some s ∧ s.state = .closed

theorem emplace_sessions_of_some {sid : UInt64} {q : Nat} (s : Session)
    (hq : l.sessions sid = some q) : (l.emplace s).sessions sid = some q := by
  unfold emplace
  cases hs : l.sessions s.sid with
  | some _ => exact hq
  | none =>
    have hne : sid ≠ s.sid := by
      rintro rfl
      rw [hs] at hq
      cases hq
    simp only
    rw [Function.update_of_ne hne, hq]

theorem emplace_sessions_cases {sid : UInt64} {q : Nat} {s : Session}
    (hq : (l.emplace s).sessions sid = some q) : l.sessions sid = some q ∨ q = l.next := by
  unfold emplace at hq
  cases hs : l.sessions s.sid with
  | some _ =>
    rw [hs] at hq
    exact .inl hq
  | none =>
    rw [hs] at hq
    simp only [Function.update_apply] at hq
    split_ifs at hq
    · cases hq
      exact .inr rfl
    · exact .inl hq

/-- Erasing the sid of `p` leaves the entry of another session alone. -/
theorem Sound.eraseSession_other (hl : l.Sound) {p q : Nat} {s : Session} {sid : UInt64}
    (hp : l.heap p = some s) (hopen : s.state ≠ .closed) (hq : l.sessions sid = some q)
    (hne : q ≠ p) : (if sid = s.sid then none else l.sessions sid) = some q := by
  rw [if_neg, hq]
  rintro rfl
  rw [hl.live_stored p s hp hopen] at hq
  cases hq
  exact hne rfl

theorem Sound.close_other (hl : l.Sound) {p q : Nat} {sid : UInt64}
    (hq : l.sessions sid = some q) (hne : q ≠ p) : (l.close p).sessions sid = some q := by
  unfold Link.close
  split
  · exact hq
  · rename_i s hs
    split_ifs with hopen
    · rw [modify_sessions, eraseSession_sessions, spawnEnqueue_sessions, modify_sessions]
      exact hl.eraseSession_other hs hopen hq hne
    · exact hq

theorem Sound.shutdownWrite_other (hl : l.Sound) {p q : Nat} {sid : UInt64}
    (hq : l.sessions sid = some q) (hne : q ≠ p) :
    (l.shutdownWrite p).sessions sid = some q := by
  unfold Link.shutdownWrite
  split
  · exact hq
  · rename_i s hs
    split_ifs with hclosed
    · exact hq
    · split
      · rw [enqueueFrame_sessions]
        exact hq
      · rename_i hst
        rw [enqueueFrame_sessions, eraseSession_sessions, modify_sessions]
        exact hl.eraseSession_other hs (by simp [hst]) hq hne
      · exact hq

theorem Sound.dispatchFrame_removes (hl : l.Sound) (f : ShineFrame) (now : UInt64)
    {sid : UInt64} {q : Nat} (hq : l.sessions sid = some q) :
    (l.dispatchFrame now f).sessions sid = some q ∨
      ∃ s, (l.dispatchFrame now f).heap q = some s ∧ s.state = .closed := by
  cases f with
  | data sid' _ | window sid' _ =>
    left
    simp only [Link.dispatchFrame]
    split <;> exact hq
  | udpData sid' _ _ =>
    left
    simp only [Link.dispatchFrame]
    split
    · exact hq
    · split <;> exact hq
  | new sid' _ _ =>
    left
    simp only [Link.dispatchFrame]
    split_ifs
    · exact hq
    · split
      · rw [enqueueFrame_sessions]
        exact hq
      · rw [Link.accept]
        simp only [enqueueFrame_sessions]
        exact emplace_sessions_of_some _ hq
  | newUdp sid' =>
    left
    simp only [Link.dispatchFrame]
    split_ifs
    · exact hq
    · rw [Link.accept]
      simp only [enqueueFrame_sessions]
      exact emplace_sessions_of_some _ hq
  | close sid' _ =>
    simp only [Link.dispatchFrame]
    split
    · exact .inl hq
    · rename_i p hp
      split_ifs with hclosed
      · rw [eraseSession_sessions, modify_sessions]
        split_ifs with hsid
        · -- the removed entry is that of the session the frame closed
          subst hsid
          obtain rfl : p = q := Option.some.inj (hp.symm.trans hq)
          obtain ⟨s, hs, hst⟩ := Option.map_eq_some_iff.mp hclosed
          exact .inr ⟨s, hs, hst⟩
        · exact .inl hq
      · exact .inl hq
  | reset sid' =>
    simp only [Link.dispatchFrame]
    split
    · exact .inl hq
    · rename_i p hp
      rw [eraseSession_sessions, modify_sessions]
      split_ifs with hsid
      · subst hsid
        obtain rfl : p = q := Option.some.inj (hp.symm.trans hq)
        obtain ⟨s, hs, -, -⟩ := hl.stored_live sid p hq
        exact .inr ⟨s.onReset, by rw [eraseSession_heap, modify_heap_self, hs]; rfl, rfl⟩
      · exact .inl hq
  | ping _ =>
    left
    rw [Link.dispatchFrame, enqueueFrame_sessions]
    exact hq
  | pong _ =>
    left
    simp only [Link.dispatchFrame]
    split_ifs <;> exact hq
  | ack _ | hello _ _ | auth _ | ok | err _ _ => exact .inl hq

theorem Sound.removesOnlyItself (hl : l.Sound) : l.RemovesOnlyItself where
  close := fun _ _ _ hq hne => hl.close_other hq hne
  shutdownWrite := fun _ _ _ hq hne => hl.shutdownWrite_other hq hne
  frame := fun f now _ _ hq => hl.dispatchFrame_removes f now hq

/-- An event that inserts a session does so with one `emplace` of an open session. -/
theorem react_of_inserts {e : TableEvent} {sid : UInt64} (h : l.inserts e = some sid) :
    ∃ s, s.sid = sid ∧ s.state = .opened ∧ (l.react e).heap = (l.emplace s).heap ∧
      (l.react e).sessions = (l.emplace s).sessions := by
  cases e with
  | frame f now =>
    cases f with
    | new sid' addrBlob initWindow =>
      simp only [inserts, frameInserts] at h
      split_ifs at h with hins
      cases h
      rw [Bool.and_eq_true] at hins
      obtain ⟨target, hok⟩ : ∃ target, Address.parseBinary addrBlob = .ok target := by
        cases hp : Address.parseBinary addrBlob with
        | ok target => exact ⟨target, rfl⟩
        | error _ =>
          rw [hp] at hins
          cases hins.2
      refine ⟨.new sid target initWindow l.opts.initWindow .tcp, rfl, rfl, ?_, ?_⟩
      all_goals simp [react, Link.dispatchFrame, hins.1, hok, Link.accept]
    | newUdp sid' =>
      simp only [inserts, frameInserts] at h
      split_ifs at h with hins
      cases h
      refine ⟨.new sid Address.default 0 l.opts.initWindow .udp, rfl, rfl, ?_, ?_⟩
      all_goals simp [react, Link.dispatchFrame, hins, Link.accept]
    | _ => simp [inserts, frameInserts] at h
  | openSession sid' target isUdp =>
    simp only [inserts] at h
    split_ifs at h with hclosed
    cases h
    refine ⟨l.openedSession sid target isUdp, rfl, rfl, ?_, ?_⟩
    all_goals simp [react, Link.openSession, hclosed]
  | shutdownWrite p => simp [inserts] at h
  | close p => simp [inserts] at h

/-- An insertion under a sid in use leaves the new session out of the table. -/
theorem Sound.not_identity_of_not_fresh (hl : l.Sound) {e : TableEvent}
    (h : ¬ l.InsertsFresh e) : ¬ (l.react e).Identity := by
  intro hid
  obtain ⟨q, hbind⟩ := Option.ne_none_iff_exists'.mp h
  obtain ⟨sid, hins, hq⟩ := Option.bind_eq_some_iff.mp hbind
  obtain ⟨s, hsid, hst, hheap, htab⟩ := react_of_inserts hins
  have hnew : (l.react e).heap l.next = some s := by
    rw [hheap]
    exact Function.update_self ..
  have hstored := hid l.next s hnew (by simp [hst])
  rw [htab, hsid, emplace_sessions_of_some s hq] at hstored
  -- the entry found there belongs to an older object
  obtain ⟨t, ht, -, -⟩ := hl.stored_live sid q hq
  rw [Option.some.inj hstored, hl.unused l.next (Nat.le_refl _)] at ht
  cases ht

/-- **Session table identity.** In every run whose insertions all use a sid that the
table does not hold, every session that is not closed is the one stored under its
sid, and closing one session never removes another. The condition is exact: after
one more event the identity still holds if and only if the event meets it. -/
theorem table_identity (opts : LinkOptions) (handler : Bool) (now : UInt64)
    (h : tableSystem.Reach InsertsFresh (new opts handler now) l) :
    l.Identity ∧ l.RemovesOnlyItself ∧ ∀ e, (l.react e).Identity ↔ l.InsertsFresh e := by
  have hsound : l.Sound := by
    refine h.invariant (sound_new opts handler now) fun s e t hs hok hstep => ?_
    cases hstep
    exact hs.react hok
  refine ⟨hsound.live_stored, hsound.removesOnlyItself, fun e => ⟨fun hid => ?_, fun hok => ?_⟩⟩
  · by_contra hfresh
    exact hsound.not_identity_of_not_fresh hfresh hid
  · exact (hsound.react hok).live_stored

/-- The options of the server link in the runs on fixed inputs. -/
def sampleOpts : LinkOptions where
  password := ascii "secret"
  initWindow := 4
  maxPayload := 64
  maxDataFrame := 16
  isServer := true

/-- A server link that has just been started. -/
def sampleServer : Link := new sampleOpts true 0

/-- The blob of 127.0.0.1:80. -/
def sampleBlob : Bytes := [1, 4, 127, 0, 0, 1, 0, 80]

/-- The address in it. -/
def sampleTarget : Address := .ipv4 ⟨[127, 0, 0, 1], rfl⟩ 80

theorem table_identity_two_sessions :
    let l := (sampleServer.react (.frame (.new 7 sampleBlob 4) 0)).react (.frame (.newUdp 9) 0)
    l.Identity ∧ l.RemovesOnlyItself ∧ ∀ e, (l.react e).Identity ↔ l.InsertsFresh e :=
  table_identity sampleOpts true 0
    (Lts.reach_of_exec [.frame (.new 7 sampleBlob 4) 0, .frame (.newUdp 9) 0] rfl)

/-- A peer that sends NEW twice with one sid: the second session is live but not in
the table, and closing it removes the first. -/
theorem table_identity_fails_on_reused_sid :
    ∃ l, tableSystem.Reach Lts.Free sampleServer l ∧ ¬ l.Identity ∧ ¬ l.RemovesOnlyItself := by
  refine ⟨_, Lts.reach_of_exec
    [.frame (.new 7 sampleBlob 4) 0, .frame (.new 7 sampleBlob 4) 0] rfl, ?_, ?_⟩
  · intro hid
    have hstored := hid 1 (.new 7 (.ipv4 ⟨[127, 0, 0, 1], rfl⟩ 80) 4 4 .tcp) rfl nofun
    exact absurd hstored (by decide)
  · intro hrem
    have hkept := hrem.close 1 7 0 rfl (by decide)
    exact absurd hkept (by decide)

end Link

end Shine
