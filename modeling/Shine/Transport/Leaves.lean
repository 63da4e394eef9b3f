import Shine.Transport.Duo

/-!
# Steps that do not concern a session

`Leaves sid l l'` says that the way from `l` to `l'` does not concern the session: its
object, its entry in the table and its frames stay as they are. It holds for every frame
of another session (`Leaves.dispatchFrame`) and for everything that happens on the link
apart from the session (`Node.apart_cases`), except that the link may end and that frames
move on towards the connection.
-/

namespace Shine

/-- Every entry of the table points to an object with its sid. -/
structure Consistent (l : Link) : Prop where
  entry : ∀ sid q, l.sessions sid = some q → ∃ s, l.heap q = some s ∧ s.sid = sid
  bound : ∀ q s, l.heap q = some s → q < l.next

/-- The way from `l` to `l'` does not concern the session `sid`. -/
structure Leaves (sid : UInt64) (l l' : Link) : Prop where
  consistent : Consistent l → Consistent l'
  kept : Consistent l → ∀ q s, s.sid = sid → (l'.heap q = some s ↔ l.heap q = some s)
  table : Consistent l → l'.sessions sid = l.sessions sid
  written : ∃ extra, l'.writeChan = l.writeChan ++ extra ∧ ∀ f ∈ extra, f.session ≠ some sid
  posted : ∃ extra, l'.posted = l.posted ++ extra ∧ ∀ f ∈ extra, f.session ≠ some sid
  closed : l.closed = true → l'.closed = true
  handler : l'.onNewSession = l.onNewSession

namespace Leaves

variable {sid : UInt64} {l l' l'' : Link} {q : Nat}

theorem refl : Leaves sid l l where
  consistent h := h
  kept _ _ _ _ := Iff.rfl
  table _ := rfl
  written := ⟨[], by simp, by simp⟩
  posted := ⟨[], by simp, by simp⟩
  closed h := h
  handler := rfl

theorem trans (h : Leaves sid l l') (h' : Leaves sid l' l'') : Leaves sid l l'' where
  consistent hl := h'.consistent (h.consistent hl)
  kept hl q s hs := (h'.kept (h.consistent hl) q s hs).trans (h.kept hl q s hs)
  table hl := (h'.table (h.consistent hl)).trans (h.table hl)
  written := by
    obtain ⟨extra, hchan, hF⟩ := h.written
    obtain ⟨extra', hchan', hF'⟩ := h'.written
    refine ⟨extra ++ extra', by rw [hchan', hchan, List.append_assoc], fun f hf => ?_⟩
    exact (List.mem_append.mp hf).elim (hF f) (hF' f)
  posted := by
    obtain ⟨extra, hchan, hF⟩ := h.posted
    obtain ⟨extra', hchan', hF'⟩ := h'.posted
    refine ⟨extra ++ extra', by rw [hchan', hchan, List.append_assoc], fun f hf => ?_⟩
    exact (List.mem_append.mp hf).elim (hF f) (hF' f)
  closed hc := h'.closed (h.closed hc)
  handler := h'.handler.trans h.handler

/-- Only fields that the session does not see change. -/
theorem of_eq (hheap : l'.heap = l.heap) (hnext : l'.next = l.next)
    (hsess : l'.sessions = l.sessions) (hchan : l'.writeChan = l.writeChan)
    (hposted : l'.posted = l.posted) (hclosed : l'.closed = l.closed)
    (hhandler : l'.onNewSession = l.onNewSession) : Leaves sid l l' where
  consistent h := ⟨by rw [hsess, hheap]; exact h.entry, by rw [hheap, hnext]; exact h.bound⟩
  kept _ q s _ := by rw [hheap]
  table _ := by rw [hsess]
  written := ⟨[], by simp [hchan], by simp⟩
  posted := ⟨[], by simp [hposted], by simp⟩
  closed hc := hclosed ▸ hc
  handler := hhandler

theorem enqueueFrame {f : ShineFrame} (hf : f.session ≠ some sid) :
    Leaves sid l (l.enqueueFrame f) where
  consistent h := ⟨by simpa using h.entry, by simpa using h.bound⟩
  kept _ q s _ := by simp
  table _ := by simp
  written := by
    rw [Link.enqueueFrame_writeChan]
    split_ifs
    · exact ⟨[], by simp, by simp⟩
    · exact ⟨[f], rfl, by simpa using hf⟩
  posted := ⟨[], by simp, by simp⟩
  closed hc := by simpa using hc
  handler := by simp

theorem spawnEnqueue {f : ShineFrame} (hf : f.session ≠ some sid) :
    Leaves sid l (l.spawnEnqueue f) where
  consistent h := ⟨by simpa using h.entry, by simpa using h.bound⟩
  kept _ q s _ := by simp
  table _ := by simp
  written := ⟨[], by simp, by simp⟩
  posted := by
    rw [Link.spawnEnqueue_posted]
    split_ifs
    · exact ⟨[], by simp, by simp⟩
    · exact ⟨[f], rfl, by simpa using hf⟩
  closed hc := by simpa using hc
  handler := by simp

/-- A method of another session's. -/
theorem modify {f : Session → Session} (hsid : ∀ s, l.heap q = some s → (f s).sid = s.sid)
    (hother : ∀ s, l.heap q = some s → s.sid ≠ sid) : Leaves sid l (l.modify q f) where
  consistent h := by
    constructor
    · intro sid' q' hs
      obtain ⟨s, hheap, rfl⟩ := h.entry sid' q' hs
      by_cases hne : q' = q
      · subst hne
        exact ⟨f s, by rw [Link.modify_heap_self, hheap]; rfl, hsid s hheap⟩
      · exact ⟨s, by rw [Link.modify_heap, if_neg hne, hheap], rfl⟩
    · intro q' s hs
      rw [Link.modify_heap] at hs
      split_ifs at hs with hne
      · obtain ⟨s', hs', -⟩ := Option.map_eq_some_iff.mp hs
        exact hne ▸ h.bound q s' hs'
      · exact h.bound q' s hs
  kept _ q' s hs := by
    rw [Link.modify_heap]
    split_ifs with hne
    · subst hne
      constructor
      · intro hmap
        obtain ⟨s', hs', rfl⟩ := Option.map_eq_some_iff.mp hmap
        exact absurd ((hsid s' hs').symm.trans hs) (hother s' hs')
      · intro hheap
        exact absurd hs (hother s hheap)
    · exact Iff.rfl
  table _ := rfl
  written := ⟨[], by simp, by simp⟩
  posted := ⟨[], by simp, by simp⟩
  closed hc := hc
  handler := rfl

theorem eraseSession {sid' : UInt64} (hne : sid' ≠ sid) : Leaves sid l (l.eraseSession sid') where
  consistent h := by
    refine ⟨fun sid'' q hs => h.entry sid'' q (Served.sessions_eraseSession hs), h.bound⟩
  kept _ _ _ _ := Iff.rfl
  table _ := by rw [Link.eraseSession_sessions, if_neg hne.symm]
  written := ⟨[], by simp, by simp⟩
  posted := ⟨[], by simp, by simp⟩
  closed hc := hc
  handler := rfl

/-- Another session is constructed. -/
theorem emplace {s : Session} (hne : s.sid ≠ sid) : Leaves sid l (l.emplace s) where
  consistent h := by
    constructor
    · intro sid' q hs
      by_cases hq : q = l.next
      · subst hq
        refine ⟨s, by rw [Link.emplace_heap, if_pos rfl], ?_⟩
        -- the table had no entry for an object that did not exist
        have hold : l.sessions sid' ≠ some l.next := fun hold => by
          obtain ⟨s', hs', -⟩ := h.entry sid' l.next hold
          exact Nat.lt_irrefl _ (h.bound _ _ hs')
        by_contra hsid
        rw [Link.emplace] at hs
        cases hfree : l.sessions s.sid with
        | some _ => exact hold (by simpa [hfree] using hs)
        | none =>
          exact hold (by simpa [hfree, Function.update_apply, Ne.symm hsid] using hs)
      · rcases Link.emplace_sessions_cases hs with hold | hnew
        · obtain ⟨s', hs', hsid⟩ := h.entry sid' q hold
          exact ⟨s', by rw [Link.emplace_heap, if_neg hq, hs'], hsid⟩
        · exact absurd hnew hq
    · intro q s' hs
      rw [Link.emplace_heap] at hs
      rw [Link.emplace_next]
      split_ifs at hs with hq
      · omega
      · exact Nat.lt_succ_of_lt (h.bound q s' hs)
  kept h q s' hs' := by
    rw [Link.emplace_heap]
    split_ifs with hq
    · constructor
      · intro heq
        exact absurd ((Option.some.inj heq) ▸ hs') hne
      · intro hheap
        exact absurd (h.bound q s' hheap) (by omega)
    · exact Iff.rfl
  table _ := by
    rw [Link.emplace]
    cases l.sessions s.sid with
    | some _ => rfl
    | none => exact Function.update_of_ne hne.symm _ _
  written := ⟨[], by simp, by simp⟩
  posted := ⟨[], by simp, by simp⟩
  closed hc := hc
  handler := rfl

theorem accept {sid' : UInt64} (hne : sid' ≠ sid) (target : Address) (win : UInt32)
    (protocol : Protocol) : Leaves sid l (l.accept sid' target win protocol) := by
  have hack : (ShineFrame.ack sid').session ≠ some sid := by simpa [ShineFrame.session] using hne
  have hnew : Leaves sid l (l.emplace (.new sid' target win l.opts.initWindow protocol)) :=
    emplace (by simpa [Session.new] using hne)
  exact (hnew.trans (enqueueFrame hack)).trans (of_eq rfl rfl rfl rfl rfl rfl rfl)

/-- The object that the table has under another sid is another session's. -/
theorem ne_of_entry (h : Consistent l) {sid' : UInt64} (hne : sid' ≠ sid)
    (hq : l.sessions sid' = some q) : ∀ s, l.heap q = some s → s.sid ≠ sid := by
  intro s hs
  obtain ⟨s', hs', hsid⟩ := h.entry sid' q hq
  rw [hs] at hs'
  cases hs'
  rwa [hsid]

/-- **A frame for another session**, or for none. -/
theorem dispatchFrame (h : Consistent l) (now : UInt64) {f : ShineFrame}
    (hf : f.session ≠ some sid) : Leaves sid l (l.dispatchFrame now f) := by
  have hother : ∀ {sid' : UInt64}, f.session = some sid' → sid' ≠ sid := by
    intro sid' hs heq
    exact hf (heq ▸ hs)
  cases f with
  | data sid' payload =>
    simp only [Link.dispatchFrame]
    split
    · exact refl
    · rename_i q hq
      exact modify (by simp) (ne_of_entry h (hother rfl) hq)
  | udpData sid' blob payload =>
    simp only [Link.dispatchFrame]
    split
    · exact refl
    · rename_i q hq
      split
      · exact refl
      · exact modify (by simp) (ne_of_entry h (hother rfl) hq)
  | new sid' blob win =>
    simp only [Link.dispatchFrame]
    split_ifs
    · exact refl
    · split
      · exact enqueueFrame (by simpa [ShineFrame.session] using hother rfl)
      · exact accept (hother rfl) ..
  | newUdp sid' =>
    simp only [Link.dispatchFrame]
    split_ifs
    · exact refl
    · exact accept (hother rfl) ..
  | close sid' reason =>
    simp only [Link.dispatchFrame]
    split
    · exact refl
    · rename_i q hq
      have hmod : Leaves sid l (l.modify q (·.onPeerClose)) :=
        modify (by simp) (ne_of_entry h (hother rfl) hq)
      split_ifs
      · exact hmod.trans (eraseSession (hother rfl))
      · exact hmod
  | reset sid' =>
    simp only [Link.dispatchFrame]
    split
    · exact refl
    · rename_i q hq
      exact (modify (by simp) (ne_of_entry h (hother rfl) hq)).trans (eraseSession (hother rfl))
  | window sid' delta =>
    simp only [Link.dispatchFrame]
    split
    · exact refl
    · rename_i q hq
      exact modify (by simp) (ne_of_entry h (hother rfl) hq)
  | ping nonce => exact enqueueFrame (by simp [ShineFrame.session])
  | pong nonce =>
    simp only [Link.dispatchFrame]
    split_ifs
    · exact of_eq rfl rfl rfl rfl rfl rfl rfl
    · exact refl
  | ack _ | hello _ _ | auth _ | ok | err _ _ => exact refl

section Other

-- the object `q` is another session's
variable (hother : ∀ s, l.heap q = some s → s.sid ≠ sid)

include hother

theorem shutdownWrite : Leaves sid l (l.shutdownWrite q) := by
  unfold Link.shutdownWrite
  cases hs : l.heap q with
  | none => exact refl
  | some s =>
    have hne := hother s hs
    have hclose : (ShineFrame.close s.sid []).session ≠ some sid := by
      simpa [ShineFrame.session] using hne
    simp only
    split_ifs
    · exact refl
    · cases s.state with
      | init | halfClosedLocal | closed => exact refl
      | opened => exact (modify (by simp) hother).trans (enqueueFrame hclose)
      | halfClosedRemote =>
        exact ((modify (by simp) hother).trans (eraseSession hne)).trans (enqueueFrame hclose)

theorem close : Leaves sid l (l.close q) := by
  unfold Link.close
  cases hs : l.heap q with
  | none => exact refl
  | some s =>
    have hne := hother s hs
    have hclose : (ShineFrame.close s.sid []).session ≠ some sid := by
      simpa [ShineFrame.session] using hne
    simp only
    split_ifs
    · have hfirst := ((modify (f := (·.setState .closed)) (by simp) hother).trans
        (spawnEnqueue hclose)).trans (eraseSession hne)
      refine hfirst.trans (modify (by simp) ?_)
      intro s' hs'
      simp only [Link.eraseSession_heap, Link.spawnEnqueue_heap, Link.modify_heap_self, hs,
        Option.map_some, Option.some.injEq] at hs'
      rw [← hs']
      exact hne
    · exact modify (by simp) hother

/-- **A piece of a method of another session's.** -/
theorem call {op : SessionOp} {r : op.Ans} (hrun : op.run l q = some (r, l'))
    (hop : ∀ f, op = .enqueueFrame f → f.session ≠ some sid) : Leaves sid l l' := by
  obtain rfl | ⟨s, f, hs, hsid, -, rfl⟩ | ⟨f, rfl, rfl⟩ | ⟨rfl, rfl⟩ | ⟨rfl, rfl⟩ :=
    SessionOp.run_cases hrun
  · exact refl
  · refine modify ?_ hother
    intro s' hs'
    rw [hs] at hs'
    cases hs'
    exact hsid
  · exact enqueueFrame (hop f rfl)
  · exact shutdownWrite hother
  · exact close hother

end Other

theorem openSession {sid' : UInt64} (hne : sid' ≠ sid) (target : Address) (isUdp : Bool) :
    Leaves sid l (l.openSession sid' target isUdp) := by
  have hopen : (l.openFrame sid' target isUdp).session ≠ some sid := by
    unfold Link.openFrame
    split_ifs <;> simpa [ShineFrame.session] using hne
  unfold Link.openSession
  split_ifs
  · exact refl
  · exact (emplace (by simpa [Link.openedSession, Session.new] using hne)).trans
      (enqueueFrame hopen)

end Leaves

/-- What an event apart from the session does: nothing that concerns it, the end of the
link, or moving frames on towards the connection. -/
theorem Node.apart_cases {sid : UInt64} {n : Node} {e : Served.Event} {w : Served}
    (ha : n.apart sid e = true) (hstep : n.served.step e = some w) :
    (w.sent = n.served.sent ∧ Leaves sid n.link w.link) ∨ w.link.closed = true ∨
    (∃ f rest, n.link.writeChan = f :: rest ∧
      w = { n.served with
        link := { n.link with writeChan := rest }, sent := n.served.sent ++ [f] }) ∨
    (∃ f rest, n.link.posted = f :: rest ∧
      w = n.served.setLink ({ n.link with posted := rest }.enqueueFrame f)) := by
  cases e with
  | dispatch now f => simp [Node.apart] at ha
  | flush =>
    rw [Served.step] at hstep
    split at hstep
    · cases hstep
    · rename_i f rest hchan
      split_ifs at hstep
      cases hstep
      exact .inr (.inr (.inl ⟨f, rest, hchan, rfl⟩))
  | runPosted =>
    obtain ⟨l, hrun, rfl⟩ := Option.map_eq_some_iff.mp hstep
    rw [Link.runPosted] at hrun
    split at hrun <;> cases hrun
    rename_i f rest hposted
    exact .inr (.inr (.inr ⟨f, rest, hposted, rfl⟩))
  | control f =>
    rw [Served.step] at hstep
    split_ifs at hstep with hcontrol
    cases hstep
    refine .inl ⟨rfl, .enqueueFrame ?_⟩
    cases f <;> simp_all [ShineFrame.isControl, ShineFrame.session]
  | openSession sid' target isUdp =>
    cases hstep
    have hne : sid' ≠ sid := by simpa [Node.apart] using ha
    exact .inl ⟨rfl, .openSession hne target isUdp⟩
  | call q op =>
    obtain ⟨⟨r, l'⟩, hrun, rfl⟩ := Option.map_eq_some_iff.mp hstep
    simp only [Node.apart, ne_eq, decide_not, Bool.and_eq_true, Bool.not_eq_true',
      decide_eq_false_iff_not] at ha
    refine .inl ⟨rfl, .call (fun s hs hsid => ha.1 ?_) hrun ?_⟩
    · have hheap : n.link.heap q = some s := hs
      rw [hheap, Option.map_some, hsid]
    · rintro f rfl
      simpa using ha.2
  | failLink =>
    cases hstep
    exact .inr (.inl (Link.failLink_closed _))
  | closeNow =>
    cases hstep
    exact .inr (.inl rfl)

end Shine
