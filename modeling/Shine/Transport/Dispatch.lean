import Shine.Transport.Refinement

/-!
# Dispatching a frame

What the dispatch of a frame does to the two ends of every session: for the session
that the frame is about it is a `Delivery`, and all other ends stay as they are.
-/

namespace Shine

open ShineFrame End

namespace Peer

variable {pe : Peer} {cap : UInt32} {wire : List ShineFrame} {cut : Bool} {sid : UInt64}
  {f : ShineFrame}

/-- The frame at the head of what an end has under way. -/
theorem endOf_cons : pe.endOf cap (f :: wire) cut sid
    = { pe.endOf cap wire cut sid with
        msgs := (f.msgOf sid).toList ++ (pe.endOf cap wire cut sid).msgs
        grants := (f.grantOf sid).toList ++ (pe.endOf cap wire cut sid).grants
        opening := f.opens sid || (pe.endOf cap wire cut sid).opening } := by
  simp only [endOf, traffic, List.cons_append, List.filterMap_cons, List.any_cons]
  cases f.msgOf sid <;> cases f.grantOf sid <;> rfl

theorem endOf_cons_other (hf : f.concern ≠ some sid) :
    pe.endOf cap (f :: wire) cut sid = pe.endOf cap wire cut sid := by
  rw [endOf_cons, msgOf_of_ne hf, grantOf_of_ne hf, opens_of_ne hf]
  rfl

/-! ## The session that the table holds -/

theorem live_of_findSession (hs : pe.link.Sound) (hd : pe.link.Distinct) {p : Nat}
    (h : pe.link.findSession sid = some p) :
    ∃ s, pe.link.heap p = some s ∧ s.sid = sid ∧ s.state ≠ .closed ∧
      (pe.endOf cap wire cut sid).session = s ∧ (pe.endOf cap wire cut sid).live = true := by
  obtain ⟨s, hp, rfl, hopen⟩ := hs.stored_live sid p h
  have hses : (pe.endOf cap wire cut s.sid).session = s := session_of_heap hd hp
  have hpresent : (pe.endOf cap wire cut s.sid).present = true := present_of_heap hd hp
  exact ⟨s, hp, rfl, hopen, hses, by simp [live, hpresent, hses, hopen]⟩

theorem not_live_of_findSession (hs : pe.link.Sound) (hd : pe.link.Distinct)
    (h : pe.link.findSession sid = none) : (pe.endOf cap wire cut sid).live = false := by
  cases ho : pe.link.object sid with
  | none => simp [live, endOf, ho]
  | some s =>
    obtain ⟨p, hp, rfl⟩ := hd.object_eq_some.mp ho
    have hclosed : s.state = .closed := by
      by_contra hopen
      rw [Link.findSession, hs.live_stored p s hp hopen] at h
      cases h
    simp [live, endOf, session, ho, hclosed]

/-- A method called on the session that the table holds under `σ`, if any. -/
theorem endOf_onSession (hs : pe.link.Sound) (hd : pe.link.Distinct) (σ : UInt64)
    {g : Session → Session} (hsid : ∀ s, (g s).sid = s.sid) {l : Link}
    (hnone : pe.link.findSession σ = none → l = pe.link)
    (hsome : ∀ p, pe.link.findSession σ = some p → (pe.setLink l).endOf cap wire cut sid
      = (pe.setLink (pe.link.modify p g)).endOf cap wire cut sid) :
    (pe.setLink l).endOf cap wire cut sid = if sid = σ
      then (pe.endOf cap wire cut sid).onSession g else pe.endOf cap wire cut sid := by
  cases hf : pe.link.findSession σ with
  | none =>
    rw [hnone hf, setLink_self]
    split_ifs with h
    · subst h
      rw [onSession_of_not_live (not_live_of_findSession hs hd hf)]
    · rfl
  | some p =>
    obtain ⟨s, hp, rfl, -, hses, hlive⟩ :=
      @live_of_findSession pe cap wire cut σ hs hd p hf
    rw [hsome p hf, endOf_modify hd hp (hsid s)]
    split_ifs with h
    · subst h
      rw [onSession_of_live hlive, hses]
    · rfl

/-! ## The two ends -/

section Delivery

variable {px py : Peer} {wireY : List ShineFrame} {cutY : Bool} {aborted : UInt64 → Bool}
  {strict : UInt64 → Prop} {now : UInt64}

/-- A frame that the dispatching link answers or ignores, and that is about no session. -/
theorem delivery_of_link (hf : f.concern ≠ some sid) {l : Link} {b : Bool}
    (hl : (py.setLink l).endOf cap wireY cutY sid = py.endOf cap wireY cutY sid)
    (hb : b = aborted sid) :
    Delivery (strict sid) (px.endOf cap (f :: wire) cut sid) (py.endOf cap wireY cutY sid) (aborted sid)
      (px.endOf cap wire cut sid) ((py.setLink l).endOf cap wireY cutY sid) b := by
  rw [endOf_cons_other hf, hl, hb]
  exact .other

/-- A frame about the session `σ` that calls a method of it. -/
theorem delivery_of_method (hs : py.link.Sound) (hd : py.link.Distinct) {σ : UInt64}
    {g : Session → Session} (hsid : ∀ s, (g s).sid = s.sid) {l : Link} (hf : f.concern = some σ)
    (hnone : py.link.findSession σ = none → l = py.link)
    (hsome : ∀ p, py.link.findSession σ = some p → (py.setLink l).endOf cap wireY cutY sid
      = (py.setLink (py.link.modify p g)).endOf cap wireY cutY sid)
    (hσ : Delivery (strict σ) (px.endOf cap (f :: wire) cut σ) (py.endOf cap wireY cutY σ) (aborted σ)
      (px.endOf cap wire cut σ) ((py.endOf cap wireY cutY σ).onSession g) (aborted σ)) :
    Delivery (strict sid) (px.endOf cap (f :: wire) cut sid) (py.endOf cap wireY cutY sid) (aborted sid)
      (px.endOf cap wire cut sid) ((py.setLink l).endOf cap wireY cutY sid) (aborted sid) := by
  rw [endOf_onSession hs hd σ hsid hnone hsome]
  split_ifs with h
  · subst h
    exact hσ
  · rw [endOf_cons_other]
    · exact .other
    · rw [hf]
      exact fun h' => h (Option.some.inj h').symm

variable {σ : UInt64}

/-- DATA. -/
theorem delivery_data (hs : py.link.Sound) (hd : py.link.Distinct) (c : Bytes)
    (hlate : (px.endOf cap wire cut σ).opening = false) :
    Delivery (strict sid) (px.endOf cap (.data σ c :: wire) cut sid) (py.endOf cap wireY cutY sid)
      (aborted sid) (px.endOf cap wire cut sid)
      ((py.setLink (py.link.dispatchFrame now (.data σ c))).endOf cap wireY cutY sid)
      (aborted sid) := by
  refine delivery_of_method hs hd (g := (·.onData c)) (fun s => Session.onData_sid s c) rfl
    (fun h => by simp [Link.dispatchFrame, h]) (fun p h => by simp [Link.dispatchFrame, h]) ?_
  have hx : px.endOf cap (.data σ c :: wire) cut σ = { px.endOf cap wire cut σ with
      msgs := .data c :: (px.endOf cap wire cut σ).msgs } := by
    rw [endOf_cons]
    simp [msgOf, grantOf, opens, isNew]
  rw [hx]
  exact .data c _ rfl fun _ => hlate

/-- WINDOW. -/
theorem delivery_window (hs : py.link.Sound) (hd : py.link.Distinct) (delta : UInt32) :
    Delivery (strict sid) (px.endOf cap (.window σ delta :: wire) cut sid) (py.endOf cap wireY cutY sid)
      (aborted sid) (px.endOf cap wire cut sid)
      ((py.setLink (py.link.dispatchFrame now (.window σ delta))).endOf cap wireY cutY sid)
      (aborted sid) := by
  refine delivery_of_method hs hd (g := (·.onWindow delta)) (fun s => rfl) rfl
    (fun h => by simp [Link.dispatchFrame, h]) (fun p h => by simp [Link.dispatchFrame, h]) ?_
  have hx : px.endOf cap (.window σ delta :: wire) cut σ = { px.endOf cap wire cut σ with
      grants := delta.toNat :: (px.endOf cap wire cut σ).grants } := by
    rw [endOf_cons]
    simp [msgOf, grantOf, opens, isNew]
  rw [hx]
  exact .window delta _ rfl

/-- CLOSE. -/
theorem delivery_close (hs : py.link.Sound) (hd : py.link.Distinct) (reason : Bytes)
    (hlate : (px.endOf cap wire cut σ).opening = false)
    (hdrained : strict σ → (py.endOf cap wireY cutY σ).live = true →
      (py.endOf cap wireY cutY σ).session.inboxQueue.length
        ≤ if (py.endOf cap wireY cutY σ).app.reader.phase = .waiting then 1 else 0) :
    Delivery (strict sid) (px.endOf cap (.close σ reason :: wire) cut sid) (py.endOf cap wireY cutY sid)
      (aborted sid) (px.endOf cap wire cut sid)
      ((py.setLink (py.link.dispatchFrame now (.close σ reason))).endOf cap wireY cutY sid)
      (aborted sid) := by
  refine delivery_of_method hs hd (g := (·.onPeerClose)) (fun s => rfl) rfl
    (fun h => by simp [Link.dispatchFrame, h]) (fun p h => ?_) ?_
  · simp only [Link.dispatchFrame, h]
    split_ifs
    · exact endOf_eraseSession σ
    · rfl
  · have hx : px.endOf cap (.close σ reason :: wire) cut σ = { px.endOf cap wire cut σ with
        msgs := .fin :: (px.endOf cap wire cut σ).msgs } := by
      rw [endOf_cons]
      simp [msgOf, grantOf, opens, isNew]
    rw [hx]
    exact .fin _ rfl (fun _ => hlate) hdrained

/-- RESET. -/
theorem delivery_reset (hs : py.link.Sound) (hd : py.link.Distinct) :
    Delivery (strict sid) (px.endOf cap (.reset σ :: wire) cut sid) (py.endOf cap wireY cutY sid)
      (aborted sid) (px.endOf cap wire cut sid)
      ((py.setLink (py.link.dispatchFrame now (.reset σ))).endOf cap wireY cutY sid)
      (Net.abortedByFrame py.link aborted (.reset σ) sid) := by
  rw [endOf_cons_other (by simp [concern])]
  simp only [Net.abortedByFrame, Link.dispatchFrame]
  cases hf : py.link.findSession σ with
  | none =>
    simp only [Option.isSome_none, Bool.false_eq_true, and_false, decide_false, Bool.or_false]
    exact .other
  | some p =>
    obtain ⟨s, hp, rfl, -, hses, hlive⟩ := @live_of_findSession py cap wireY cutY σ hs hd p hf
    rw [endOf_eraseSession, endOf_modify hd hp rfl]
    split_ifs with h
    · subst h
      have hreset : Delivery (strict s.sid) (px.endOf cap wire cut s.sid) _ (aborted s.sid) _ _ true :=
        .reset hlive
      rw [hses] at hreset
      simpa using hreset
    · simpa [h] using Delivery.other

/-- What `accept` does to the ends of its link. -/
theorem endOf_accept (hd : py.link.Distinct) (hnone : py.link.object σ = none) (target : Address) :
    (py.setLink (py.link.accept σ target cap .tcp)).endOf cap wireY cutY sid = if sid = σ
      then { py.endOf cap wireY cutY sid with
        present := true
        session := { (py.endOf cap wireY cutY sid).session with target := target } }
      else py.endOf cap wireY cutY sid := by
  have hobj := hd.object_emplace
    (s := .new σ target cap py.link.opts.initWindow .tcp) hnone sid
  -- the ACK and the hand-over to the handler are not part of an end
  have hend : (py.setLink (py.link.accept σ target cap .tcp)).endOf cap wireY cutY sid
      = (py.setLink (py.link.emplace (.new σ target cap py.link.opts.initWindow .tcp))).endOf cap
        wireY cutY sid := by
    refine Eq.trans ?_ (endOf_enqueue_other (f := .ack σ) (by simp [concern]))
    exact endOf_congr rfl rfl rfl rfl rfl
  rw [hend]
  split_ifs with h
  · subst h
    rw [show (Session.new sid target cap py.link.opts.initWindow .tcp).sid = sid from rfl,
      if_pos rfl] at hobj
    simp only [endOf, session, setLink, hobj, hnone, Option.getD_some, Option.getD_none]
    rfl
  · rw [show (Session.new σ target cap py.link.opts.initWindow .tcp).sid = σ from rfl,
      if_neg h] at hobj
    exact endOf_congr hobj rfl rfl rfl rfl

/-- NEW. -/
theorem delivery_new (hd : py.link.Distinct) (hnone : py.link.object σ = none)
    (hhandler : py.link.onNewSession = true) (addrBlob : Bytes)
    (hlate : (px.endOf cap wire cut σ).opening = false) :
    Delivery (strict sid) (px.endOf cap (.new σ addrBlob cap :: wire) cut sid)
      (py.endOf cap wireY cutY sid) (aborted sid) (px.endOf cap wire cut sid)
      ((py.setLink (py.link.dispatchFrame now (.new σ addrBlob cap))).endOf cap wireY cutY sid)
      (Net.abortedByFrame py.link aborted (.new σ addrBlob cap) sid) := by
  have hx : px.endOf cap wire cut σ
      = { px.endOf cap (.new σ addrBlob cap :: wire) cut σ with opening := false } := by
    rw [endOf_cons, ← hlate]
    simp [msgOf, grantOf]
  have hopening : (px.endOf cap (.new σ addrBlob cap :: wire) cut σ).opening = true := by
    rw [endOf_cons]
    simp [opens, isNew, concern]
  have habsent : (py.endOf cap wireY cutY σ).present = false := by simp [endOf, hnone]
  simp only [Link.dispatchFrame, hhandler, Bool.not_true, Bool.false_eq_true, if_false,
    Net.abortedByFrame, Link.frameInserts, Bool.true_and]
  cases hparse : Address.parseBinary addrBlob with
  | error e =>
    simp only [Except.isOk, Except.toBool, Bool.false_eq_true, if_false, and_true]
    rw [endOf_enqueue_other (by simp [concern]), setLink_self]
    by_cases h : sid = σ
    · subst h
      rw [hx]
      simpa using Delivery.refused hopening habsent
    · rw [endOf_cons_other (by simpa [concern] using Ne.symm h)]
      simpa [h] using Delivery.other
  | ok target =>
    simp only [Except.isOk, Except.toBool, if_true, reduceCtorEq, and_false, decide_false,
      Bool.or_false]
    rw [endOf_accept hd hnone]
    split_ifs with h
    · subst h
      rw [hx]
      refine .opened target hopening habsent ?_
      simp [endOf, session, hnone, Session.new, Session.inboxClosed, SessionIo.inboxClosed, Chan.new]
    · rw [endOf_cons_other (by simpa [concern] using Ne.symm h)]
      exact .other

/-- **Dispatching a frame** of the other link. -/
theorem dispatch_delivery {z : Side} (hs : py.link.Sound) (hd : py.link.Distinct)
    (hown : px.link.Owns z cap f) (hhandler : z = .client → py.link.onNewSession = true)
    (hunopened : ∀ sid, f.opens sid = true → py.link.object sid = none)
    (hlate : ∀ sid, f.concern = some sid → (px.endOf cap wire cut sid).opening = false)
    (hdrained : ∀ σ reason, f = .close σ reason → strict σ →
      (py.endOf cap wireY cutY σ).live = true →
      (py.endOf cap wireY cutY σ).session.inboxQueue.length
        ≤ if (py.endOf cap wireY cutY σ).app.reader.phase = .waiting then 1 else 0)
    (sid : UInt64) :
    Delivery (strict sid) (px.endOf cap (f :: wire) cut sid) (py.endOf cap wireY cutY sid)
      (aborted sid) (px.endOf cap wire cut sid)
      ((py.setLink (py.link.dispatchFrame now f)).endOf cap wireY cutY sid)
      (Net.abortedByFrame py.link aborted f sid) := by
  cases f with
  | data σ c => exact delivery_data hs hd c (hlate σ rfl)
  | close σ reason => exact delivery_close hs hd reason (hlate σ rfl) (hdrained σ reason rfl)
  | window σ delta => exact delivery_window hs hd delta
  | reset σ => exact delivery_reset hs hd
  | new σ addrBlob w =>
    obtain ⟨hz, -, rfl⟩ := hown
    exact delivery_new hd (hunopened σ (by simp [opens, isNew, concern])) (hhandler hz) addrBlob
      (hlate σ rfl)
  | newUdp _ | udpData _ _ _ => exact hown.elim
  | ping nonce =>
    refine delivery_of_link (by simp [concern]) ?_ rfl
    exact endOf_enqueue_other (by simp [concern])
  | pong nonce =>
    refine delivery_of_link (by simp [concern]) ?_ rfl
    simp only [Link.dispatchFrame]
    split_ifs
    · exact endOf_congr rfl rfl rfl rfl rfl
    · rfl
  | ack _ | hello _ _ | auth _ | ok | err _ _ =>
    exact delivery_of_link (by simp [concern]) rfl rfl

/-- What the dispatch keeps. A session is created by NEW only. -/
theorem dispatch_evolves {z : Side} (hs : py.link.Sound) (hd : py.link.Distinct)
    (hown : px.link.Owns z cap f) (hunopened : ∀ sid, f.opens sid = true → py.link.object sid = none)
    (z' : Side) : py.link.Evolves z' cap aborted (py.link.dispatchFrame now f) := by
  have hrefl : py.link.Evolves z' cap aborted py.link := .refl hs hd
  cases f with
  | data σ c =>
    simp only [Link.dispatchFrame]
    split
    · exact hrefl
    · rename_i p hf
      obtain ⟨s, hp, -, -⟩ := hs.stored_live σ p hf
      exact hrefl.modify hp (by simp) (by simp)
  | window σ delta =>
    simp only [Link.dispatchFrame]
    split
    · exact hrefl
    · rename_i p hf
      obtain ⟨s, hp, -, -⟩ := hs.stored_live σ p hf
      exact hrefl.modify hp rfl Iff.rfl
  | close σ reason =>
    simp only [Link.dispatchFrame]
    split
    · exact hrefl
    · rename_i p hf
      obtain ⟨s, hp, rfl, hopen⟩ := hs.stored_live σ p hf
      rw [Link.modify_heap_self, hp]
      split_ifs with hclosed
      · exact hrefl.retire hp rfl hopen (Option.some.inj hclosed)
      · exact hrefl.modify hp rfl ⟨fun h => absurd (congrArg some h) hclosed,
          fun h => absurd h hopen⟩
  | reset σ =>
    simp only [Link.dispatchFrame]
    split
    · exact hrefl
    · rename_i p hf
      obtain ⟨s, hp, rfl, hopen⟩ := hs.stored_live σ p hf
      exact hrefl.retire hp rfl hopen rfl
  | new σ addrBlob w =>
    have hnone := hunopened σ (by simp [opens, isNew, concern])
    simp only [Link.dispatchFrame]
    split_ifs
    · exact hrefl
    · split
      · exact hrefl.enqueueFrame trivial rfl
      · rename_i target _
        have hfree : py.link.sessions σ = none := by
          cases hf : py.link.sessions σ with
          | none => rfl
          | some p =>
            obtain ⟨s, hp, hsid, -⟩ := hs.stored_live σ p hf
            exact absurd hsid (hd.object_eq_none.mp hnone p s hp)
        have hemplace : py.link.Evolves z' cap aborted
            (py.link.emplace (.new σ target w py.link.opts.initWindow .tcp)) :=
          hrefl.trans_of_eq (hs.emplace hfree Session.new_ne_closed) (hd.emplace hnone) rfl rfl rfl rfl rfl
        have hack := hemplace.enqueueFrame (f := .ack σ) trivial rfl
        exact hack.trans_of_eq (hack.sound.congr rfl rfl rfl) (hack.distinct.congr rfl rfl)
          rfl rfl rfl rfl rfl
  | newUdp _ | udpData _ _ _ => exact hown.elim
  | ping nonce => exact hrefl.enqueueFrame trivial rfl
  | pong nonce =>
    simp only [Link.dispatchFrame]
    split_ifs
    · exact hrefl.trans_of_eq (hs.congr rfl rfl rfl) (hd.congr rfl rfl) rfl rfl rfl rfl rfl
    · exact hrefl
  | ack _ | hello _ _ | auth _ | ok | err _ _ => exact hrefl

end Delivery

end Peer

end Shine
