import Shine.Transport.Streams

/-!
# The pair of links refines its streams

Each direction of each session between the two links is a stream in the sense of
`Lib.CreditFlow`: `Net.endOf` reads the two ends of a session off a state of the
pair, and every event of the pair is a sequence of steps of every stream.

- `Peer.step_move`: a step of one link is a move of the end it is about and leaves
  every other end alone;
- `NetInv`: the invariant of the pair, with the invariants of all its streams.
-/

namespace Shine

/-! ## Frames of a session -/

namespace ShineFrame

/-- The session that a DATA, CLOSE, WINDOW or NEW frame is about. -/
def concern : ShineFrame → Option UInt64
  | .data sid _ | .close sid _ | .window sid _ | .new sid _ _ => some sid
  | _ => none

/-- NEW. -/
def isNew : ShineFrame → Bool
  | .new .. => true
  | _ => false

/-- The message of the stream that a frame carries, for the session `sid`. -/
def msgOf (sid : UInt64) : ShineFrame → Option (Msg UInt8)
  | .data sid' c => if sid' = sid then some (.data c) else none
  | .close sid' _ => if sid' = sid then some .fin else none
  | _ => none

/-- The grant that a frame carries. -/
def grantOf (sid : UInt64) : ShineFrame → Option Nat
  | .window sid' delta => if sid' = sid then some delta.toNat else none
  | _ => none

/-- NEW for the session `sid`. -/
def opens (sid : UInt64) (f : ShineFrame) : Bool := f.isNew && decide (f.concern = some sid)

variable {sid : UInt64} {f : ShineFrame}

theorem msgOf_of_ne (h : f.concern ≠ some sid) : f.msgOf sid = none := by
  cases f <;> simp_all [msgOf, concern]

theorem grantOf_of_ne (h : f.concern ≠ some sid) : f.grantOf sid = none := by
  cases f <;> simp_all [grantOf, concern]

theorem opens_of_ne (h : f.concern ≠ some sid) : f.opens sid = false := by
  simp [opens, h]

end ShineFrame

open ShineFrame End

/-! ## The ends of a session -/

namespace Peer

variable (pe : Peer) (cap : UInt32) (wire : List ShineFrame) (cut : Bool) (sid : UInt64)

/-- What a link has under way. -/
def traffic : List ShineFrame := wire ++ if cut then [] else pe.link.writeChan

/-- The session as the other end takes it to be before it exists. -/
def session : Session :=
  (pe.link.object sid).getD (.new sid .default cap pe.link.opts.initWindow .tcp)

/-- One end of the session `sid`; `cap` is the window of the client. -/
def endOf : End where
  present := (pe.link.object sid).isSome
  session := pe.session cap sid
  app := pe.app sid
  closed := pe.link.closed
  cut := cut
  msgs := (pe.traffic wire cut).filterMap (msgOf sid)
  grants := (pe.traffic wire cut).filterMap (grantOf sid)
  opening := (pe.traffic wire cut).any (opens sid)

variable {pe cap wire cut sid} {p : Nat} {s : Session}

theorem session_of_heap (hd : pe.link.Distinct) (hp : pe.link.heap p = some s) :
    pe.session cap s.sid = s := by
  rw [session, hd.object_of_heap hp, Option.getD_some]

theorem present_of_heap (hd : pe.link.Distinct) (hp : pe.link.heap p = some s) :
    (pe.endOf cap wire cut s.sid).present = true := by
  simp [endOf, hd.object_of_heap hp]

/-- An end is determined by the session object, the application and the traffic. -/
theorem endOf_congr {pe' : Peer} (hobj : pe'.link.object sid = pe.link.object sid)
    (happ : pe'.app sid = pe.app sid) (hclosed : pe'.link.closed = pe.link.closed)
    (hopts : pe'.link.opts = pe.link.opts) (hchan : pe'.link.writeChan = pe.link.writeChan) :
    pe'.endOf cap wire cut sid = pe.endOf cap wire cut sid := by
  simp only [endOf, session, traffic, hobj, happ, hclosed, hopts, hchan]

theorem endOf_setApp (a : App) (sid' : UInt64) :
    (pe.setApp sid' a).endOf cap wire cut sid
      = if sid = sid' then (pe.endOf cap wire cut sid).setApp a else pe.endOf cap wire cut sid := by
  split_ifs with h
  · subst h
    simp [endOf, Peer.setApp, End.setApp, session, traffic]
  · exact endOf_congr rfl (Function.update_of_ne h ..) rfl rfl rfl

/-- A method of the session object at `p`. -/
theorem endOf_modify (hd : pe.link.Distinct) (hp : pe.link.heap p = some s)
    {f : Session → Session} (hsid : (f s).sid = s.sid) :
    (pe.setLink (pe.link.modify p f)).endOf cap wire cut sid = if sid = s.sid
      then (pe.endOf cap wire cut sid).setSession (f s) else pe.endOf cap wire cut sid := by
  have hobj := hd.object_modify hp hsid sid
  split_ifs with h
  · rw [if_pos h] at hobj
    have hsome : (pe.link.object sid).isSome = true := by
      rw [h, hd.object_of_heap hp]
      rfl
    simp [endOf, setLink, setSession, session, hobj, hsome, traffic]
  · rw [if_neg h] at hobj
    exact endOf_congr hobj rfl rfl rfl rfl

/-- Replacing the session object at `p` and its application side. -/
theorem endOf_update (hd : pe.link.Distinct) (hp : pe.link.heap p = some s) {s' : Session}
    (hsid : s'.sid = s.sid) (a : App) :
    (pe.update p s' a).endOf cap wire cut sid = if sid = s.sid
      then ((pe.endOf cap wire cut sid).setSession s').setApp a
      else pe.endOf cap wire cut sid := by
  rw [update, endOf_setApp, endOf_modify hd hp hsid, hsid]
  split_ifs <;> rfl

@[simp] theorem setLink_self : pe.setLink pe.link = pe := rfl
@[simp] theorem setLink_link (l : Link) : (pe.setLink l).link = l := rfl

section Enqueue

variable {l : Link} {f : ShineFrame}

/-- What is under way after a frame has been enqueued. -/
theorem traffic_enqueue : (pe.setLink (l.enqueueFrame f)).traffic wire cut
    = if l.closed || cut then (pe.setLink l).traffic wire cut
      else (pe.setLink l).traffic wire cut ++ [f] := by
  unfold traffic setLink
  simp only [Link.enqueueFrame_writeChan]
  cases hc : l.closed <;> cases cut <;> simp

/-- An enqueued frame is under way, unless the link is closed or the connection cut. -/
theorem endOf_enqueue : (pe.setLink (l.enqueueFrame f)).endOf cap wire cut sid
    = if l.closed || cut then (pe.setLink l).endOf cap wire cut sid
      else { (pe.setLink l).endOf cap wire cut sid with
        msgs := ((pe.setLink l).endOf cap wire cut sid).msgs ++ (f.msgOf sid).toList
        grants := ((pe.setLink l).endOf cap wire cut sid).grants ++ (f.grantOf sid).toList
        opening := ((pe.setLink l).endOf cap wire cut sid).opening || f.opens sid } := by
  simp only [endOf, traffic_enqueue]
  simp only [session, setLink, Link.object_congr (l.enqueueFrame_heap f)
    (l.enqueueFrame_next f), Link.enqueueFrame_closed, Link.enqueueFrame_opts]
  split_ifs
  · rfl
  · simp only [List.filterMap_append, List.any_append, List.any_cons, List.any_nil, Bool.or_false,
      List.filterMap_cons, List.filterMap_nil]
    cases f.msgOf sid <;> cases f.grantOf sid <;> rfl

/-- A frame about another session. -/
theorem endOf_enqueue_other (hf : f.concern ≠ some sid) :
    (pe.setLink (l.enqueueFrame f)).endOf cap wire cut sid
      = (pe.setLink l).endOf cap wire cut sid := by
  rw [endOf_enqueue, msgOf_of_ne hf, grantOf_of_ne hf, opens_of_ne hf]
  simp

/-- A DATA or CLOSE frame. -/
theorem endOf_enqueue_msg {m : Msg UInt8} (hm : f.msgOf sid = some m) :
    (pe.setLink (l.enqueueFrame f)).endOf cap wire cut sid
      = ((pe.setLink l).endOf cap wire cut sid).push m := by
  have hg : f.grantOf sid = none := by cases f <;> simp_all [msgOf, grantOf]
  have ho : f.opens sid = false := by cases f <;> simp_all [msgOf, opens, isNew]
  rw [endOf_enqueue, hm, hg, ho, push]
  simp only [Option.toList_some, Option.toList_none, List.append_nil, Bool.or_false]
  rfl

/-- A WINDOW frame. -/
theorem endOf_enqueue_window (delta : UInt32) :
    (pe.setLink (l.enqueueFrame (.window sid delta))).endOf cap wire cut sid
      = ((pe.setLink l).endOf cap wire cut sid).pushGrant delta.toNat := by
  rw [endOf_enqueue, pushGrant]
  simp only [msgOf, grantOf, opens, isNew, if_true, Option.toList_some, Option.toList_none,
    List.append_nil, Bool.false_and, Bool.or_false]
  rfl

/-- The table is not part of an end. -/
theorem endOf_eraseSession (sid' : UInt64) :
    (pe.setLink (l.eraseSession sid')).endOf cap wire cut sid
      = (pe.setLink l).endOf cap wire cut sid :=
  endOf_congr rfl rfl rfl rfl rfl

end Enqueue

end Peer

/-! ## Steps of one link -/

/-- A frame that a link may have under way: about a session that it has, and NEW only
from the client, with the client's window. -/
def Link.Owns (l : Link) (z : Side) (cap : UInt32) : ShineFrame → Prop
  | .data sid _ | .close sid _ | .window sid _ => (l.object sid).isSome = true
  | .new sid _ w => z = .client ∧ (l.object sid).isSome = true ∧ w = cap
  | .newUdp _ | .udpData .. => False
  | _ => True

/-- A well-formed link with its application and its traffic. -/
structure Peer.Ok (z : Side) (cap window : UInt32) (aborted : UInt64 → Bool)
    (wire : List ShineFrame) (pe : Peer) : Prop where
  sound : pe.link.Sound
  distinct : pe.link.Distinct
  window_eq : pe.link.opts.initWindow = window
  /-- Detached CLOSE frames are about sessions that `close` has torn down. -/
  posted : ∀ f ∈ pe.link.posted, ∃ sid, f = .close sid [] ∧
    (pe.link.object sid).isSome = true ∧ aborted sid = true
  owned : ∀ f ∈ wire ++ pe.link.writeChan, pe.link.Owns z cap f

namespace Peer

section Acted

variable {pe pe' : Peer} {z : Side} {cap window : UInt32} {aborted : UInt64 → Bool}
  {wire : List ShineFrame} {cut : Bool} {sid : UInt64} {p : Nat} {s : Session}

theorem acted_of_eq {e e₁ e' : End} {l : Bool} {c : Prop} [Decidable c]
    (heq : e' = if c then e₁ else e) (hpresent : c → e.present = true) (hmove : c → Move e l e₁ l) :
    Acted e l e' l := by
  rw [heq]
  split_ifs with hc
  · exact .move (hpresent hc) (hmove hc)
  · exact .same

/-- A step that only touches the application side of a session. -/
theorem acted_setApp (hd : pe.link.Distinct) (hp : pe.link.heap p = some s) (a : App)
    (hmove : Move (pe.endOf cap wire cut s.sid) (aborted s.sid)
      ((pe.endOf cap wire cut s.sid).setApp a) (aborted s.sid)) :
    Acted (pe.endOf cap wire cut sid) (aborted sid) ((pe.setApp s.sid a).endOf cap wire cut sid)
      (aborted sid) := by
  refine acted_of_eq (endOf_setApp a s.sid) ?_ ?_
  · rintro rfl
    exact present_of_heap hd hp
  · rintro rfl
    exact hmove

/-- A step that also changes the session object. -/
theorem acted_update (hd : pe.link.Distinct) (hp : pe.link.heap p = some s) {s' : Session}
    (hsid : s'.sid = s.sid) (a : App)
    (hmove : Move (pe.endOf cap wire cut s.sid) (aborted s.sid)
      (((pe.endOf cap wire cut s.sid).setSession s').setApp a) (aborted s.sid)) :
    Acted (pe.endOf cap wire cut sid) (aborted sid) ((pe.update p s' a).endOf cap wire cut sid)
      (aborted sid) := by
  refine acted_of_eq (endOf_update hd hp hsid a) ?_ ?_
  · rintro rfl
    exact present_of_heap hd hp
  · rintro rfl
    exact hmove

/-- A step that enqueues a frame about the session. -/
theorem acted_enqueue (hd : pe.link.Distinct) (hp : pe.link.heap p = some s) {f : ShineFrame}
    (hf : f.concern = some s.sid) (a : App)
    (hmove : Move (pe.endOf cap wire cut s.sid) (aborted s.sid)
      (((pe.setLink (pe.link.enqueueFrame f)).endOf cap wire cut s.sid).setApp a) (aborted s.sid)) :
    Acted (pe.endOf cap wire cut sid) (aborted sid)
      ((pe.enqueue f s.sid a).endOf cap wire cut sid) (aborted sid) := by
  rw [enqueue, endOf_setApp]
  split_ifs with hsid
  · subst hsid
    exact .move (present_of_heap hd hp) hmove
  · rw [endOf_enqueue_other]
    · exact .same
    · rw [hf]
      exact fun h => hsid (Option.some.inj h).symm

/-- The part of `shutdownWrite` that both of its branches share: a change of state and
a CLOSE behind it. -/
theorem acted_shut (hd : pe.link.Distinct) (hp : pe.link.heap p = some s) (st : SessionState)
    {l : Link} (hl : (pe.setLink l).endOf cap wire cut sid
      = (pe.setLink (pe.link.modify p (·.setState st))).endOf cap wire cut sid)
    (hmove : Move (pe.endOf cap wire cut s.sid) (aborted s.sid)
        (((pe.endOf cap wire cut s.sid).push .fin).setSession (s.setState st)) (aborted s.sid)) :
    Acted (pe.endOf cap wire cut sid) (aborted sid)
      ((pe.setLink (l.enqueueFrame (.close s.sid []))).endOf cap wire cut sid) (aborted sid) := by
  have hmod : (pe.setLink (pe.link.modify p (·.setState st))).endOf cap wire cut sid = _ :=
    endOf_modify hd hp rfl
  by_cases hsid : sid = s.sid
  · subst hsid
    rw [if_pos rfl] at hmod
    refine .move (present_of_heap hd hp) ?_
    rw [endOf_enqueue_msg (m := .fin) (by simp [msgOf]), hl, hmod, push_eq]
    rw [push_eq] at hmove
    exact hmove
  · rw [if_neg hsid] at hmod
    rw [endOf_enqueue_other, hl, hmod]
    · exact .same
    · exact fun h => hsid (Option.some.inj h).symm

/-- `shutdownWrite` on an end whose writer is idle. -/
theorem acted_shutdownWrite (hd : pe.link.Distinct) (hp : pe.link.heap p = some s)
    (hidle : (pe.app s.sid).writer = .idle) :
    Acted (pe.endOf cap wire cut sid) (aborted sid)
      ((pe.setLink (pe.link.shutdownWrite p)).endOf cap wire cut sid) (aborted sid) := by
  have hses : (pe.endOf cap wire cut s.sid).session = s := session_of_heap hd hp
  unfold Link.shutdownWrite
  simp only [hp]
  split_ifs with hclosed
  · exact .same
  have hopen : (pe.endOf cap wire cut s.sid).closed = false := by simpa [endOf] using hclosed
  split
  · rename_i hst
    refine acted_shut hd hp .halfClosedLocal rfl ?_
    have h : Move _ (aborted s.sid) _ _ := .shut_opened hidle hopen ((congrArg _ hses).trans hst)
    rwa [hses] at h
  · rename_i hst
    refine acted_shut hd hp .closed (endOf_eraseSession _) ?_
    have h : Move _ (aborted s.sid) _ _ := .shut_remote hidle hopen ((congrArg _ hses).trans hst)
    rwa [hses] at h
  · exact .same

/-- `close`. -/
theorem acted_close (hd : pe.link.Distinct) (hp : pe.link.heap p = some s) :
    Acted (pe.endOf cap wire cut sid) (aborted sid)
      ((pe.setLink (pe.link.close p)).endOf cap wire cut sid)
      (aborted sid || decide (some s.sid = some sid)) := by
  have hses : (pe.endOf cap wire cut s.sid).session = s := session_of_heap hd hp
  -- in both branches the object ends up closed, with closed channels
  have hend : (pe.setLink (pe.link.close p)).endOf cap wire cut sid = if sid = s.sid
      then (pe.endOf cap wire cut sid).setSession (s.setState .closed).closeChannels
      else pe.endOf cap wire cut sid := by
    rw [← endOf_modify hd hp (f := fun s => (s.setState .closed).closeChannels) rfl]
    unfold Link.close
    simp only [hp]
    split_ifs with hst
    · refine endOf_congr (Link.object_congr ?_ ?_) rfl ?_ ?_ ?_
      · funext q
        simp [setLink, Link.modify_heap]
        split_ifs <;> simp [hp]
      all_goals simp [setLink]
    · refine endOf_congr (Link.object_congr ?_ rfl) rfl rfl rfl rfl
      funext q
      have hst : s.setState .closed = s := by rw [Session.setState, ← not_not.mp hst]
      simp [setLink, Link.modify_heap]
      split_ifs <;> simp [hp, hst]
  rw [hend]
  split_ifs with hsid
  · subst hsid
    have h : Move (pe.endOf cap wire cut s.sid) (aborted s.sid) _ true := .close
    rw [hses] at h
    simpa using Acted.move (present_of_heap hd hp) h
  · have hne : ¬ some s.sid = some sid := fun h => hsid (Option.some.inj h).symm
    simpa [hne] using Acted.same

/-- The detached CLOSE of a `close` is enqueued. -/
theorem acted_runPosted (hok : pe.Ok z cap window aborted wire) {l : Link}
    (h : pe.link.runPosted = some l) :
    Acted (pe.endOf cap wire cut sid) (aborted sid) ((pe.setLink l).endOf cap wire cut sid)
      (aborted sid) := by
  unfold Link.runPosted at h
  split at h
  · cases h
  · rename_i f rest hposted
    cases h
    obtain ⟨sid', rfl, hsome, hab⟩ := hok.posted f (by simp [hposted])
    have hend : (pe.setLink { pe.link with posted := rest }).endOf cap wire cut sid
        = pe.endOf cap wire cut sid := endOf_congr rfl rfl rfl rfl rfl
    by_cases hsid : sid' = sid
    · subst hsid
      rw [endOf_enqueue_msg (m := .fin) (by simp [msgOf]), hend]
      exact .move hsome (.posted hab)
    · rw [endOf_enqueue_other, hend]
      · exact .same
      · exact fun h => hsid (Option.some.inj h)

/-- `failLink`. -/
theorem acted_failLink (hok : pe.Ok z cap window aborted wire)
    (hbroken : pe.link.closed = true → aborted sid = true) :
    Acted (pe.endOf cap wire cut sid) (aborted sid)
      ((pe.setLink pe.link.failLink).endOf cap wire cut sid) true := by
  unfold Link.failLink
  split_ifs with hclosed
  · rw [setLink_self, hbroken hclosed]
    exact .same
  have hsound : pe.link.closeNow.Sound := hok.sound.congr rfl rfl rfl
  have hdistinct : pe.link.closeNow.Distinct := hok.distinct.congr rfl rfl
  have hobj : pe.link.closeNow.resetAll.object sid
      = (pe.link.object sid).map fun s => if s.state = .closed then s else s.onReset :=
    hdistinct.object_resetAll hsound sid
  show Acted _ _ ((pe.setLink pe.link.closeNow.resetAll).endOf cap wire cut sid) true
  cases ho : pe.link.object sid with
  | none =>
    have hend : (pe.setLink pe.link.closeNow.resetAll).endOf cap wire cut sid
        = { pe.endOf cap wire cut sid with closed := true } := by
      simp only [endOf, session, setLink, hobj, ho, Option.map_none]
      rfl
    rw [hend]
    exact .stopped
  | some s =>
    refine .move (by simp [endOf, ho]) ?_
    have hend : (pe.setLink pe.link.closeNow.resetAll).endOf cap wire cut sid
        = { pe.endOf cap wire cut sid with
            closed := true
            session := if (pe.endOf cap wire cut sid).session.state = .closed
              then (pe.endOf cap wire cut sid).session
              else (pe.endOf cap wire cut sid).session.onReset } := by
      simp only [endOf, session, setLink, hobj, ho, Option.map_some, Option.getD_some]
      rfl
    rw [hend]
    exact .fail

/-- **A step of one link** acts on each of its ends by itself. -/
theorem step_acted {act : LocalAct} (hok : pe.Ok z cap window aborted wire)
    (h : pe.step act = some pe') (hact : ∀ sid target, act ≠ .openSession sid target)
    (hbroken : pe.link.closed = true → aborted sid = true) :
    Acted (pe.endOf cap wire cut sid) (aborted sid) (pe'.endOf cap wire cut sid)
      (Net.abortedBy pe aborted act sid) := by
  have hd := hok.distinct
  cases htarget : act.target with
  | none =>
    cases act with
    | openSession sid' target => exact absurd rfl (hact sid' target)
    | runPosted =>
      obtain ⟨l, hl, rfl⟩ := Option.map_eq_some_iff.mp h
      exact acted_runPosted hok hl
    | control f =>
      simp only [step, LocalAct.target] at h
      split_ifs at h with hf
      cases h
      rw [endOf_enqueue_other]
      · exact .same
      · cases f <;> simp_all [isControl, concern]
    | failLink =>
      cases h
      exact acted_failLink hok hbroken
    | closeNow =>
      cases h
      exact .stopped
    | _ => cases htarget
  | some p =>
    obtain ⟨s, hp, hpiece⟩ := piece_of_step h htarget
    have hses : (pe.endOf cap wire cut s.sid).session = s := session_of_heap hd hp
    cases hpiece with
    | write_refused data hc => exact acted_setApp hd hp _ (.write_refused data (hses.symm ▸ hc))
    | write_accepted data hw hc =>
      have hc' : pe.link.closed = false ∧ s.writeClosed = false := by simpa using hc
      exact acted_setApp hd hp _ (.write_accepted data hw hc'.1 ((congrArg _ hses).trans hc'.2))
    | takeChunk data rest n hw hn hpos =>
      refine acted_update hd hp (show (s.takeCredit _).sid = s.sid from rfl) _ ?_
      have hm : Move _ (aborted s.sid) _ _ :=
        .take_chunk (e := pe.endOf cap wire cut s.sid) data rest n hw hpos ?_ ?_
      · rwa [hses] at hm
      · exact hn ▸ Nat.le_trans (Nat.min_le_left ..) (Nat.min_le_left ..)
      · rw [hses, hn]
        exact Nat.min_le_right ..
    | sendChunk data rest chunk hw =>
      refine acted_enqueue hd hp rfl _ ?_
      rw [endOf_enqueue_msg (m := .data chunk) (by simp [msgOf])]
      exact .send_chunk data rest chunk hw
    | abortWrite data rest hw hc => exact acted_setApp hd hp _ (.abort_write data rest hw hc)
    | shutdownWrite hw => exact acted_shutdownWrite hd hp hw
    | close =>
      simp only [Net.abortedBy, hp, Option.map_some]
      exact acted_close hd hp
    | read_bytes n out s' hr hs =>
      have hsid := (Session.readStart_bytes hs).2.2.2.2.2.2.2.1
      exact acted_update hd hp hsid _ (.read_bytes n out s' hr (hses.symm ▸ hs))
    | read_eof n hr hs => exact acted_setApp hd hp _ (.read_eof n hr (hses.symm ▸ hs))
    | read_wait n hr hs => exact acted_setApp hd hp _ (.read_wait n hr (hses.symm ▸ hs))
    | receive_bytes n out s' hr hs =>
      obtain ⟨_, _, -, -, -, -, -, -, -, -, -, hsid, -⟩ := Session.receive_bytes hs
      exact acted_update hd hp hsid _ (.receive_bytes n out s' hr (hses.symm ▸ hs))
    | receive_eof n hr hs => exact acted_setApp hd hp _ (.receive_eof n hr (hses.symm ▸ hs))
    | check_closed hr hc => exact acted_setApp hd hp _ (.check_closed hr hc)
    | check_not_due s' hr hs =>
      exact acted_setApp hd hp _ (.check_not_due s' hr (hses.symm ▸ hs))
    | check_due delta s' hr hs =>
      have hsid : s'.sid = s.sid := by rw [(Session.takeWindow_some hs).2.2]
      exact acted_update hd hp hsid _ (.check_due delta s' hr (hses.symm ▸ hs))
    | sendWindow delta hr =>
      refine acted_enqueue hd hp rfl _ ?_
      rw [endOf_enqueue_window]
      exact .send_window delta hr

end Acted

end Peer

/-! ## What a step of one link keeps -/

/-- What a step of a link does apart from changing session objects in place: it
enqueues frames that the link owns and spawns CLOSE frames of sessions that it tears
down, and if it closes the link, it tears down all of them. -/
structure Link.Evolves (l : Link) (z : Side) (cap : UInt32) (aborted : UInt64 → Bool)
    (l' : Link) : Prop where
  sound : l'.Sound
  distinct : l'.Distinct
  opts_eq : l'.opts = l.opts
  handler_eq : l'.onNewSession = l.onNewSession
  posted : ∀ f ∈ l'.posted, f ∈ l.posted ∨
    ∃ sid, f = .close sid [] ∧ (l.object sid).isSome = true ∧ aborted sid = true
  closed : l'.closed = true → l.closed = true ∨ ∀ sid, aborted sid = true
  writeChan : ∃ gs, l'.writeChan = l.writeChan ++ gs ∧ ∀ g ∈ gs, l.Owns z cap g ∧ g.isNew = false

namespace Link

variable {l l' : Link} {z : Side} {cap : UInt32} {aborted : UInt64 → Bool} {p : Nat} {s : Session}

theorem Evolves.refl (hs : l.Sound) (hd : l.Distinct) : l.Evolves z cap aborted l :=
  ⟨hs, hd, rfl, rfl, fun _ => .inl, .inl, [], by simp, nofun⟩

/-- Further changes that leave the queues alone. -/
theorem Evolves.trans_of_eq (h : l.Evolves z cap aborted l') {l'' : Link} (hs : l''.Sound)
    (hd : l''.Distinct) (hopts : l''.opts = l'.opts) (hhandler : l''.onNewSession = l'.onNewSession)
    (hposted : l''.posted = l'.posted) (hclosed : l''.closed = l'.closed)
    (hchan : l''.writeChan = l'.writeChan) : l.Evolves z cap aborted l'' :=
  ⟨hs, hd, hopts.trans h.opts_eq, hhandler.trans h.handler_eq, hposted ▸ h.posted,
    hclosed ▸ h.closed, hchan ▸ h.writeChan⟩

theorem Evolves.modify (h : l.Evolves z cap aborted l') {f : Session → Session}
    (hp : l'.heap p = some s) (hsid : (f s).sid = s.sid)
    (hstate : (f s).state = .closed ↔ s.state = .closed) :
    l.Evolves z cap aborted (l'.modify p f) := by
  have hsid' : ∀ t, l'.heap p = some t → (f t).sid = t.sid := by
    rintro t ht
    rw [hp] at ht
    cases ht
    exact hsid
  refine h.trans_of_eq (h.sound.modify p f hsid' ?_) (h.distinct.modify hsid') rfl rfl rfl rfl rfl
  rintro t ht
  rw [hp] at ht
  cases ht
  exact hstate

/-- Closing a live session and removing it from the table. -/
theorem Evolves.retire (h : l.Evolves z cap aborted l') {f : Session → Session}
    (hp : l'.heap p = some s) (hsid : (f s).sid = s.sid) (hopen : s.state ≠ .closed)
    (hclosed : (f s).state = .closed) :
    l.Evolves z cap aborted ((l'.modify p f).eraseSession s.sid) := by
  refine h.trans_of_eq (h.sound.retire f hp hopen hclosed) ?_ rfl rfl rfl rfl rfl
  refine (h.distinct.modify fun t ht => ?_).congr rfl rfl
  rw [hp] at ht
  cases ht
  exact hsid

theorem Evolves.enqueueFrame (h : l.Evolves z cap aborted l') {f : ShineFrame}
    (hf : l.Owns z cap f) (hnew : f.isNew = false) :
    l.Evolves z cap aborted (l'.enqueueFrame f) where
  sound := h.sound.enqueueFrame f
  distinct := h.distinct.congr (by simp) (by simp)
  opts_eq := by simp [h.opts_eq]
  handler_eq := by simp [h.handler_eq]
  posted := by simpa using h.posted
  closed := by simpa using h.closed
  writeChan := by
    obtain ⟨gs, hgs, hown⟩ := h.writeChan
    rw [enqueueFrame_writeChan]
    split_ifs
    · exact ⟨gs, hgs, hown⟩
    · refine ⟨gs ++ [f], by rw [hgs, List.append_assoc], fun g hg => ?_⟩
      rcases List.mem_append.mp hg with hg | hg
      · exact hown g hg
      · rw [List.mem_singleton.mp hg]
        exact ⟨hf, hnew⟩

theorem Evolves.spawnEnqueue (h : l.Evolves z cap aborted l') {sid : UInt64}
    (hsome : (l.object sid).isSome = true) (hab : aborted sid = true) :
    l.Evolves z cap aborted (l'.spawnEnqueue (.close sid [])) where
  sound := h.sound.congr (by simp) (by simp) (by simp)
  distinct := h.distinct.congr (by simp) (by simp)
  opts_eq := by simp [h.opts_eq]
  handler_eq := by simp [h.handler_eq]
  posted g hg := by
    rw [spawnEnqueue_posted] at hg
    split_ifs at hg
    · exact h.posted g hg
    · rcases List.mem_append.mp hg with hg | hg
      · exact h.posted g hg
      · exact .inr ⟨sid, List.mem_singleton.mp hg, hsome, hab⟩
  closed := by simpa using h.closed
  writeChan := by simpa using h.writeChan

theorem Evolves.shutdownWrite (hs : l.Sound) (hd : l.Distinct) (hp : l.heap p = some s) :
    l.Evolves z cap aborted (l.shutdownWrite p) := by
  have hown : l.Owns z cap (.close s.sid []) := by simp [Owns, hd.object_of_heap hp]
  have hrefl : l.Evolves z cap aborted l := .refl hs hd
  unfold Link.shutdownWrite
  simp only [hp]
  split_ifs
  · exact hrefl
  · split
    · rename_i hst
      exact (hrefl.modify hp rfl (by simp [hst])).enqueueFrame hown rfl
    · rename_i hst
      exact (hrefl.retire hp rfl (by simp [hst]) rfl).enqueueFrame hown rfl
    · exact hrefl

theorem eraseSession_spawnEnqueue (sid : UInt64) (f : ShineFrame) :
    (l.spawnEnqueue f).eraseSession sid = (l.eraseSession sid).spawnEnqueue f := by
  unfold Link.spawnEnqueue eraseSession
  split_ifs <;> rfl

theorem Evolves.close (hs : l.Sound) (hd : l.Distinct) (hp : l.heap p = some s)
    (hab : aborted s.sid = true) : l.Evolves z cap aborted (l.close p) := by
  have hsome : (l.object s.sid).isSome = true := by simp [hd.object_of_heap hp]
  have hrefl : l.Evolves z cap aborted l := .refl hs hd
  unfold Link.close
  simp only [hp]
  split_ifs with hst
  · have hret := (hrefl.retire (f := (·.setState .closed)) hp rfl hst rfl).spawnEnqueue hsome hab
    rw [eraseSession_spawnEnqueue]
    refine hret.modify (s := s.setState .closed) ?_ rfl Iff.rfl
    simp [hp]
  · exact hrefl.modify hp rfl Iff.rfl

theorem Evolves.runPosted (hs : l.Sound) (hd : l.Distinct) (h : l.runPosted = some l')
    (hposted : ∀ f ∈ l.posted, l.Owns z cap f ∧ f.isNew = false) :
    l.Evolves z cap aborted l' := by
  unfold Link.runPosted at h
  split at h
  · cases h
  · rename_i f rest hf
    cases h
    have hmem : f ∈ l.posted := by simp [hf]
    have hrest : l.Evolves z cap aborted { l with posted := rest } :=
      ⟨hs.congr rfl rfl rfl, hd.congr rfl rfl, rfl, rfl,
        fun g hg => .inl (by rw [hf]; exact List.mem_cons_of_mem _ hg), .inl, [], by simp,
        nofun⟩
    exact hrest.enqueueFrame (hposted f hmem).1 (hposted f hmem).2

theorem Evolves.closeNow (hs : l.Sound) (hd : l.Distinct) (hab : ∀ sid, aborted sid = true) :
    l.Evolves z cap aborted l.closeNow :=
  ⟨hs.congr rfl rfl rfl, hd.congr rfl rfl, rfl, rfl, fun _ => .inl, fun _ => .inr hab,
    [], by simp [Link.closeNow], nofun⟩

theorem Sound.resetAll (hs : l.Sound) : l.resetAll.Sound where
  live_stored q s hq hopen := by
    rw [resetAll_heap] at hq
    obtain ⟨t, ht, rfl⟩ := Option.map_eq_some_iff.mp hq
    split_ifs at hopen with hstored
    · exact absurd rfl hopen
    · exact absurd (hs.live_stored q t ht hopen) hstored
  stored_live _ _ h := nomatch h
  unused q hq := by
    rw [resetAll_heap, hs.unused q hq]
    rfl

theorem Evolves.failLink (hs : l.Sound) (hd : l.Distinct) (hab : ∀ sid, aborted sid = true) :
    l.Evolves z cap aborted l.failLink := by
  unfold Link.failLink
  split_ifs
  · exact .refl hs hd
  · have hclose : l.Evolves z cap aborted l.closeNow := .closeNow hs hd hab
    refine hclose.trans_of_eq hclose.sound.resetAll ?_ rfl rfl rfl rfl rfl
    exact hclose.distinct.of_map (fun q s => if l.sessions s.sid = some q then s.onReset else s)
      (fun _ => rfl) rfl fun q s _ => by split_ifs <;> rfl

end Link

namespace Peer

variable {pe pe' : Peer} {z : Side} {cap window : UInt32} {aborted aborted' : UInt64 → Bool}
  {wire : List ShineFrame} {cut : Bool}

/-- Detached CLOSE frames are owned. -/
theorem Ok.owns_posted (hok : pe.Ok z cap window aborted wire) :
    ∀ f ∈ pe.link.posted, pe.link.Owns z cap f ∧ f.isNew = false := by
  intro f hf
  obtain ⟨sid, rfl, hsome, -⟩ := hok.posted f hf
  exact ⟨hsome, rfl⟩

theorem step_evolves {act : LocalAct} (hok : pe.Ok z cap window aborted wire)
    (h : pe.step act = some pe') (hact : ∀ sid target, act ≠ .openSession sid target) :
    pe.link.Evolves z cap (Net.abortedBy pe aborted act) pe'.link := by
  have hs := hok.sound
  have hd := hok.distinct
  have hrefl : ∀ ab, pe.link.Evolves z cap ab pe.link := fun _ => .refl hs hd
  cases htarget : act.target with
  | none =>
    cases act with
    | openSession sid' target => exact absurd rfl (hact sid' target)
    | runPosted =>
      obtain ⟨l, hl, rfl⟩ := Option.map_eq_some_iff.mp h
      exact .runPosted hs hd hl hok.owns_posted
    | control f =>
      simp only [step, LocalAct.target] at h
      split_ifs at h with hf
      cases h
      refine (hrefl _).enqueueFrame ?_ ?_
      · cases f <;> simp_all [isControl, Link.Owns]
      · cases f <;> simp_all [isControl, isNew]
    | failLink =>
      cases h
      exact .failLink hs hd fun _ => rfl
    | closeNow =>
      cases h
      exact .closeNow hs hd fun _ => rfl
    | _ => cases htarget
  | some p =>
    obtain ⟨s, hp, hpiece⟩ := piece_of_step h htarget
    have hdata : (pe.link.object s.sid).isSome = true := by simp [hd.object_of_heap hp]
    cases hpiece with
    | shutdownWrite => exact .shutdownWrite hs hd hp
    | close => exact .close hs hd hp (by simp [Net.abortedBy, hp])
    | takeChunk => exact (hrefl _).modify hp rfl Iff.rfl
    | sendChunk | sendWindow => exact (hrefl _).enqueueFrame hdata rfl
    | read_bytes n out s' _ hread =>
      obtain ⟨-, -, -, -, -, hst, -, hsid, -⟩ := Session.readStart_bytes hread
      exact (hrefl _).modify hp hsid (by rw [hst])
    | receive_bytes n out s' _ hread =>
      obtain ⟨_, _, -, -, -, -, -, -, -, hst, -, hsid, -⟩ := Session.receive_bytes hread
      exact (hrefl _).modify hp hsid (by rw [hst])
    | check_due delta s' _ hdue =>
      obtain ⟨-, -, rfl⟩ := Session.takeWindow_some hdue
      exact (hrefl _).modify hp rfl Iff.rfl
    | _ => exact hrefl _

end Peer

end Shine
