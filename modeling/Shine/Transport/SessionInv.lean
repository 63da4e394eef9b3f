import Shine.Transport.Streams

/-!
# The invariant of one session between two links

`SessInv` holds of the two ends of a session as long as the session exists: the
invariants of its two streams, and what ties the two ends together — the server's
session object is created by the client's NEW, and a session that was torn down shows
it at one of its ends. A step of either link (`SessInv.acted`), the dispatch of a frame
(`SessInv.delivery`), the loss of what is on the connection (`SessInv.cut`) and the
opening of the session (`SessInv.opened`) keep it.
-/

namespace Shine

/-- The receive window that a side is configured with. -/
def Side.window (cap server : UInt32) : Side → UInt32
  | .client => cap
  | .server => server

namespace End

/-! ## Frame conditions -/

section Frames

variable {e e' x y x' y' : End} {l l' : Bool} {strict : Prop}

/-- What a step of one end leaves alone. -/
structure Acted.Frame (e : End) (l : Bool) (e' : End) (l' : Bool) : Prop where
  opening : e'.opening = e.opening
  cut : e'.cut = e.cut
  lossy : l = true → l' = true
  closed : e'.closed = true → e.closed = true ∨ l' = true

theorem Move.frame (h : Move e l e' l') : Acted.Frame e l e' l' := by
  cases h with
  | send_chunk _ _ _ _ => rw [push_eq]; exact ⟨rfl, rfl, id, .inl⟩
  | shut_opened _ _ _ => rw [push_eq]; exact ⟨rfl, rfl, id, .inl⟩
  | shut_remote _ _ _ => rw [push_eq]; exact ⟨rfl, rfl, id, .inl⟩
  | posted _ => rw [push_eq]; exact ⟨rfl, rfl, id, .inl⟩
  | send_window _ _ => rw [pushGrant_eq]; exact ⟨rfl, rfl, id, .inl⟩
  | close => exact ⟨rfl, rfl, fun _ => rfl, .inl⟩
  | fail => exact ⟨rfl, rfl, fun _ => rfl, fun _ => .inr rfl⟩
  | _ => exact ⟨rfl, rfl, id, .inl⟩

theorem Acted.frame (h : Acted e l e' l') : Acted.Frame e l e' l' := by
  cases h with
  | same => exact ⟨rfl, rfl, id, .inl⟩
  | move _ h => exact h.frame
  | stopped => exact ⟨rfl, rfl, fun _ => rfl, fun _ => .inr rfl⟩

/-- An end that does not exist stays as it would be created. -/
theorem Acted.session_eq (h : Acted e l e' l') (hp : e.present = false) :
    e'.session = e.session := by
  cases h with
  | move hpresent _ => exact Flow.clash hpresent hp
  | _ => rfl

/-- What the dispatch of a frame does to the sending end: it takes the frame. -/
structure Delivery.Frame (x : End) (l : Bool) (x' : End) (l' : Bool) : Prop where
  present : x'.present = x.present
  session : x'.session = x.session
  app : x'.app = x.app
  closed : x'.closed = x.closed
  cut : x'.cut = x.cut
  opening : x'.opening = true → x.opening = true
  lossy : l = true → l' = true

theorem Delivery.frame (h : Delivery strict x y l x' y' l') : Delivery.Frame x l x' l' := by
  cases h with
  | reset _ => exact ⟨rfl, rfl, rfl, rfl, rfl, id, fun _ => rfl⟩
  | refused _ _ => exact ⟨rfl, rfl, rfl, rfl, rfl, nofun, fun _ => rfl⟩
  | opened _ _ _ _ => exact ⟨rfl, rfl, rfl, rfl, rfl, nofun, id⟩
  | _ => exact ⟨rfl, rfl, rfl, rfl, rfl, id, id⟩

/-- What it leaves alone at the receiving end. -/
structure Delivery.Target (y y' : End) : Prop where
  app : y'.app = y.app
  closed : y'.closed = y.closed
  cut : y'.cut = y.cut
  opening : y'.opening = y.opening
  ended : y.session.state = .closed → y'.session.state = .closed

theorem onSession_target (f : Session → Session)
    (hf : y.live = true → y.session.state = .closed → (f y.session).state = .closed) :
    Delivery.Target y (y.onSession f) := by
  cases hlive : y.live with
  | true =>
    rw [onSession_of_live hlive]
    exact ⟨rfl, rfl, rfl, rfl, hf hlive⟩
  | false =>
    rw [onSession_of_not_live hlive]
    exact ⟨rfl, rfl, rfl, rfl, id⟩

theorem Delivery.target (h : Delivery strict x y l x' y' l') : Delivery.Target y y' := by
  cases h with
  | other => exact ⟨rfl, rfl, rfl, rfl, id⟩
  | data c r _ _ => exact onSession_target _ fun _ h => (Session.onData_state ..).trans h
  | fin r _ _ _ =>
    exact onSession_target _ fun hlive h => absurd h (present_of_live hlive).2
  | window delta r _ => exact onSession_target _ fun _ h => h
  | reset _ => exact ⟨rfl, rfl, rfl, rfl, fun _ => rfl⟩
  | opened target _ _ _ => exact ⟨rfl, rfl, rfl, rfl, id⟩
  | refused _ _ => exact ⟨rfl, rfl, rfl, rfl, id⟩

theorem onSession_present (f : Session → Session) : (y.onSession f).present = y.present := by
  unfold onSession
  split_ifs <;> rfl

/-- Only an accepted NEW creates the session object. -/
theorem Delivery.present (h : Delivery strict x y l x' y' l') :
    y'.present = y.present ∨
      y.present = false ∧ y'.present = true ∧ x.opening = true ∧ x'.opening = false := by
  cases h with
  | data c r _ _ | fin r _ _ _ | window delta r _ => exact .inl (onSession_present _)
  | opened target hopening hp _ => exact .inr ⟨hp, rfl, hopening, rfl⟩
  | _ => exact .inl rfl

/-- An end that does not exist yet is left alone. -/
theorem Delivery.absent (h : Delivery strict x y l x' y' l') (hp : y'.present = false) :
    y' = y := by
  have habsent : ∀ f : Session → Session, (y.onSession f).present = false → y.onSession f = y := by
    intro f hf
    rw [onSession_present] at hf
    exact onSession_of_not_live (by simp [live, hf]) f
  cases h with
  | data c r _ _ | fin r _ _ _ | window delta r _ => exact habsent _ hp
  | reset hlive =>
    exact Flow.clash (present_of_live hlive).1 hp
  | opened _ _ _ _ => cases hp
  | _ => rfl

/-- A session that the dispatch tears down shows it. -/
theorem Delivery.torn (h : Delivery strict x y l x' y' l') (hl : l' = true) :
    l = true ∨ (y'.present = true ∧ y'.session.state = .closed) ∨
      (x.opening = true ∧ x'.opening = false ∧ y'.present = false) := by
  cases h with
  | reset hlive => exact .inr (.inl ⟨(present_of_live hlive).1, rfl⟩)
  | refused hopening hp => exact .inr (.inr ⟨hopening, rfl, hp⟩)
  | _ => exact .inl hl

theorem Delivery.ok {w : UInt32} (h : Delivery strict x y l x' y' l') (hok : Ok w y) : Ok w y' := by
  have hmethod : ∀ f : Session → Session, Good w (f y.session) → Ok w (y.onSession f) := by
    intro f hf
    unfold onSession
    split_ifs
    · exact ⟨hf, hok.calls⟩
    · exact hok
  cases h with
  | other => exact hok
  | data c r _ _ => exact hmethod _ (hok.good.onData c)
  | fin r _ _ _ => exact hmethod _ hok.good.onPeerClose
  | window delta r _ => exact hmethod _ (hok.good.onWindow delta)
  | reset _ => exact ⟨hok.good.onReset, hok.calls⟩
  | opened target _ _ _ => exact ⟨hok.good.of_eq rfl rfl rfl rfl, hok.calls⟩
  | refused _ _ => exact hok

end Frames

/-! ## The invariant -/

/-- A session that was torn down shows it: a link is closed or the connection cut, one
of the session objects is closed, or the server never accepted it. -/
def Torn (e : Side → End) : Prop :=
  (∃ z, ((e z).closed || (e z).cut) = true) ∨
    (∃ z, (e z).present = true ∧ (e z).session.state = .closed) ∨
    ((e .client).present = true ∧ (e .server).present = false ∧ (e .client).opening = false)

/-- The invariant of a session that the client, with window `cap`, opens at the server.
`strict x` asks that the CLOSE of `x` finds a reader that keeps up. -/
structure SessInv (cap server : UInt32) (strict : Side → Prop) (e : Side → End) (l : Bool) :
    Prop where
  ok : ∀ z, (e z).Ok (z.window cap server)
  broken : ∀ z, ((e z).closed || (e z).cut) = true → l = true
  unborn : ∀ z, (e z).present = false →
    (e z).app = .init ∧ (e z).session.sendCredit = (cap.toNat : Int)
  born : (e .server).present = true → (e .client).present = true
  opener : (e .server).opening = false
  opening_present : (e .client).opening = true → (e .client).present = true
  unopened : (e .server).present = true → (e .client).opening = false
  torn : l = true → Torn e
  flows : (e .client).present = true → ∀ x, (flowOf (e x) (e x.other) l).Inv cap.toNat
    (x.other.window cap server / 2).toNat (strict x)

variable {cap server : UInt32} {strict : Side → Prop} {e : Side → End} {l l' : Bool} {z : Side}

/-- Two functions on the sides agree if they do at both ends. -/
theorem forall_side {P : Side → Prop} (z : Side) (hz : P z) (hother : P z.other) : ∀ x, P x := by
  intro x
  rcases x.eq_or_other z with rfl | rfl
  · exact hz
  · exact hother

theorem Torn.mono {e' : Side → End} (h : Torn e)
    (hbroken : ∀ z, ((e z).closed || (e z).cut) = true → ((e' z).closed || (e' z).cut) = true)
    (hended : ∀ z, (e z).present = true → (e z).session.state = .closed →
      (e' z).present = true ∧ (e' z).session.state = .closed)
    (hmissing : (e .client).present = true → (e .server).present = false →
      (e .client).opening = false → Torn e') : Torn e' := by
  rcases h with ⟨z, hz⟩ | ⟨z, hp, hst⟩ | ⟨hc, hs, ho⟩
  · exact .inl ⟨z, hbroken z hz⟩
  · exact .inr (.inl ⟨z, hended z hp hst⟩)
  · exact hmissing hc hs ho

variable {e' : Side → End}

/-- **A step of one link** keeps the invariant. -/
theorem SessInv.acted (h : SessInv cap server strict e l) (ha : Acted (e z) l (e' z) l')
    (ho : e' z.other = e z.other) : SessInv cap server strict e' l' := by
  have hframe := ha.frame
  obtain ⟨hended, hclosed, htorn⟩ := ha.closed
  have hpresent : ∀ x, (e' x).present = (e x).present := forall_side z ha.present_eq (by rw [ho])
  have hopening : ∀ x, (e' x).opening = (e x).opening := forall_side z hframe.opening (by rw [ho])
  refine ⟨forall_side z ?_ ?_, forall_side z ?_ ?_, forall_side z ?_ ?_, ?_, ?_, ?_, ?_, ?_, ?_⟩
  · exact ha.ok (h.ok z)
  · rw [ho]
    exact h.ok z.other
  · rw [hframe.cut]
    intro hb
    rcases Bool.or_eq_true _ _ ▸ hb with hc | hc
    · rcases hframe.closed hc with hc | hl
      · exact hframe.lossy (h.broken z (by simp [hc]))
      · exact hl
    · exact hframe.lossy (h.broken z (by simp [hc]))
  · rw [ho]
    exact fun hb => hframe.lossy (h.broken z.other hb)
  · rw [ha.present_eq]
    intro hp
    rw [ha.app_eq hp, ha.session_eq hp]
    exact h.unborn z hp
  · rw [ho]
    exact h.unborn z.other
  · rw [hpresent, hpresent]
    exact h.born
  · rw [hopening]
    exact h.opener
  · rw [hopening, hpresent]
    exact h.opening_present
  · rw [hpresent, hopening]
    exact h.unopened
  · intro hl
    rcases htorn hl with hl | hc | ⟨hp, hst⟩
    · refine (h.torn hl).mono (forall_side z ?_ ?_) (forall_side z ?_ ?_) fun hc hs ho => ?_
      · rw [hframe.cut]
        intro hb
        rcases Bool.or_eq_true _ _ ▸ hb with hc | hc
        · simp [hclosed hc]
        · simp [hc]
      · rw [ho]
        exact id
      · rw [ha.present_eq]
        exact fun hp hst => ⟨hp, hended hst⟩
      · rw [ho]
        exact fun hp hst => ⟨hp, hst⟩
      · exact .inr (.inr ⟨by rw [hpresent, hc], by rw [hpresent, hs], by rw [hopening, ho]⟩)
    · exact .inl ⟨z, by simp [hc]⟩
    · exact .inr (.inl ⟨z, ha.present_eq.trans hp, hst⟩)
  · rw [hpresent]
    intro hc
    have hflows := h.flows hc
    refine forall_side z ?_ ?_
    · rw [ho]
      exact (hflows z).steps (ha.sender _ (hflows z))
    · have hin := hflows z.other
      rw [Side.other_other] at hin ⊢
      rw [ho]
      exact hin.steps (ha.receiver (h.ok z).good (h.broken z) (UInt32.toNat_lt cap) _ hin)

/-- Only the server's session object is created by a frame. -/
theorem SessInv.delivery_present (h : SessInv cap server strict e l)
    (hd : Delivery (strict z.other) (e z.other) (e z) l (e' z.other) (e' z) l') :
    (e' .client).present = (e .client).present ∧
      ((e' .server).present = (e .server).present ∨
        (e .server).present = false ∧ (e .client).opening = true ∧
          (e' .client).opening = false) := by
  cases z with
  | server => exact ⟨hd.frame.present, hd.present.imp_right fun ⟨hp, _, ho⟩ => ⟨hp, ho⟩⟩
  | client =>
    refine ⟨?_, .inl hd.frame.present⟩
    rcases hd.present with hp | ⟨-, -, ho, -⟩
    · exact hp
    · exact Flow.clash ho h.opener

/-- **The dispatch of a frame** at `z` keeps the invariant. -/
theorem SessInv.delivery (h : SessInv cap server strict e l)
    (hd : Delivery (strict z.other) (e z.other) (e z) l (e' z.other) (e' z) l') :
    SessInv cap server strict e' l' := by
  have hframe := hd.frame
  have htarget := hd.target
  obtain ⟨hclient, hserver⟩ := h.delivery_present hd
  have hclosed : ∀ x, (e' x).closed = (e x).closed :=
    forall_side z htarget.closed hframe.closed
  have hcut : ∀ x, (e' x).cut = (e x).cut := forall_side z htarget.cut hframe.cut
  have hopening : ∀ x, (e' x).opening = true → (e x).opening = true :=
    forall_side z (by rw [htarget.opening]; exact id) hframe.opening
  have hkept : ∀ x, (e x).present = true → (e' x).present = true := by
    refine forall_side .client (fun hc => hclient.trans hc) fun hs => ?_
    rcases hserver with hp | ⟨hp, -⟩
    · exact hp.trans hs
    · exact Flow.clash hs hp
  refine ⟨forall_side z ?_ ?_, fun x => ?_, forall_side z ?_ ?_, ?_, ?_, ?_, ?_, ?_, ?_⟩
  · exact hd.ok (h.ok z)
  · exact ⟨hframe.session ▸ (h.ok z.other).good,
      by rw [hframe.closed, hframe.app]; exact (h.ok z.other).calls⟩
  · rw [hclosed, hcut]
    exact fun hb => hframe.lossy (h.broken x hb)
  · intro hp
    have heq := hd.absent hp
    rw [heq] at hp ⊢
    exact h.unborn z hp
  · rw [hframe.present, hframe.app, hframe.session]
    exact h.unborn z.other
  · intro hs
    rw [hclient]
    rcases hserver with hp | ⟨-, ho, -⟩
    · exact h.born (hp ▸ hs)
    · exact h.opening_present ho
  · exact Bool.eq_false_iff.mpr fun ho => Flow.clash (hopening _ ho) h.opener
  · exact fun ho => hclient.trans (h.opening_present (hopening _ ho))
  · intro hs
    rcases hserver with hp | ⟨-, -, ho⟩
    · exact Bool.eq_false_iff.mpr fun ho => Flow.clash (hopening _ ho) (h.unopened (hp ▸ hs))
    · exact ho
  · intro hl
    rcases hd.torn hl with hl | ⟨hp, hst⟩ | ⟨hx, hx', hp⟩
    · refine (h.torn hl).mono (fun x => by rw [hclosed, hcut]; exact id)
        (forall_side z ?_ ?_) fun hc hs ho => ?_
      · exact fun hp hst => ⟨hkept z hp, htarget.ended hst⟩
      · exact fun hp hst => ⟨hkept _ hp, by rw [hframe.session]; exact hst⟩
      · rcases hserver with hp | ⟨-, ho', -⟩
        · exact .inr (.inr ⟨hkept _ hc, hp.trans hs,
            Bool.eq_false_iff.mpr fun ho' => Flow.clash (hopening _ ho') ho⟩)
        · exact Flow.clash ho' ho
    · exact .inr (.inl ⟨z, hp, hst⟩)
    · -- a refused NEW: it came from the client
      cases z with
      | server => exact .inr (.inr ⟨hkept _ (h.opening_present hx), hp, hx'⟩)
      | client => exact Flow.clash hx h.opener
  · rw [hclient]
    intro hc
    have hflows := h.flows hc
    refine forall_side z ?_ ?_
    · refine (hflows z).steps (hd.back ?_ (hflows z))
      exact fun hp => (h.unborn z hp).2
    · have hin := hflows z.other
      rw [Side.other_other] at hin ⊢
      exact hin.steps (hd.toward (h.ok z).good hin)

/-- **Cutting the connection** behind `z` keeps the invariant. -/
theorem SessInv.cut (h : SessInv cap server strict e l) {msgs : List (Msg UInt8)}
    {grants : List Nat} {opening : Bool}
    (hz : e' z = { e z with cut := true, msgs := msgs, grants := grants, opening := opening })
    (ho : e' z.other = e z.other) (hmsgs : msgs <+: (e z).msgs) (hgrants : grants <+: (e z).grants)
    (hopening : opening = true → (e z).opening = true) : SessInv cap server strict e' true := by
  have hpresent : ∀ x, (e' x).present = (e x).present :=
    forall_side z (by rw [hz]) (by rw [ho])
  have hopen : ∀ x, (e' x).opening = true → (e x).opening = true :=
    forall_side z (by rw [hz]; exact hopening) (by rw [ho]; exact id)
  refine ⟨forall_side z ?_ ?_, fun _ _ => rfl, forall_side z ?_ ?_, ?_, ?_, ?_, ?_, ?_, ?_⟩
  · rw [hz]
    exact ⟨(h.ok z).good, (h.ok z).calls⟩
  · rw [ho]
    exact h.ok z.other
  · rw [hz]
    exact h.unborn z
  · rw [ho]
    exact h.unborn z.other
  · rw [hpresent, hpresent]
    exact h.born
  · exact Bool.eq_false_iff.mpr fun ho => Flow.clash (hopen _ ho) h.opener
  · rw [hpresent]
    exact fun ho => h.opening_present (hopen _ ho)
  · rw [hpresent]
    exact fun hs => Bool.eq_false_iff.mpr fun ho => Flow.clash (hopen _ ho) (h.unopened hs)
  · exact fun _ => .inl ⟨z, by rw [hz]; simp⟩
  · rw [hpresent]
    intro hc
    have hflows := h.flows hc
    refine forall_side z ?_ ?_
    · rw [hz, ho]
      exact (hflows z).steps (cut_sender grants hmsgs hopening)
    · have hin := hflows z.other
      rw [Side.other_other] at hin ⊢
      rw [hz, ho]
      exact hin.steps (cut_receiver msgs opening hgrants)

/-- The stream between two ends on which nothing has happened. -/
theorem inv_fresh {x y : End} {sid : UInt64} {tx ty : Address} {wx cy wy : UInt32} {threshold : Nat}
    {strict : Prop} (hx : x.app = .init) (hy : y.app = .init)
    (hsx : x.session = .new sid tx cap wx .tcp) (hsy : y.session = .new sid ty cy wy .tcp)
    (hmsgs : x.msgs = []) (hgrants : y.grants = [])
    (hopening : l = false → y.present = false → x.opening = true)
    (hbroken : (x.closed || x.cut) = true → l = true) :
    (flowOf x y l).Inv cap.toNat threshold strict := by
  have hinit : (Flow.initial cap.toNat : Flow UInt8).Inv cap.toNat threshold strict :=
    Flow.inv_initial ..
  cases l with
  | false =>
    have hopen : x.closed = false ∧ x.cut = false := by
      rw [← Bool.or_eq_false_iff]
      exact Bool.eq_false_iff.mpr fun hb => Bool.false_ne_true (hbroken hb)
    have hflow : flowOf x y false = .initial cap.toNat := by
      cases hp : y.present <;>
        simp [flowOf, Flow.initial, hx, hy, hsx, hsy, hmsgs, hgrants, hp, hopen, hopening rfl,
          App.init, Session.new, Session.writeClosed, Session.inboxQueue, SessionIo.queue,
          Session.unread, Session.inboxClosed, SessionIo.inboxClosed, Chan.new]
    rw [hflow]
    exact hinit
  | true =>
    refine hinit.steps (one_step (.tear (flowOf x y true).accepting (flowOf x y true).stopped
      (flowOf x y true).dead (fun _ => rfl) (fun h => absurd h Bool.false_ne_true)
      (fun h => absurd h Bool.false_ne_true)) ?_)
    simp [flowOf, Flow.initial, hx, hy, hsx, hsy, hmsgs, hgrants,
      App.init, Session.new, Session.inboxQueue, SessionIo.queue, Session.unread, Chan.new]

/-- **Opening the session** at the client. The server's end is as it would be created,
and nothing is under way. -/
theorem SessInv.opened (h : SessInv cap server strict e l) (sid : UInt64) (target ts : Address)
    (habsent : (e .client).present = false)
    (hclient : e' .client = { e .client with
      present := true
      session := .new sid target cap cap .tcp
      opening := !(e .client).cut })
    (hserver : e' .server = e .server)
    (hvirtual : (e .server).session = .new sid ts cap server .tcp)
    (hmsgs : ∀ z, (e z).msgs = []) (hgrants : ∀ z, (e z).grants = []) :
    SessInv cap server strict e' l := by
  have hsabsent : (e .server).present = false := by
    refine Bool.eq_false_iff.mpr fun hs => ?_
    exact Flow.clash (h.born hs) habsent
  have hcapp := (h.unborn .client habsent).1
  have hsapp := (h.unborn .server hsabsent).1
  refine ⟨forall_side .client ?_ ?_, forall_side .client ?_ ?_, forall_side .client ?_ ?_, ?_, ?_,
    ?_, ?_, ?_, ?_⟩
  · rw [hclient]
    exact ⟨good_new .., (h.ok .client).calls⟩
  · exact hserver ▸ h.ok .server
  · rw [hclient]
    exact h.broken .client
  · exact hserver ▸ h.broken .server
  · rw [hclient]
    nofun
  · exact hserver ▸ h.unborn .server
  · rw [hserver, hsabsent]
    nofun
  · exact hserver ▸ h.opener
  · rw [hclient]
    exact fun _ => rfl
  · rw [hserver, hsabsent]
    nofun
  · -- before the session exists, only the link or the connection can be down
    intro hl
    refine (h.torn hl).mono (forall_side .client ?_ ?_) (forall_side .client ?_ ?_) ?_
    · rw [hclient]
      exact id
    · exact hserver ▸ id
    · exact fun hp => Flow.clash hp habsent
    · exact fun hp => Flow.clash hp hsabsent
    · exact fun hp => Flow.clash hp habsent
  · intro _
    refine forall_side .client ?_ ?_
    · rw [hclient, Side.other, hserver]
      refine inv_fresh hcapp hsapp rfl hvirtual (hmsgs .client) (hgrants .server) ?_
        (h.broken .client)
      intro hl _
      have hcut : (e .client).cut = false := by
        refine Bool.eq_false_iff.mpr fun hc => ?_
        exact Flow.clash (h.broken .client (by simp [hc])) hl
      simp [hcut]
    · rw [Side.other, Side.other, hclient, hserver]
      exact inv_fresh hsapp hcapp hvirtual rfl (hmsgs .server) (hgrants .client) nofun
        (h.broken .server)

end End

end Shine
