import Shine.Transport.DuoNode

/-!
# Does `close` tear the session down on both nodes?

`Session::close` sends the same CLOSE frame as `shutdownWrite`, so to the peer it is the end
of one direction only: a session that is Open at the peer becomes HalfClosedRemote, stays in
the table, and a write that waits for credit goes on waiting.

`close_tears_down`: once one end has called `close` and every frame it has sent for the
session has been dispatched, the peer's session is torn down exactly if the peer's own
application has called `close`, or has called `shutdownWrite` and has no write that lacks
credit.
-/

namespace Shine

namespace Duo

/-- Neither link has been closed. -/
def Open (d : Duo) : Prop := ∀ z, (d.node z).link.closed = false

@[simp] theorem setNode_self (d : Duo) (z : Side) (n : Node) : (d.setNode z n).node z = n :=
  Function.update_self ..

@[simp] theorem setNode_other (d : Duo) (z : Side) (n : Node) :
    (d.setNode z n).node z.other = d.node z.other :=
  Function.update_of_ne (Side.other_ne z) ..

/-- A step of one end does not open a link again. -/
theorem Open.before {d : Duo} {z : Side} {n : Node} (h : (d.setNode z n).Open)
    (hz : n.link.closed = false → (d.node z).link.closed = false) : d.Open := by
  intro y
  by_cases hy : y = z
  · subst hy
    exact hz (by simpa using h y)
  · have hkept : (d.setNode z n).node y = d.node y := Function.update_of_ne hy ..
    exact hkept ▸ h y

/-- A NEW that a server accepts. -/
def Opening (sid : UInt64) (f : ShineFrame) : Prop :=
  f = .newUdp sid ∨ ∃ blob win target, f = .new sid blob win ∧
    Address.parseBinary blob = .ok target

/-- A frame that, if it is for the session, neither makes it nor resets it. -/
def Mild (sid : UInt64) (f : ShineFrame) : Prop := f.session = some sid → f.plain = true

/-- How the frames of one end grow: what is new satisfies `F`, and only that and what a
`close` had spawned is added to what is already in order. -/
structure Grows (F : ShineFrame → Prop) (w w' : Served) : Prop where
  sent : w.sent <+: w'.sent
  out : ∃ extra, w'.out = w.out ++ extra ∧ ∀ f ∈ extra, f ∈ w.link.posted ∨ F f
  kept : ∀ f ∈ w.frames, f ∈ w'.frames
  fresh : ∀ f ∈ w'.frames, f ∈ w.frames ∨ F f

namespace Grows

variable {F : ShineFrame → Prop} {w w' : Served}

/-- Frames are put in `write_chan_` and spawned. -/
theorem of_link (hsent : w'.sent = w.sent)
    (hchan : ∃ extra, w'.link.writeChan = w.link.writeChan ++ extra ∧ ∀ f ∈ extra, F f)
    (hposted : ∃ extra, w'.link.posted = w.link.posted ++ extra ∧ ∀ f ∈ extra, F f) :
    Grows F w w' := by
  obtain ⟨extra, hchan, hF⟩ := hchan
  obtain ⟨extra', hposted, hF'⟩ := hposted
  refine ⟨hsent ▸ List.prefix_rfl,
    ⟨extra, by simp [Served.out, hsent, hchan], fun f hf => .inr (hF f hf)⟩, ?_, ?_⟩
  · intro f hf
    simp only [Served.frames, hsent, hchan, hposted, List.mem_append] at hf ⊢
    tauto
  · intro f hf
    simp only [Served.frames, hsent, hchan, hposted, List.mem_append] at hf ⊢
    have := hF f
    have := hF' f
    tauto

/-- The writer puts a frame on the connection. -/
theorem flush {f : ShineFrame} {rest : List ShineFrame} (hchan : w.link.writeChan = f :: rest) :
    Grows F w { w with link := { w.link with writeChan := rest }, sent := w.sent ++ [f] } := by
  refine ⟨List.prefix_append .., ⟨[], by simp [Served.out, hchan], by simp⟩, ?_, ?_⟩ <;>
  · intro g hg
    simp only [Served.frames, hchan, List.mem_append, List.mem_cons, List.not_mem_nil,
      or_false] at hg ⊢
    tauto

/-- A spawned `enqueueFrame` runs. -/
theorem runPosted {f : ShineFrame} {rest : List ShineFrame} (hposted : w.link.posted = f :: rest)
    (hopen : w.link.closed = false) :
    Grows F w (w.setLink ({ w.link with posted := rest }.enqueueFrame f)) := by
  have hchan : ({ w.link with posted := rest }.enqueueFrame f).writeChan
      = w.link.writeChan ++ [f] := by
    simp [Link.enqueueFrame_writeChan, hopen]
  refine ⟨List.prefix_rfl, ⟨[f], by simp [Served.out, hchan], ?_⟩, ?_, ?_⟩
  · intro g hg
    rw [List.mem_singleton.mp hg, hposted]
    exact .inl List.mem_cons_self
  all_goals
    intro g hg
    simp only [Served.frames, Served.setLink_sent, Served.setLink_link, hchan, hposted,
      Link.enqueueFrame_posted, List.mem_append, List.mem_cons, List.not_mem_nil,
      or_false] at hg ⊢
    tauto

end Grows

/-- What holds as long as both links are open. -/
structure Inv (sid : UInt64) (d : Duo) : Prop where
  node : ∀ z, NodeInv sid (d.node z)
  handler : (d.node .server).link.onNewSession = true
  taken : ∀ z, (d.node z).taken ≤ (d.node z.other).served.sent.length
  /-- Before the client has opened the session there is no frame for it. -/
  unopened : (d.node .client).ptr = none →
    ∀ z, ∀ f ∈ (d.node z).served.frames, f.session ≠ some sid
  /-- The first frame of the session is its NEW, and the server has its object exactly when
  it has read that frame. -/
  stream : (d.node .client).ptr ≠ none → ∃ before f after,
    (d.node .client).served.out = before ++ f :: after ∧
      (∀ g ∈ before, g.session ≠ some sid) ∧ Opening sid f ∧ (∀ g ∈ after, Mild sid g) ∧
      ((d.node .server).ptr = none ↔ (d.node .server).taken ≤ before.length)
  unborn : (d.node .client).ptr = none → (d.node .server).ptr = none
  clientPosted : ∀ g ∈ (d.node .client).link.posted, Mild sid g
  serverFrames : ∀ g ∈ (d.node .server).served.frames, Mild sid g
  serverSilent : (d.node .server).ptr = none →
    ∀ g ∈ (d.node .server).served.frames, g.session ≠ some sid
  told : ∀ z, (d.node z).shutCalled = true ∨ (d.node z).closeCalled = true →
    ∃ reason, .close sid reason ∈ (d.node z).served.frames
  heard : ∀ z reason,
    .close sid reason ∈ (d.node z.other).served.sent.take (d.node z).taken →
      (d.node z).heard = true

@[simp] theorem setNode_client_server (d : Duo) (n : Node) :
    (d.setNode .client n).node .server = d.node .server := d.setNode_other .client n

@[simp] theorem setNode_server_client (d : Duo) (n : Node) :
    (d.setNode .server n).node .client = d.node .client := d.setNode_other .server n

theorem Grows.take_sent {F : ShineFrame → Prop} {w w' : Served} (h : Grows F w w') {k : Nat}
    (hk : k ≤ w.sent.length) : w'.sent.take k = w.sent.take k := by
  obtain ⟨more, hmore⟩ := h.sent
  rw [← hmore, List.take_append_of_le_length hk]

/-- Where a frame that has been put on the connection stands. -/
theorem sent_cases {w : Served} {before after : List ShineFrame} {f f' : ShineFrame} {k : Nat}
    (hout : w.out = before ++ f' :: after) (hk : w.sent[k]? = some f) :
    (k < before.length ∧ f ∈ before) ∨ (k = before.length ∧ f = f') ∨
      (before.length < k ∧ f ∈ after) := by
  have hlt : k < w.sent.length := (List.getElem?_eq_some_iff.mp hk).1
  have hat : (before ++ f' :: after)[k]? = some f := by
    rw [← hout, Served.out, List.getElem?_append_left hlt, hk]
  rcases Nat.lt_trichotomy k before.length with hlt | rfl | hgt
  · rw [List.getElem?_append_left hlt] at hat
    exact .inl ⟨hlt, List.mem_of_getElem? hat⟩
  · rw [List.getElem?_append_right (Nat.le_refl _), Nat.sub_self] at hat
    cases hat
    exact .inr (.inl ⟨rfl, rfl⟩)
  · obtain ⟨m, hm⟩ : ∃ m, k - before.length = m + 1 := ⟨k - before.length - 1, by omega⟩
    rw [List.getElem?_append_right hgt.le, hm, List.getElem?_cons_succ] at hat
    exact .inr (.inr ⟨hgt, List.mem_of_getElem? hat⟩)

theorem Opening.session {sid : UInt64} {f : ShineFrame} (h : Opening sid f) :
    f.session = some sid := by
  obtain rfl | ⟨_, _, _, rfl, -⟩ := h <;> rfl

/-- A NEW that a server accepts, at a server. -/
theorem Opening.dispatchFrame {sid : UInt64} {f : ShineFrame} (h : Opening sid f) {l : Link}
    (hhandler : l.onNewSession = true) (now : UInt64) : f.opensFor sid = true ∧
      ∃ target win protocol, l.dispatchFrame now f = l.accept sid target win protocol := by
  obtain rfl | ⟨blob, win, target, rfl, htarget⟩ := h
  · exact ⟨by simp [ShineFrame.opensFor], .default, 0, .udp, by simp [Link.dispatchFrame, hhandler]⟩
  · exact ⟨by simp [ShineFrame.opensFor], target, win, .tcp,
      by simp [Link.dispatchFrame, hhandler, htarget]⟩

namespace Inv

variable {sid : UInt64} {d d' : Duo} {F : ShineFrame → Prop}

theorem start (sid : UInt64) (co so : LinkOptions) : Inv sid (.start co so) := by
  have hnode : ∀ z, NodeInv sid ((Duo.start co so).node z) := by
    intro z
    constructor
    · constructor
      · intro sid' q hq
        cases z <;> simp [Duo.start, Node.link, Served.start, Link.new] at hq
      · intro q s hs
        cases z <;> simp [Duo.start, Node.link, Served.start, Link.new] at hs
    · intro _
      refine ⟨fun q s hs => ?_, by cases z <;> exact ⟨rfl, rfl, rfl⟩⟩
      cases z <;> simp [Duo.start, Node.link, Served.start, Link.new] at hs
    · intro p hp
      cases z <;> cases hp
  have hframes : ∀ z, ((Duo.start co so).node z).served.frames = [] := by
    intro z
    cases z <;> rfl
  constructor
  · exact hnode
  · rfl
  · intro z
    cases z <;> exact Nat.le_refl _
  · intro _ z f hf
    simp [hframes] at hf
  · intro hne
    exact absurd rfl hne
  · intro _
    rfl
  · intro g hg
    cases hg
  · intro g hg
    simp [hframes] at hg
  · intro _ g hg
    simp [hframes] at hg
  · intro z hz
    cases z <;> simp [Duo.start] at hz
  · intro z reason hmem
    cases z <;> simp [Duo.start, Side.other, Served.start] at hmem

/-- What holds at both ends alike, after a step of one. -/
theorem both (h : Inv sid d) (z : Side) {n : Node} (hnode : NodeInv sid n)
    (htaken : n.taken ≤ (d.node z.other).served.sent.length)
    (hheard : ∀ reason, .close sid reason ∈ (d.node z.other).served.sent.take n.taken →
      n.heard = true)
    (hgrows : Grows F (d.node z).served n.served)
    (htold : n.shutCalled = true ∨ n.closeCalled = true →
      ∃ reason, .close sid reason ∈ n.served.frames) (y : Side) :
    let n' := (d.setNode z n).node y
    let sent := ((d.setNode z n).node y.other).served.sent
    NodeInv sid n' ∧ n'.taken ≤ sent.length ∧
      (n'.shutCalled = true ∨ n'.closeCalled = true →
        ∃ reason, .close sid reason ∈ n'.served.frames) ∧
      ∀ reason, .close sid reason ∈ sent.take n'.taken → n'.heard = true := by
  rcases y.eq_or_other z with rfl | rfl
  · simp only [setNode_self, setNode_other]
    exact ⟨hnode, htaken, htold, hheard⟩
  · have htaken' := h.taken z.other
    have hheard' := h.heard z.other
    rw [Side.other_other] at htaken' hheard'
    simp only [Side.other_other, setNode_self, setNode_other, hgrows.take_sent htaken']
    exact ⟨h.node _, htaken'.trans hgrows.sent.length_le, h.told _, hheard'⟩

/-- **A step of one end.** -/
theorem act (h : Inv sid d) (z : Side) {n : Node} (hnode : NodeInv sid n)
    (hhandler : n.link.onNewSession = (d.node z).link.onNewSession)
    (htaken : n.taken ≤ (d.node z.other).served.sent.length)
    (hheard : ∀ reason, .close sid reason ∈ (d.node z.other).served.sent.take n.taken →
      n.heard = true)
    (hback : n.ptr = none → (d.node z).ptr = none)
    (hforth : (d.node .client).ptr = none → n.ptr = none)
    (hread : z = .server → ∀ before f after, (d.node .client).served.out = before ++ f :: after →
      ((d.node .server).ptr = none ↔ (d.node .server).taken ≤ before.length) →
      (∀ g ∈ before, g.session ≠ some sid) → Opening sid f →
      (n.ptr = none ↔ n.taken ≤ before.length))
    (hgrows : Grows F (d.node z).served n.served) (hmild : ∀ f, F f → Mild sid f)
    (hsilent : n.ptr = none → ∀ f, F f → f.session ≠ some sid)
    (hposted : ∀ g ∈ n.link.posted, g ∈ (d.node z).link.posted ∨ F g)
    (htold : n.shutCalled = true ∨ n.closeCalled = true →
      ∃ reason, .close sid reason ∈ n.served.frames) : Inv sid (d.setNode z n) := by
  have hboth := h.both z hnode htaken hheard hgrows htold
  have hgone (hnone : ((d.setNode z n).node .client).ptr = none) :
      (d.node .client).ptr = none ∧ n.ptr = none := by
    cases z with
    | client =>
      rw [setNode_self] at hnone
      exact ⟨hback hnone, hnone⟩
    | server =>
      rw [setNode_server_client] at hnone
      exact ⟨hnone, hforth hnone⟩
  have hunopened : ((d.setNode z n).node .client).ptr = none →
      ∀ y, ∀ f ∈ ((d.setNode z n).node y).served.frames, f.session ≠ some sid := by
    intro hnone y f hf
    obtain ⟨hold, hnew⟩ := hgone hnone
    rcases y.eq_or_other z with rfl | rfl
    · rw [setNode_self] at hf
      exact (hgrows.fresh f hf).elim (h.unopened hold y f) (hsilent hnew f)
    · rw [setNode_other] at hf
      exact h.unopened hold _ f hf
  cases z with
  | client =>
    refine ⟨fun y => (hboth y).1, by simpa using h.handler, fun y => (hboth y).2.1, hunopened,
      fun hne => ?_, fun hnone => ?_, fun g hg => ?_, by simpa using h.serverFrames,
      by simpa using h.serverSilent, fun y => (hboth y).2.2.1, fun y => (hboth y).2.2.2⟩
    · rw [setNode_self] at hne
      obtain ⟨before, f, after, hout, hbefore, hf, hafter, hread⟩ :=
        h.stream fun hnone => hne (hforth hnone)
      obtain ⟨extra, hextra, hF⟩ := hgrows.out
      refine ⟨before, f, after ++ extra, ?_, hbefore, hf, ?_, by simpa using hread⟩
      · rw [setNode_self, hextra, hout, List.append_assoc, List.cons_append]
      · intro g hg
        rcases List.mem_append.mp hg with hold | hnew
        · exact hafter g hold
        · exact (hF g hnew).elim (h.clientPosted g) (hmild g)
    · rw [setNode_client_server]
      exact h.unborn (hgone hnone).1
    · rw [setNode_self] at hg
      exact (hposted g hg).elim (h.clientPosted g) (hmild g)
  | server =>
    refine ⟨fun y => (hboth y).1, by simpa [hhandler] using h.handler, fun y => (hboth y).2.1,
      hunopened, fun hne => ?_, fun hnone => ?_, by simpa using h.clientPosted, fun g hg => ?_,
      fun hnone g hg => ?_, fun y => (hboth y).2.2.1, fun y => (hboth y).2.2.2⟩
    · rw [setNode_server_client] at hne
      obtain ⟨before, f, after, hout, hbefore, hf, hafter, hold⟩ := h.stream hne
      refine ⟨before, f, after, by rw [setNode_server_client, hout], hbefore, hf, hafter, ?_⟩
      rw [setNode_self]
      exact hread rfl before f after hout hold hbefore hf
    · rw [setNode_self]
      exact (hgone hnone).2
    · rw [setNode_self] at hg
      exact (hgrows.fresh g hg).elim (h.serverFrames g) (hmild g)
    · rw [setNode_self] at hnone hg
      exact (hgrows.fresh g hg).elim (h.serverSilent (hback hnone) g) (hsilent hnone g)

/-- The client's object exists when the server's does. -/
theorem ptr_ne_none (h : Inv sid d) {z : Side} (hz : (d.node z).ptr ≠ none) :
    (d.node .client).ptr ≠ none := by
  cases z with
  | client => exact hz
  | server => exact fun hnone => hz (h.unborn hnone)

/-- A step of one end that reads nothing and keeps the session object. -/
theorem keep (h : Inv sid d) (z : Side) {n : Node} (hnode : NodeInv sid n)
    (hhandler : n.link.onNewSession = (d.node z).link.onNewSession)
    (htaken : n.taken = (d.node z).taken) (hptr : n.ptr = (d.node z).ptr)
    (hheard : n.heard = (d.node z).heard) (hgrows : Grows F (d.node z).served n.served)
    (hmild : ∀ f, F f → Mild sid f)
    (hsilent : (d.node z).ptr = none → ∀ f, F f → f.session ≠ some sid)
    (hposted : ∀ g ∈ n.link.posted, g ∈ (d.node z).link.posted ∨ F g)
    (htold : n.shutCalled = true ∨ n.closeCalled = true →
      ∃ reason, .close sid reason ∈ n.served.frames) : Inv sid (d.setNode z n) := by
  refine h.act z hnode hhandler (htaken ▸ h.taken z) ?_ (fun hnone => hptr ▸ hnone) ?_ ?_ hgrows
    hmild (fun hnone => hsilent (hptr ▸ hnone)) hposted htold
  · intro reason hmem
    rw [hheard]
    rw [htaken] at hmem
    exact h.heard z reason hmem
  · intro hnone
    rw [hptr]
    by_contra hne
    exact h.ptr_ne_none hne hnone
  · rintro rfl before f after - hold - -
    rwa [hptr, htaken]

/-- What has been told stays told. -/
theorem still (h : Inv sid d) {z : Side} {n : Node}
    (hkept : ∀ f ∈ (d.node z).served.frames, f ∈ n.served.frames)
    (hshut : n.shutCalled = (d.node z).shutCalled)
    (hclose : n.closeCalled = (d.node z).closeCalled) :
    n.shutCalled = true ∨ n.closeCalled = true → ∃ reason, .close sid reason ∈ n.served.frames := by
  intro hcalled
  rw [hshut, hclose] at hcalled
  obtain ⟨reason, hmem⟩ := h.told z hcalled
  exact ⟨reason, hkept _ hmem⟩

/-- **Anything that happens apart from the session.** -/
theorem other (h : Inv sid d) {z : Side} {e : Served.Event} {w : Served}
    (ha : (d.node z).apart sid e = true) (hstep : (d.node z).served.step e = some w)
    (hopen : (d.node z).link.closed = false) (hw : w.link.closed = false) :
    Inv sid (d.setNode z { d.node z with served := w }) := by
  -- nothing new is for the session, whichever way the frames move
  have hquiet : ∀ f : ShineFrame, f.session ≠ some sid → Mild sid f :=
    fun f hf hs => absurd hs hf
  rcases Node.apart_cases ha hstep with ⟨hsent, hl⟩ | hclosed | ⟨f, rest, hchan, rfl⟩ |
    ⟨f, rest, hposted, rfl⟩
  · have hgrows : Grows (fun f => f.session ≠ some sid) (d.node z).served w :=
      .of_link hsent hl.written hl.posted
    refine h.keep z ((h.node z).of_leaves hl rfl rfl rfl rfl) hl.handler rfl rfl rfl hgrows hquiet
      (fun _ _ hf => hf) ?_ (h.still hgrows.kept rfl rfl)
    intro g hg
    obtain ⟨extra, hextra, hF⟩ := hl.posted
    have hg : g ∈ w.link.posted := hg
    rw [hextra] at hg
    exact (List.mem_append.mp hg).imp id (hF g)
  · rw [hclosed] at hw
    cases hw
  · have hgrows := Grows.flush (F := fun f => f.session ≠ some sid) hchan
    exact h.keep z ((h.node z).of_same rfl rfl rfl rfl rfl rfl rfl) rfl rfl rfl rfl hgrows hquiet
      (fun _ _ hf => hf) (fun g hg => .inl hg) (h.still hgrows.kept rfl rfl)
  · have hgrows := Grows.runPosted (F := fun f => f.session ≠ some sid) hposted hopen
    refine h.keep z ((h.node z).of_same (Link.enqueueFrame_heap ..) (Link.enqueueFrame_next ..)
      (Link.enqueueFrame_sessions ..) rfl rfl rfl rfl) (Link.enqueueFrame_onNewSession ..) rfl rfl
      rfl hgrows hquiet (fun _ _ hf => hf) ?_ (h.still hgrows.kept rfl rfl)
    intro g hg
    have hg : g ∈ rest := by
      simpa [Node.link] using hg
    exact .inl (hposted ▸ List.mem_cons_of_mem f hg)

/-- **A call on the session** at an end that has it: what it enqueues or spawns is plain. -/
theorem own (h : Inv sid d) {z : Side} {p : Nat} (hp : (d.node z).ptr = some p) {n : Node}
    (hnode : NodeInv sid n) (hhandler : n.link.onNewSession = (d.node z).link.onNewSession)
    (hsent : n.served.sent = (d.node z).served.sent) (htaken : n.taken = (d.node z).taken)
    (hptr : n.ptr = (d.node z).ptr) (hheard : n.heard = (d.node z).heard)
    (hchan : ∃ extra, n.link.writeChan = (d.node z).link.writeChan ++ extra ∧
      ∀ f ∈ extra, f.plain = true)
    (hposted : ∃ extra, n.link.posted = (d.node z).link.posted ++ extra ∧
      ∀ f ∈ extra, f.plain = true)
    (htold : (∀ f ∈ (d.node z).served.frames, f ∈ n.served.frames) →
      n.shutCalled = true ∨ n.closeCalled = true →
        ∃ reason, .close sid reason ∈ n.served.frames) : Inv sid (d.setNode z n) := by
  have hgrows : Grows (fun f => f.plain = true) (d.node z).served n.served :=
    .of_link hsent hchan hposted
  refine h.keep z hnode hhandler htaken hptr hheard hgrows (fun f hf _ => hf) ?_ ?_
    (htold hgrows.kept)
  · intro hnone
    rw [hp] at hnone
    cases hnone
  · intro g hg
    obtain ⟨extra, hextra, hF⟩ := hposted
    rw [hextra] at hg
    exact (List.mem_append.mp hg).imp id (hF g)

/-- A piece of `read`, `sendTo` or `receiveFrom`. -/
theorem call (h : Inv sid d) {z : Side} {p : Nat} (hp : (d.node z).ptr = some p) {op : SessionOp}
    {r : op.Ans} {l : Link} (hreads : Node.reads sid op = true)
    (hrun : op.run (d.node z).link p = some (r, l)) :
    Inv sid (d.setNode z ((d.node z).setLink l)) := by
  obtain ⟨s, hs⟩ := (h.node z).holds p hp
  have hnode := (h.node z).call hs hp hreads hrun
  have hframes : l.onNewSession = (d.node z).link.onNewSession ∧
      (∃ extra, l.writeChan = (d.node z).link.writeChan ++ extra ∧ ∀ f ∈ extra, f.plain = true) ∧
      l.posted = (d.node z).link.posted := by
    obtain rfl | ⟨s, f, -, -, -, rfl⟩ | ⟨f, rfl, rfl⟩ | ⟨rfl, rfl⟩ | ⟨rfl, rfl⟩ :=
      SessionOp.run_cases hrun
    · exact ⟨rfl, ⟨[], (List.append_nil _).symm, by simp⟩, rfl⟩
    · exact ⟨rfl, ⟨[], (List.append_nil _).symm, by simp⟩, rfl⟩
    · have hplain : f.plain = true := by
        cases f <;> first | rfl | simp [Node.reads] at hreads
      exact ⟨Link.enqueueFrame_onNewSession .., Link.enqueueFrame_extends _ hplain,
        Link.enqueueFrame_posted ..⟩
    · cases hreads
    · cases hreads
  obtain ⟨hhandler, hchan, hposted⟩ := hframes
  exact h.own hp hnode hhandler rfl rfl rfl rfl hchan
    ⟨[], by rw [List.append_nil]; exact hposted, by simp⟩ (fun hkept => h.still hkept rfl rfl)

/-- A `write` passes its checks. -/
theorem write (h : Inv sid d) {z : Side} {p : Nat} (hp : (d.node z).ptr = some p) {data : Bytes}
    {n : Node} (hwrite : (d.node z).write p data = some n) : Inv sid (d.setNode z n) := by
  have hsame : ∀ ws, Inv sid (d.setNode z { d.node z with writes := ws }) := by
    intro ws
    exact h.own hp ((h.node z).of_same rfl rfl rfl rfl rfl rfl rfl) rfl rfl rfl rfl rfl
      ⟨[], (List.append_nil _).symm, by simp⟩ ⟨[], (List.append_nil _).symm, by simp⟩
      (fun hkept => h.still hkept rfl rfl)
  unfold Node.write at hwrite
  split at hwrite <;> cases hwrite
  split_ifs
  · exact hsame (d.node z).writes
  · exact hsame _

/-- A write sends a chunk. -/
theorem chunk (h : Inv sid d) {z : Side} {p : Nat} (hp : (d.node z).ptr = some p) {i : Nat}
    {n : Node} (hchunk : (d.node z).chunk sid p i = some n) : Inv sid (d.setNode z n) := by
  obtain ⟨s, hs⟩ := (h.node z).holds p hp
  obtain ⟨hnode, hptr, hsent, htaken, hshut, hclose, hheard, hchan, hposted, hhandler⟩ :=
    (h.node z).chunk hs hp hchunk
  exact h.own hp hnode hhandler hsent htaken hptr hheard hchan
    ⟨[], by rw [List.append_nil]; exact hposted, by simp⟩
    (fun hkept => h.still hkept hshut hclose)

/-- The first `shutdownWrite` or `close` of an end finds the session Open or HalfClosedRemote. -/
theorem tells (h : Inv sid d) {z : Side} {p : Nat} {s : Session} (hs : Holds sid (d.node z) p s)
    {fs : List ShineFrame} (hkept : ∀ f ∈ (d.node z).served.frames, f ∈ fs)
    (hfirst : s.state = .opened ∨ s.state = .halfClosedRemote → .close sid [] ∈ fs) :
    ∃ reason, .close sid reason ∈ fs := by
  by_cases hcalled : (d.node z).shutCalled = true ∨ (d.node z).closeCalled = true
  · obtain ⟨reason, hmem⟩ := h.told z hcalled
    exact ⟨reason, hkept _ hmem⟩
  · refine ⟨[], hfirst ?_⟩
    rw [not_or, Bool.not_eq_true, Bool.not_eq_true] at hcalled
    rw [hs.state, hcalled.1, hcalled.2]
    cases (d.node z).heard <;> simp [stateOf]

/-- `shutdownWrite` on an open link. -/
theorem shutdownWrite (h : Inv sid d) {z : Side} {p : Nat} (hp : (d.node z).ptr = some p)
    (hopen : (d.node z).link.closed = false) :
    Inv sid (d.setNode z
      { (d.node z).setLink ((d.node z).link.shutdownWrite p) with shutCalled := true }) := by
  obtain ⟨s, hs⟩ := (h.node z).holds p hp
  obtain ⟨hchan, hposted, hhandler⟩ := Link.shutdownWrite_frames hs.heap hopen
  refine h.own hp ((h.node z).shutdownWrite hs hp hopen) hhandler rfl rfl rfl rfl ⟨_, hchan, ?_⟩
    ⟨[], by rw [List.append_nil]; exact hposted, by simp⟩ ?_
  · intro f hf
    split_ifs at hf
    · rw [List.mem_singleton.mp hf]
      rfl
    · cases hf
  · refine fun hkept _ => h.tells hs hkept fun hlive => ?_
    rw [if_pos hlive, hs.sid_eq] at hchan
    simp [Served.frames, Node.setLink, hchan]

/-- `close`. -/
theorem close (h : Inv sid d) {z : Side} {p : Nat} (hp : (d.node z).ptr = some p)
    (hopen : (d.node z).link.closed = false) :
    Inv sid (d.setNode z
      { (d.node z).setLink ((d.node z).link.close p) with closeCalled := true }) := by
  obtain ⟨s, hs⟩ := (h.node z).holds p hp
  obtain ⟨hposted, hchan, hhandler⟩ := Link.close_frames hs.heap hopen
  refine h.own hp ((h.node z).close hs hp) hhandler rfl rfl rfl rfl
    ⟨[], by rw [List.append_nil]; exact hchan, by simp⟩ ⟨_, hposted, ?_⟩ ?_
  · intro f hf
    split_ifs at hf
    · cases hf
    · rw [List.mem_singleton.mp hf]
      rfl
  · refine fun hkept _ => h.tells hs hkept fun hlive => ?_
    have hopened : s.state ≠ .closed := by rcases hlive with hlive | hlive <;> simp [hlive]
    rw [if_neg hopened, hs.sid_eq] at hposted
    simp [Served.frames, Node.setLink, hposted]

/-- **The client opens the session.** -/
theorem openSession (h : Inv sid d) (hnone : (d.node .client).ptr = none)
    (hopen : (d.node .client).link.closed = false) {target : Address} {isUdp : Bool}
    (htarget : isUdp = true ∨ target.Named) :
    Inv sid (d.setNode .client
      { (d.node .client).setLink ((d.node .client).link.openSession sid target isUdp) with
        ptr := some (d.node .client).link.next }) := by
  have hnode := (h.node .client).openSession hnone hopen target isUdp
  have hframe : Opening sid ((d.node .client).link.openFrame sid target isUdp) := by
    unfold Link.openFrame
    split_ifs with hudp
    · exact .inl rfl
    · exact .inr ⟨_, _, target, rfl, Address.parseBinary_toBinary (htarget.resolve_left hudp)⟩
  have hl : (d.node .client).link.openSession sid target isUdp
      = ((d.node .client).link.emplace
          ((d.node .client).link.openedSession sid target isUdp)).enqueueFrame
        ((d.node .client).link.openFrame sid target isUdp) := by
    simp [Link.openSession, hopen]
  have hchan : ((d.node .client).link.openSession sid target isUdp).writeChan
      = (d.node .client).link.writeChan ++ [(d.node .client).link.openFrame sid target isUdp] := by
    rw [hl, Link.enqueueFrame_writeChan, Link.emplace_closed, if_neg (by simp [hopen])]
    rfl
  have hposted : ((d.node .client).link.openSession sid target isUdp).posted
      = (d.node .client).link.posted := by
    rw [hl, Link.enqueueFrame_posted]
    rfl
  obtain ⟨-, hshut, hclose, -⟩ := (h.node .client).absent hnone
  have hborn := h.unborn hnone
  have hgrows : Grows (fun _ => True) (d.node .client).served ((d.node .client).served.setLink
      ((d.node .client).link.openSession sid target isUdp)) :=
    .of_link rfl ⟨_, hchan, fun _ _ => trivial⟩ ⟨[], hposted.trans (List.append_nil _).symm, by simp⟩
  have hboth := h.both .client hnode (h.taken .client) (h.heard .client) hgrows
    (by simp [Node.setLink, hshut, hclose])
  refine ⟨fun y => (hboth y).1, by simpa using h.handler, fun y => (hboth y).2.1,
    fun hnone' => by simp at hnone', fun _ => ?_, fun hnone' => by simp at hnone', fun g hg => ?_,
    by simpa using h.serverFrames, by simpa using h.serverSilent, fun y => (hboth y).2.2.1,
    fun y => (hboth y).2.2.2⟩
  · -- all that was in order before the NEW is for other sessions
    refine ⟨(d.node .client).served.out, _, [], ?_, ?_, hframe, by simp, ?_⟩
    · have hout : ((d.node .client).served.setLink
          ((d.node .client).link.openSession sid target isUdp)).out
          = (d.node .client).served.out ++ [(d.node .client).link.openFrame sid target isUdp] := by
        rw [Served.out, Served.setLink_link, hchan, Served.setLink_sent, ← List.append_assoc]
        rfl
      simpa [Node.setLink] using hout
    · intro g hg
      exact h.unopened hnone .client g (List.mem_append_left _ hg)
    · have htaken : (d.node .server).taken ≤ (d.node .client).served.out.length := by
        rw [Served.out, List.length_append]
        exact (h.taken .server).trans (Nat.le_add_right ..)
      simpa [hborn] using htaken
  · rw [setNode_self] at hg
    exact h.clientPosted g (hposted ▸ hg)

/-- **What the next frame of the peer's can be**: none of the session's business, a plain
frame of a session this end has, or the NEW that makes it. -/
theorem next_frame (h : Inv sid d) {z : Side} {f : ShineFrame}
    (hf : (d.node z.other).served.sent[(d.node z).taken]? = some f) :
    f.session ≠ some sid ∨
      (f.session = some sid ∧ f.plain = true ∧ ∃ p, (d.node z).ptr = some p) ∨
      (z = .server ∧ Opening sid f ∧ (d.node z).ptr = none) := by
  by_cases hsession : f.session = some sid
  · right
    have hmem : f ∈ (d.node z.other).served.frames :=
      List.mem_append_left _ (List.mem_append_left _ (List.mem_of_getElem? hf))
    have hopened : (d.node .client).ptr ≠ none :=
      fun hnone => h.unopened hnone z.other f hmem hsession
    cases z with
    | client =>
      exact .inl ⟨hsession, h.serverFrames f hmem hsession, Option.ne_none_iff_exists'.mp hopened⟩
    | server =>
      obtain ⟨before, f', after, hout, hbefore, hf', hafter, hread⟩ := h.stream hopened
      rcases sent_cases hout hf with ⟨-, hmem⟩ | ⟨hat, rfl⟩ | ⟨hlt, hmem⟩
      · exact absurd hsession (hbefore f hmem)
      · exact .inr ⟨rfl, hf', hread.mpr hat.le⟩
      · refine .inl ⟨hsession, hafter f hmem hsession, Option.ne_none_iff_exists'.mp ?_⟩
        exact fun hnone => absurd (hread.mp hnone) (by omega)
  · exact .inl hsession

section Deliver

-- the next frame of the peer's
variable {z : Side} {f : ShineFrame} (h : Inv sid d)
  (hf : (d.node z.other).served.sent[(d.node z).taken]? = some f) (now : UInt64)

include h hf

/-- What reading the frame amounts to, whatever it is. -/
theorem read {F : ShineFrame → Prop} (hnode : NodeInv sid ((d.node z).dispatch sid now f))
    (hhandler : ((d.node z).link.dispatchFrame now f).onNewSession
      = (d.node z).link.onNewSession)
    (hchan : ∃ extra, ((d.node z).link.dispatchFrame now f).writeChan
      = (d.node z).link.writeChan ++ extra ∧ ∀ g ∈ extra, F g)
    (hposted : ∃ extra, ((d.node z).link.dispatchFrame now f).posted
      = (d.node z).link.posted ++ extra ∧ ∀ g ∈ extra, F g)
    (hmild : ∀ g, F g → Mild sid g)
    (hsilent : ((d.node z).dispatch sid now f).ptr = none → ∀ g, F g → g.session ≠ some sid)
    (hback : ((d.node z).dispatch sid now f).ptr = none → (d.node z).ptr = none)
    (hforth : (d.node .client).ptr = none → ((d.node z).dispatch sid now f).ptr = none)
    (hread : z = .server → ∀ before f' after,
      (d.node .client).served.out = before ++ f' :: after →
      ((d.node .server).ptr = none ↔ (d.node .server).taken ≤ before.length) →
      (∀ g ∈ before, g.session ≠ some sid) → Opening sid f' →
      (((d.node z).dispatch sid now f).ptr = none ↔ (d.node z).taken + 1 ≤ before.length)) :
    Inv sid (d.setNode z ((d.node z).dispatch sid now f)) := by
  obtain ⟨hlt, hat⟩ := List.getElem?_eq_some_iff.mp hf
  have hgrows : Grows F (d.node z).served ((d.node z).dispatch sid now f).served :=
    .of_link rfl hchan hposted
  refine h.act z hnode hhandler hlt ?_ hback hforth hread hgrows hmild hsilent ?_
    (h.still hgrows.kept rfl rfl)
  · intro reason hmem
    have htake : (d.node z.other).served.sent.take ((d.node z).taken + 1)
        = (d.node z.other).served.sent.take (d.node z).taken ++ [f] := by
      rw [List.take_add_one, hf]
      rfl
    have hmem : ShineFrame.close sid reason ∈
        (d.node z.other).served.sent.take ((d.node z).taken + 1) := hmem
    rw [htake, List.mem_append, List.mem_singleton] at hmem
    rcases hmem with hold | rfl
    · simp [Node.dispatch, h.heard z reason hold]
    · -- a CLOSE comes to an end that has the session
      rcases h.next_frame hf with hne | ⟨-, -, p, hp⟩ | ⟨-, hopening, -⟩
      · exact absurd rfl hne
      · simp [Node.dispatch, hp, ShineFrame.closes]
      · obtain hn | ⟨_, _, _, hn, -⟩ := hopening <;> cases hn
  · intro g hg
    obtain ⟨extra, hextra, hF⟩ := hposted
    have hg : g ∈ ((d.node z).link.dispatchFrame now f).posted := hg
    rw [hextra] at hg
    exact (List.mem_append.mp hg).imp id (hF g)

/-- **A frame of the peer's is dispatched.** -/
theorem deliver : Inv sid (d.setNode z ((d.node z).dispatch sid now f)) := by
  have hkept : ((d.node z).dispatch sid now f).ptr = (d.node z).ptr →
      (d.node .client).ptr = none → ((d.node z).dispatch sid now f).ptr = none := by
    intro hptr hnone
    rw [hptr]
    by_contra hne
    exact h.ptr_ne_none hne hnone
  rcases h.next_frame hf with hother | ⟨hsession, hplain, p, hp⟩ | ⟨rfl, hopening, hnone⟩
  · have hl := Leaves.dispatchFrame (h.node z).consistent now hother
    have hopens : f.opensFor sid = false := by
      cases f <;> simp_all [ShineFrame.opensFor, ShineFrame.session]
    have hcloses : f.closes sid = false := by
      cases f <;> simp_all [ShineFrame.closes, ShineFrame.session]
    have hptr : ((d.node z).dispatch sid now f).ptr = (d.node z).ptr := by
      simp [Node.dispatch, hopens, Node.setLink]
    have hheard : ((d.node z).dispatch sid now f).heard = (d.node z).heard := by
      simp [Node.dispatch, hcloses]
    refine h.read hf now ((h.node z).of_leaves hl hptr rfl rfl hheard) hl.handler hl.written
      hl.posted (fun g hg hs => absurd hs hg) (fun _ g hg => hg) (fun hnone => hptr ▸ hnone)
      (hkept hptr) ?_
    rintro rfl before f' after hout hold - hf'
    -- the frame is not the NEW itself
    have hne : (d.node .server).taken ≠ before.length := by
      intro hat
      rcases sent_cases hout hf with ⟨hlt, -⟩ | ⟨-, rfl⟩ | ⟨hlt, -⟩
      · omega
      · exact hother hf'.session
      · omega
    rw [hptr, hold]
    omega
  · obtain ⟨s, hs⟩ := (h.node z).holds p hp
    obtain ⟨hchan, hposted, hhandler⟩ :=
      Link.dispatchFrame_plain_frames (d.node z).link now hsession hplain
    have hptr : ((d.node z).dispatch sid now f).ptr = (d.node z).ptr := by
      simp [Node.dispatch, hp]
    refine h.read hf now (F := fun _ => False) ((h.node z).dispatch_plain hs hp now hsession hplain)
      hhandler ⟨[], by rw [hchan, List.append_nil], by simp⟩
      ⟨[], by rw [hposted, List.append_nil], by simp⟩ (fun g hg => hg.elim)
      (fun _ g hg => hg.elim) (fun hnone => hptr ▸ hnone) (hkept hptr) ?_
    rintro rfl before f' after - hold - -
    have hlt : ¬ (d.node .server).taken ≤ before.length := by
      rw [← hold, hp]
      simp
    rw [hptr, hp]
    simp only [reduceCtorEq, false_iff]
    omega
  · obtain ⟨hopens, target, win, protocol, hl⟩ := hopening.dispatchFrame h.handler now
    obtain ⟨hnode, hptr⟩ := (h.node .server).dispatch_accept hnone now hopens hl
    have hsome : ((d.node .server).dispatch sid now f).ptr ≠ none := by simp [hptr]
    refine h.read hf now (F := fun g => g.plain = true) hnode ?_ ?_ ?_ (fun g hg _ => hg)
      (fun hnone => absurd hnone hsome) (fun hnone => absurd hnone hsome) ?_ ?_
    · rw [hl, Link.accept]
      simp
    · rw [hl]
      exact Link.enqueueFrame_extends _ rfl
    · exact ⟨[], by rw [hl, Link.accept]; simp, by simp⟩
    · -- the NEW has been sent, so the client has the session
      intro hunopened
      refine absurd hopening.session (h.unopened hunopened .client f ?_)
      exact List.mem_append_left _ (List.mem_append_left _ (List.mem_of_getElem? hf))
    · intro _ before f' after hout hold hbefore _
      have hle := hold.mp hnone
      rcases sent_cases hout hf with ⟨-, hmem⟩ | ⟨hat, -⟩ | ⟨hlt, -⟩
      · exact absurd hopening.session (hbefore f hmem)
      · have hat : (d.node .server).taken = before.length := hat
        simp only [hsome, false_iff]
        omega
      · have hlt : before.length < (d.node .server).taken := hlt
        omega

end Deliver

/-- **Every step keeps the invariant** as long as the links stay open. -/
theorem step {e : Event} (h : d.Open → Inv sid d) (hstep : (system sid).step d e = some d') :
    d'.Open → Inv sid d' := by
  intro hopen'
  change Duo.step sid d e = some d' at hstep
  cases e with
  | other z e =>
    simp only [Duo.step] at hstep
    split_ifs at hstep with ha
    obtain ⟨w, hw, rfl⟩ := Option.map_eq_some_iff.mp hstep
    have hlive : w.link.closed = false := by simpa [Node.link] using hopen' z
    have hopen := hopen'.before fun _ => by
      rcases Node.apart_cases ha hw with ⟨-, hl⟩ | hclosed | ⟨f, rest, -, rfl⟩ | ⟨f, rest, -, rfl⟩
      · by_contra hclosed
        rw [hl.closed (by simpa using hclosed)] at hlive
        cases hlive
      · rw [hclosed] at hlive
        cases hlive
      · exact hlive
      · simpa using hlive
    exact (h hopen).other ha hw (hopen z) hlive
  | openSession target isUdp =>
    simp only [Duo.step] at hstep
    split_ifs at hstep with hguard
    cases hstep
    obtain ⟨hnone, hclosed, htarget⟩ := hguard
    exact (h (hopen'.before fun _ => hclosed)).openSession hnone hclosed htarget
  | call z op =>
    simp only [Duo.step] at hstep
    split_ifs at hstep with hreads
    obtain ⟨p, hp, hrest⟩ := Option.bind_eq_some_iff.mp hstep
    obtain ⟨⟨r, l⟩, hrun, rfl⟩ := Option.map_eq_some_iff.mp hrest
    have hopen := hopen'.before fun hlive => by
      have hlive : l.closed = false := hlive
      obtain rfl | ⟨_, _, -, -, -, rfl⟩ | ⟨_, -, rfl⟩ | ⟨-, rfl⟩ | ⟨-, rfl⟩ :=
        SessionOp.run_cases hrun <;> simpa using hlive
    exact (h hopen).call hp hreads hrun
  | write z data =>
    obtain ⟨p, hp, hrest⟩ := Option.bind_eq_some_iff.mp hstep
    obtain ⟨n, hwrite, rfl⟩ := Option.map_eq_some_iff.mp hrest
    have hopen := hopen'.before fun hlive => by
      unfold Node.write at hwrite
      split at hwrite <;> cases hwrite
      split_ifs at hlive <;> exact hlive
    exact (h hopen).write hp hwrite
  | chunk z i =>
    obtain ⟨p, hp, hrest⟩ := Option.bind_eq_some_iff.mp hstep
    obtain ⟨n, hchunk, rfl⟩ := Option.map_eq_some_iff.mp hrest
    have hopen := hopen'.before fun hlive => by
      rwa [← Node.chunk_closed hchunk]
    exact (h hopen).chunk hp hchunk
  | shutdownWrite z =>
    obtain ⟨p, hp, rfl⟩ := Option.map_eq_some_iff.mp hstep
    have hopen := hopen'.before fun hlive =>
      (Link.shutdownWrite_closed (d.node z).link p).symm.trans hlive
    exact (h hopen).shutdownWrite hp (hopen z)
  | close z =>
    obtain ⟨p, hp, rfl⟩ := Option.map_eq_some_iff.mp hstep
    have hopen := hopen'.before fun hlive =>
      (Link.close_closed (d.node z).link p).symm.trans hlive
    exact (h hopen).close hp (hopen z)
  | deliver z now =>
    simp only [Duo.step] at hstep
    split_ifs at hstep with hclosed
    obtain ⟨f, hf, hd⟩ := Option.map_eq_some_iff.mp hstep
    rcases attempt_encode_cases (d.node z).link.opts.maxPayload f with ⟨-, hframe⟩ | ⟨-, e, hframe⟩
    · rw [hframe] at hd
      cases hd
      have hopen := hopen'.before fun _ => by simpa using hclosed
      exact (h hopen).deliver hf now
    · -- a frame over the limits ends the link
      rw [hframe] at hd
      cases hd
      have hz := hopen' z
      simp [Node.link, Node.setLink] at hz

/-- **Every run.** -/
theorem reach {co so : LinkOptions} (h : (system sid).Reach Lts.Free (.start co so) d) :
    d.Open → Inv sid d :=
  h.invariant (fun _ => Inv.start sid co so) fun _ _ _ hinv _ hstep => step hinv hstep

end Inv

/-- Every frame that `x` has sent for the session, or has queued for it, has been dispatched
by the peer. -/
def Delivered (sid : UInt64) (d : Duo) (x : Side) : Prop :=
  ∀ f ∈ (d.node x).served.frames.drop (d.node x.other).taken, f.session ≠ some sid

/-- Where everything has been dispatched, the peer has heard of a `close`. -/
theorem Inv.heard_of_delivered {sid : UInt64} {d : Duo} (h : Inv sid d) {x : Side}
    (hclose : (d.node x).closeCalled = true) (hdone : d.Delivered sid x) :
    (d.node x.other).heard = true := by
  obtain ⟨reason, hmem⟩ := h.told x (.inr hclose)
  have htaken : (d.node x.other).taken ≤ (d.node x).served.sent.length := by
    simpa using h.taken x.other
  rw [← List.take_append_drop (d.node x.other).taken (d.node x).served.frames] at hmem
  rcases List.mem_append.mp hmem with htook | hleft
  · refine h.heard x.other reason ?_
    rw [Served.frames, List.append_assoc, List.take_append_of_le_length htaken] at htook
    rwa [Side.other_other]
  · exact absurd rfl (hdone _ hleft)

/-- **What `close` does to the other node.** On a pair of open links, once one end has called
`close` and the peer has dispatched every frame of its for the session, the peer's session is
Closed, out of the table and without a waiting write exactly if the peer's own application has
called `close`, or has called `shutdownWrite` and has no write that lacks credit. -/
theorem close_tears_down (sid : UInt64) (co so : LinkOptions) (d : Duo)
    (h : (system sid).Reach Lts.Free (.start co so) d) (hopen : d.Open) (x : Side)
    (hclose : (d.node x).closeCalled = true) (hdone : d.Delivered sid x) :
    (d.node x.other).TornDown ↔
      (d.node x.other).closeCalled = true ∨
        ((d.node x.other).shutCalled = true ∧ ¬ (d.node x.other).OutOfCredit) := by
  have hinv := Inv.reach h hopen
  exact (hinv.node x.other).tornDown_iff (hinv.heard_of_delivered hclose hdone)

/-- The client opens a session with a window of 4; the server accepts it and writes 5 bytes,
of which one is left; the client closes and the server reads its CLOSE. -/
def waitingWrite : List Event :=
  [.openSession Link.sampleTarget false, .other .client .flush, .deliver .server 0,
    .write .server [1, 2, 3, 4, 5], .chunk .server 0, .close .client, .other .client .runPosted,
    .other .client .flush, .deliver .server 0]

/-- A client that grants four bytes. -/
def fourBytes : LinkOptions := { Link.sampleOpts with initWindow := 4 }

/-- Both links are open, the client has called `close` and all it has sent has been read. -/
def settled (d : Duo) : Bool :=
  !(d.node .client).link.closed && !(d.node .server).link.closed && (d.node .client).closeCalled &&
    ((d.node .client).served.frames.drop (d.node .server).taken).isEmpty

theorem settled_spec {d : Duo} (h : d.settled = true) (sid : UInt64) :
    d.Open ∧ (d.node .client).closeCalled = true ∧ d.Delivered sid .client := by
  simp only [settled, Bool.and_eq_true, Bool.not_eq_true', List.isEmpty_iff] at h
  obtain ⟨⟨⟨hclient, hserver⟩, hclose⟩, hdone⟩ := h
  refine ⟨fun z => by cases z <;> assumption, hclose, fun f hf => ?_⟩
  rw [Side.other, hdone] at hf
  cases hf

/-- Without a call of its own the peer's session stays HalfClosedRemote and in the table, and
its write goes on waiting. -/
theorem waitingWrite_outcome :
    ∃ d s, (system 7).Reach Lts.Free (.start fourBytes Link.sampleOpts) d ∧ d.settled = true ∧
      (d.node .server).session = some s ∧ s.state = .halfClosedRemote ∧
      (d.node .server).link.sessions 7 = some 0 ∧ (d.node .server).Suspended := by
  have hexec : ((system 7).exec Lts.Free (.start fourBytes Link.sampleOpts) waitingWrite).map
      (fun d => (d.settled && decide ((d.node .server).link.sessions 7 = some 0)
        && decide ((d.node .server).writes = [[5]]),
        (d.node .server).session.map fun s => (s.state, s.sendCredit, s.creditSignal)))
        = some (true, some (.halfClosedRemote, 0, some false)) := by
    decide +kernel
  obtain ⟨d, hrun, hview⟩ := Option.map_eq_some_iff.mp hexec
  simp only [Prod.mk.injEq, Bool.and_eq_true, decide_eq_true_eq, Option.map_eq_some_iff] at hview
  obtain ⟨⟨⟨hsettled, htable⟩, hwrites⟩, s, hs, hstate, hcredit, hsignal⟩ := hview
  exact ⟨d, s, Lts.reach_of_exec _ hrun, hsettled, hs, hstate, htable, by simp [hwrites], s, hs,
    hcredit.le, hsignal⟩

/-- So a `close` alone tears nothing down at the peer. -/
theorem close_tears_down_fails_on_waiting_write :
    ¬ ∀ (sid : UInt64) (co so : LinkOptions) (d : Duo),
      (system sid).Reach Lts.Free (.start co so) d → d.Open → ∀ x,
        (d.node x).closeCalled = true → d.Delivered sid x → (d.node x.other).TornDown := by
  intro hall
  obtain ⟨d, s, hreach, hsettled, -, -, -, hwaits⟩ := waitingWrite_outcome
  obtain ⟨hopen, hclose, hdone⟩ := settled_spec hsettled 7
  obtain ⟨-, -, -, -, -, -, hidle⟩ :=
    hall 7 fourBytes Link.sampleOpts d hreach hopen .client hclose hdone
  exact hidle hwaits

/-- With a call of `close` at the server as well, everything is torn down. -/
theorem close_tears_down_both_close :
    ∃ d, (system 7).Reach Lts.Free (.start fourBytes Link.sampleOpts) d ∧ d.Open ∧
      (d.node .client).closeCalled = true ∧ d.Delivered 7 .client ∧
      (d.node .server).TornDown := by
  have hexec : ((system 7).exec Lts.Free (.start fourBytes Link.sampleOpts)
      (waitingWrite ++ [.close .server])).map
      (fun d => (d.settled, (d.node .server).closeCalled)) = some (true, true) := by
    decide +kernel
  obtain ⟨d, hrun, hview⟩ := Option.map_eq_some_iff.mp hexec
  simp only [Prod.mk.injEq] at hview
  obtain ⟨hopen, hclose, hdone⟩ := settled_spec hview.1 7
  have hreach := Lts.reach_of_exec _ hrun
  exact ⟨d, hreach, hopen, hclose, hdone,
    (close_tears_down 7 fourBytes Link.sampleOpts d hreach hopen .client hclose hdone).mpr
      (.inl hview.2)⟩

end Duo

end Shine
