import Shine.Transport.Dispatch
import Shine.Transport.SessionInv

/-!
# The invariant of a pair of links

`Net.Inv` holds in every reachable state of two links: both links are well formed, NEW
is the first frame about its session, and every session keeps `SessInv`.
`Net.Inv.step` takes the events one by one; what they do to the ends of a session is in
`Transport.Refinement` and `Transport.Dispatch`, and why that keeps the invariant is in
`Transport.SessionInv`.
-/

namespace Shine

open ShineFrame End

/-! ## NEW comes first -/

/-- Among the frames about a session only the first can be its NEW. -/
def NewFirst (sid : UInt64) (fs : List ShineFrame) : Prop :=
  ∀ f ∈ (fs.filter fun f => f.concern = some sid).tail, f.isNew = false

section NewFirst

variable {sid : UInt64} {fs gs : List ShineFrame} {f : ShineFrame}

theorem NewFirst.sublist (h : NewFirst sid fs) (hsub : gs.Sublist fs) : NewFirst sid gs :=
  fun g hg => h g ((hsub.filter _).tail.subset hg)

theorem NewFirst.append (h : NewFirst sid fs) (hgs : ∀ g ∈ gs, g.isNew = false) :
    NewFirst sid (fs ++ gs) := by
  intro g hg
  rw [List.filter_append] at hg
  cases hfs : fs.filter fun f => f.concern = some sid with
  | nil =>
    rw [hfs, List.nil_append] at hg
    exact hgs g (List.mem_of_mem_filter (List.mem_of_mem_tail hg))
  | cons a rest =>
    rw [hfs] at hg
    rcases List.mem_append.mp hg with hg | hg
    · exact h g (by rw [hfs]; exact hg)
    · exact hgs g (List.mem_of_mem_filter hg)

/-- A frame behind which there was none about its session. -/
theorem NewFirst.snoc (h : NewFirst sid fs) (hfs : f.concern = some sid →
    ∀ g ∈ fs, g.concern ≠ some sid) : NewFirst sid (fs ++ [f]) := by
  intro g hg
  rw [List.filter_append] at hg
  by_cases hf : f.concern = some sid
  · have hnil : (fs.filter fun f => f.concern = some sid) = [] :=
      List.filter_eq_nil_iff.mpr fun g hg => by simpa using hfs hf g hg
    rw [hnil, List.nil_append, List.filter_cons_of_pos (by simpa using hf)] at hg
    cases hg
  · rw [List.filter_cons_of_neg (by simpa using hf), List.filter_nil, List.append_nil] at hg
    exact h g hg

/-- Behind the first frame there is no NEW. -/
theorem NewFirst.not_opens (h : NewFirst sid (f :: fs)) (hf : f.concern = some sid) :
    ∀ g ∈ fs, g.opens sid = false := by
  intro g hg
  by_cases hc : g.concern = some sid
  · have hnew : g.isNew = false := by
      refine h g ?_
      rw [List.filter_cons_of_pos (by simpa using hf)]
      exact List.mem_filter.mpr ⟨hg, by simpa using hc⟩
    simp [opens, hnew]
  · exact opens_of_ne hc

end NewFirst

/-! ## The invariant -/

namespace Net

/-- The end of the session `sid` at `z`. -/
def endOf (n : Net) (cap : UInt32) (sid : UInt64) (z : Side) : End :=
  (n.peer z).endOf cap (n.wire z) (n.cut z) sid

/-- The invariant of a client with window `cap` and a server with window `server`. -/
structure Inv (cap server : UInt32) (strict : UInt64 → Side → Prop) (n : Net) : Prop where
  peers : ∀ z, (n.peer z).Ok z cap (z.window cap server) n.aborted (n.wire z)
  handler : (n.peer .server).link.onNewSession = true
  newFirst : ∀ sid, NewFirst sid (n.wire .client ++ (n.peer .client).link.writeChan)
  sessions : ∀ sid, SessInv cap server (strict sid) (n.endOf cap sid) (n.aborted sid)

/-- When the CLOSE of a session that `strict` names is dispatched, its receiver has at
most the payload in its queue that a waiting reader is about to get. -/
def Prompt (strict : UInt64 → Side → Prop) (n : Net) : NetEvent → Prop
  | .dispatch z _ =>
    match n.wire z.other with
    | .close sid _ :: _ => strict sid z.other → ∀ s ∈ (n.peer z).link.object sid,
        s.state ≠ .closed →
        s.inboxQueue.length ≤ if ((n.peer z).app sid).reader.phase = .waiting then 1 else 0
    | _ => True
  | _ => True

instance (strict : UInt64 → Side → Prop) [∀ sid z, Decidable (strict sid z)] (n : Net)
    (ev : NetEvent) : Decidable (Prompt strict n ev) := by
  unfold Prompt
  split
  · split <;> infer_instance
  · infer_instance

end Net

/-- What a link has and owns only grows. -/
theorem Peer.Ok.evolves {pe pe' : Peer} {z : Side} {cap window : UInt32}
    {aborted aborted' : UInt64 → Bool} {wire : List ShineFrame}
    (hok : pe.Ok z cap window aborted wire)
    (hev : pe.link.Evolves z cap aborted' pe'.link)
    (hsome : ∀ sid, (pe.link.object sid).isSome = true → (pe'.link.object sid).isSome = true)
    (hmono : ∀ sid, aborted sid = true → aborted' sid = true) :
    pe'.Ok z cap window aborted' wire where
  sound := hev.sound
  distinct := hev.distinct
  window_eq := by rw [hev.opts_eq, hok.window_eq]
  posted f hf := by
    rcases hev.posted f hf with hf | ⟨sid, rfl, hs, hab⟩
    · obtain ⟨sid, rfl, hs, hab⟩ := hok.posted f hf
      exact ⟨sid, rfl, hsome sid hs, hmono sid hab⟩
    · exact ⟨sid, rfl, hsome sid hs, hab⟩
  owned f hf := by
    obtain ⟨gs, hgs, hown⟩ := hev.writeChan
    have hf' : pe.link.Owns z cap f := by
      rw [hgs, ← List.append_assoc] at hf
      rcases List.mem_append.mp hf with hf | hf
      · exact hok.owned f hf
      · exact (hown f hf).1
    cases f with
    | data sid _ | close sid _ | window sid _ => exact hsome sid hf'
    | new sid _ _ => exact ⟨hf'.1, hsome sid hf'.2.1, hf'.2.2⟩
    | newUdp _ | udpData _ _ _ => exact hf'
    | _ => trivial

/-- Frames that have left the connection are not owned any more. -/
theorem Peer.Ok.wire_subset {pe : Peer} {z : Side} {cap window : UInt32}
    {aborted : UInt64 → Bool} {wire wire' : List ShineFrame}
    (hok : pe.Ok z cap window aborted wire) (hsub : wire' ⊆ wire) :
    pe.Ok z cap window aborted wire' :=
  ⟨hok.sound, hok.distinct, hok.window_eq, hok.posted, fun f hf => hok.owned f <| by
    rcases List.mem_append.mp hf with hf | hf
    · exact List.mem_append_left _ (hsub hf)
    · exact List.mem_append_right _ hf⟩

theorem Peer.Ok.enqueueFrame {pe : Peer} {z : Side} {cap window : UInt32}
    {aborted : UInt64 → Bool} {wire : List ShineFrame} {f : ShineFrame}
    (hok : pe.Ok z cap window aborted wire) (hf : pe.link.Owns z cap f) :
    (pe.setLink (pe.link.enqueueFrame f)).Ok z cap window aborted wire := by
  have hobj : ∀ sid, (pe.link.enqueueFrame f).object sid = pe.link.object sid :=
    fun sid => Link.object_congr (by simp) (by simp)
  have howns : ∀ g, pe.link.Owns z cap g → (pe.link.enqueueFrame f).Owns z cap g := by
    intro g hg
    cases g <;> simp_all [Link.Owns]
  refine ⟨hok.sound.enqueueFrame f, hok.distinct.congr (by simp [setLink]) (by simp [setLink]),
    by simpa [setLink] using hok.window_eq, by simpa [setLink, hobj] using hok.posted, ?_⟩
  intro g hg
  rw [setLink_link, Link.enqueueFrame_writeChan] at hg
  refine howns g ?_
  split_ifs at hg
  · exact hok.owned g hg
  · rw [← List.append_assoc] at hg
    rcases List.mem_append.mp hg with hg | hg
    · exact hok.owned g hg
    · rw [List.mem_singleton.mp hg]
      exact hf

/-- A session about which nothing is under way. -/
theorem Peer.endOf_quiet {pe : Peer} {cap : UInt32} {wire : List ShineFrame} {cut : Bool}
    {sid : UInt64} (h : ∀ f ∈ wire ++ pe.link.writeChan, f.concern ≠ some sid) :
    (pe.endOf cap wire cut sid).msgs = [] ∧ (pe.endOf cap wire cut sid).grants = [] ∧
      (pe.endOf cap wire cut sid).opening = false := by
  have htraffic : ∀ f ∈ pe.traffic wire cut, f.concern ≠ some sid := by
    intro f hf
    refine h f ?_
    unfold traffic at hf
    split_ifs at hf
    · rw [List.append_nil] at hf
      exact List.mem_append_left _ hf
    · exact hf
  refine ⟨List.filterMap_eq_nil_iff.mpr fun f hf => msgOf_of_ne (htraffic f hf),
    List.filterMap_eq_nil_iff.mpr fun f hf => grantOf_of_ne (htraffic f hf),
    List.any_eq_false.mpr fun f hf => ?_⟩
  simp [opens_of_ne (htraffic f hf)]

/-- A link has nothing under way about a session that it does not have. -/
theorem Peer.Ok.quiet {pe : Peer} {z : Side} {cap window : UInt32} {aborted : UInt64 → Bool}
    {wire : List ShineFrame} {sid : UInt64} (hok : pe.Ok z cap window aborted wire)
    (hnone : pe.link.object sid = none) :
    ∀ f ∈ wire ++ pe.link.writeChan, f.concern ≠ some sid := by
  intro f hf hconcern
  have hown := hok.owned f hf
  cases f <;> simp_all [Link.Owns, concern]

/-- A frame on its way from the queue to the connection stays under way. -/
theorem Peer.endOf_flush {pe : Peer} {cap : UInt32} {wire rest : List ShineFrame} {cut : Bool}
    {sid : UInt64} {f : ShineFrame} (hchan : pe.link.writeChan = f :: rest) :
    (pe.setLink { pe.link with writeChan := rest }).endOf cap
      (if cut then wire else wire ++ [f]) cut sid = pe.endOf cap wire cut sid := by
  have htraffic : (pe.setLink { pe.link with writeChan := rest }).traffic
      (if cut then wire else wire ++ [f]) cut = pe.traffic wire cut := by
    cases cut <;> simp [traffic, setLink, hchan]
  simp only [endOf, htraffic]
  rfl

/-- What is left under way when the connection is cut. -/
theorem Peer.traffic_cut (pe : Peer) (wire : List ShineFrame) (cut : Bool) (k : Nat) :
    pe.traffic (wire.take k) true <+: pe.traffic wire cut := by
  simp only [traffic, if_true, List.append_nil]
  exact (List.take_prefix k wire).trans (List.prefix_append ..)

namespace Net

variable {n n' : Net} {cap server : UInt32} {strict : UInt64 → Side → Prop} {z : Side}
  {sid : UInt64}

@[simp] theorem setPeer_peer (pe : Peer) : (n.setPeer z pe).peer z = pe := Function.update_self ..

@[simp] theorem setPeer_peer_other (pe : Peer) : (n.setPeer z pe).peer z.other = n.peer z.other :=
  Function.update_of_ne (by simp) ..

@[simp] theorem setPeer_other_peer (pe : Peer) : (n.setPeer z.other pe).peer z = n.peer z :=
  Function.update_of_ne (by simp) ..

@[simp] theorem setPeer_wire (pe : Peer) : (n.setPeer z pe).wire = n.wire := rfl
@[simp] theorem setPeer_cut (pe : Peer) : (n.setPeer z pe).cut = n.cut := rfl

@[simp] theorem setWire_wire (fs : List ShineFrame) : (n.setWire z fs).wire z = fs :=
  Function.update_self ..

@[simp] theorem setWire_wire_other (fs : List ShineFrame) :
    (n.setWire z fs).wire z.other = n.wire z.other :=
  Function.update_of_ne (by simp) ..

@[simp] theorem setWire_other_wire (fs : List ShineFrame) :
    (n.setWire z.other fs).wire z = n.wire z :=
  Function.update_of_ne (Side.other_ne z).symm ..

/-- A link whose traffic and objects stay, while more sessions are torn down. -/
theorem Inv.peer_mono (h : n.Inv cap server strict) {aborted : UInt64 → Bool}
    (hmono : ∀ sid, n.aborted sid = true → aborted sid = true) (z : Side) :
    (n.peer z).Ok z cap (z.window cap server) aborted (n.wire z) :=
  (h.peers z).evolves (.refl (h.peers z).sound (h.peers z).distinct) (fun _ => id) hmono

/-- A step of one link. -/
theorem Inv.act (h : n.Inv cap server strict) {act : LocalAct} {pe : Peer}
    (hstep : (n.peer z).step act = some pe) (hact : ∀ sid target, act ≠ .openSession sid target) :
    Inv cap server strict
      { n.setPeer z pe with aborted := abortedBy (n.peer z) n.aborted act } := by
  have hev := Peer.step_evolves (h.peers z) hstep hact
  have hacted : ∀ sid, Acted (n.endOf cap sid z) (n.aborted sid)
      (pe.endOf cap (n.wire z) (n.cut z) sid) (abortedBy (n.peer z) n.aborted act sid) :=
    fun sid => Peer.step_acted (h.peers z) hstep hact fun hc =>
      (h.sessions sid).broken z (by simp [endOf, Peer.endOf, hc])
  have hmono : ∀ sid, n.aborted sid = true → abortedBy (n.peer z) n.aborted act sid = true :=
    fun sid => (hacted sid).frame.lossy
  refine ⟨forall_side z ?_ ?_, ?_, ?_, fun sid => ?_⟩
  · simp only [setPeer_peer]
    refine (h.peers z).evolves hev (fun sid hs => ?_) hmono
    exact (hacted sid).present_eq.trans hs
  · simp only [setPeer_peer_other]
    exact h.peer_mono hmono z.other
  · cases z with
    | server =>
      show ((n.setPeer .server pe).peer .server).link.onNewSession = true
      rw [setPeer_peer, hev.handler_eq, h.handler]
    | client => exact h.handler
  · intro sid
    cases z with
    | server => exact h.newFirst sid
    | client =>
      obtain ⟨gs, hgs, hown⟩ := hev.writeChan
      show NewFirst sid (n.wire .client ++ ((n.setPeer .client pe).peer .client).link.writeChan)
      rw [setPeer_peer, hgs, ← List.append_assoc]
      exact (h.newFirst sid).append fun g hg => (hown g hg).2
  · refine (h.sessions sid).acted (z := z) ?_ ?_
    · simp only [endOf, setPeer_peer]
      exact hacted sid
    · simp only [endOf, setPeer_peer_other]
      rfl

/-- The writer coroutine puts a frame on the connection, or loses it. -/
theorem Inv.flush (h : n.Inv cap server strict) {f : ShineFrame} {rest : List ShineFrame}
    (hchan : (n.peer z).link.writeChan = f :: rest) :
    Inv cap server strict
      ((n.setPeer z ((n.peer z).setLink { (n.peer z).link with writeChan := rest })).setWire z
        (if n.cut z then n.wire z else n.wire z ++ [f])) := by
  have hok := h.peers z
  -- all that can happen to the frames under way is that one is dropped
  have hsub : List.Sublist ((if n.cut z then n.wire z else n.wire z ++ [f]) ++ rest)
      (n.wire z ++ (n.peer z).link.writeChan) := by
    rw [hchan]
    split_ifs
    · exact (List.Sublist.refl _).append (List.sublist_cons_self ..)
    · rw [List.append_assoc]
      exact List.Sublist.refl _
  refine ⟨forall_side z ?_ ?_, ?_, ?_, fun sid => ?_⟩
  · simp only [setWire_wire]
    refine ⟨?_, ?_, ?_, ?_, ?_⟩ <;> simp only [setWire, setPeer_peer, Peer.setLink]
    · exact hok.sound.congr rfl rfl rfl
    · exact hok.distinct.congr rfl rfl
    · exact hok.window_eq
    · exact hok.posted
    · exact fun g hg => hok.owned g (hsub.subset hg)
  · simp only [setWire_wire_other]
    simp only [setWire, setPeer_peer_other]
    exact h.peers z.other
  · cases z with
    | server => exact h.handler
    | client => exact h.handler
  · intro sid
    cases z with
    | server => exact h.newFirst sid
    | client => exact (h.newFirst sid).sublist hsub
  · refine (h.sessions sid).acted (z := z) ?_ ?_
    · simp only [endOf, setWire_wire]
      simp only [setWire, setPeer_peer]
      rw [show (n.setPeer z ((n.peer z).setLink _)).cut z = n.cut z from rfl, Peer.endOf_flush hchan]
      exact .same
    · simp only [endOf, setWire_wire_other]
      simp only [setWire, setPeer_peer_other]
      rfl

/-- The connection loses everything behind `k` frames. -/
theorem Inv.cut (h : n.Inv cap server strict) (z : Side) (k : Nat) :
    Inv cap server strict { n.setWire z ((n.wire z).take k) with
      cut := Function.update n.cut z true
      aborted := fun _ => true } := by
  have hsub : ((n.wire z).take k).Sublist (n.wire z) := List.take_sublist ..
  refine ⟨forall_side z ?_ ?_, h.handler, ?_, fun sid => ?_⟩
  · simp only [setWire_wire]
    exact (h.peer_mono (fun _ _ => rfl) z).wire_subset hsub.subset
  · simp only [setWire_wire_other]
    exact h.peer_mono (fun _ _ => rfl) z.other
  · intro sid
    cases z with
    | server => exact h.newFirst sid
    | client => exact (h.newFirst sid).sublist (hsub.append_right _)
  · have hkept := (n.peer z).traffic_cut (n.wire z) (n.cut z) k
    have hopening : ((n.peer z).traffic ((n.wire z).take k) true).any (opens sid) = true →
        (n.endOf cap sid z).opening = true := by
      intro ho
      obtain ⟨f, hf, hopens⟩ := List.any_eq_true.mp ho
      exact List.any_eq_true.mpr ⟨f, hkept.subset hf, hopens⟩
    refine (h.sessions sid).cut (z := z) ?_ ?_ (hkept.filterMap _) (hkept.filterMap _) hopening
    · simp only [endOf, setWire_wire, Function.update_self]
      rfl
    · simp only [endOf, setWire_wire_other]
      rw [Function.update_of_ne (by simp)]
      rfl

/-- The session that a NEW on its way will create does not exist yet. -/
theorem Inv.object_of_opens (h : n.Inv cap server strict) {f : ShineFrame}
    (hf : f ∈ n.wire z.other) (hopens : f.opens sid = true) :
    (n.peer z).link.object sid = none := by
  have hown := (h.peers z.other).owned f (List.mem_append_left _ hf)
  have hz : z = .server := by
    cases f <;> simp_all [opens, isNew, Link.Owns]
    cases z <;> simp_all [Side.other]
  subst hz
  by_contra hsome
  have hpresent : (n.endOf cap sid .server).present = true := by
    simpa [endOf, Peer.endOf, Option.isSome_iff_ne_none] using hsome
  have hopening : (n.endOf cap sid .client).opening = true :=
    List.any_eq_true.mpr ⟨f, List.mem_append_left _ hf, hopens⟩
  exact Flow.clash hopening ((h.sessions sid).unopened hpresent)

/-- Behind a frame about a session there is no NEW for it. -/
theorem Inv.not_opening (h : n.Inv cap server strict) {f : ShineFrame} {rest : List ShineFrame}
    (hwire : n.wire z = f :: rest) (hf : f.concern = some sid) :
    ((n.peer z).endOf cap rest (n.cut z) sid).opening = false := by
  have hsub : (n.peer z).traffic rest (n.cut z) ⊆ rest ++ (n.peer z).link.writeChan := by
    unfold Peer.traffic
    split_ifs <;> simp
  refine List.any_eq_false.mpr fun g hg => Bool.eq_false_iff.mp ?_
  cases z with
  | client =>
    have hfirst := h.newFirst sid
    rw [hwire] at hfirst
    exact hfirst.not_opens hf g (hsub hg)
  | server =>
    have hopener := (h.sessions sid).opener
    simp only [endOf, Peer.endOf, Peer.traffic, hwire] at hopener
    exact Bool.eq_false_iff.mpr
      (List.any_eq_false.mp hopener g (List.mem_cons_of_mem _ hg))

/-- The reader coroutine dispatches a frame. -/
theorem Inv.dispatch (h : n.Inv cap server strict) {f : ShineFrame} {rest : List ShineFrame}
    {now : UInt64} (hwire : n.wire z.other = f :: rest)
    (hprompt : Prompt strict n (.dispatch z now)) :
    Inv cap server strict
      { (n.setPeer z ((n.peer z).setLink ((n.peer z).link.dispatchFrame now f))).setWire
          z.other rest with aborted := abortedByFrame (n.peer z).link n.aborted f } := by
  have hs := (h.peers z).sound
  have hd := (h.peers z).distinct
  have hmem : f ∈ n.wire z.other := by simp [hwire]
  have hown := (h.peers z.other).owned f (List.mem_append_left _ hmem)
  have hunopened : ∀ sid, f.opens sid = true → (n.peer z).link.object sid = none :=
    fun sid => h.object_of_opens hmem
  have hdelivery : ∀ sid, Delivery (strict sid z.other) (n.endOf cap sid z.other)
      (n.endOf cap sid z) (n.aborted sid) ((n.peer z.other).endOf cap rest (n.cut z.other) sid)
      (((n.peer z).setLink ((n.peer z).link.dispatchFrame now f)).endOf cap (n.wire z) (n.cut z) sid)
      (abortedByFrame (n.peer z).link n.aborted f sid) := by
    intro sid
    simp only [endOf, hwire]
    refine @Peer.dispatch_delivery _ _ _ _ _ _ _ _ _ (fun sid => strict sid z.other) _ _ hs hd hown
      ?_ hunopened (fun sid => h.not_opening hwire) ?_ sid
    · intro hz
      cases z with
      | server => exact h.handler
      | client => cases hz
    · rintro σ reason rfl hstrict hlive
      obtain ⟨hp, hst⟩ := present_of_live hlive
      obtain ⟨s, hobj⟩ := Option.isSome_iff_exists.mp hp
      have hses : ((n.peer z).endOf cap (n.wire z) (n.cut z) σ).session = s := by
        simp [Peer.endOf, Peer.session, hobj]
      rw [hses] at hst ⊢
      simp only [Prompt, hwire] at hprompt
      exact hprompt hstrict s hobj hst
  have hmono : ∀ sid, n.aborted sid = true →
      abortedByFrame (n.peer z).link n.aborted f sid = true :=
    fun sid => (hdelivery sid).frame.lossy
  have hev : (n.peer z).link.Evolves z cap (abortedByFrame (n.peer z).link n.aborted f)
      ((n.peer z).link.dispatchFrame now f) := Peer.dispatch_evolves hs hd hown hunopened z
  refine ⟨forall_side z ?_ ?_, ?_, ?_, fun sid => ?_⟩
  · simp only [setWire_other_wire]
    simp only [setWire, setPeer_peer]
    refine (h.peers z).evolves hev (fun sid hsome => ?_) hmono
    rcases (hdelivery sid).present with hp | ⟨hp, -⟩
    · exact hp.trans hsome
    · exact Flow.clash hsome hp
  · simp only [setWire_wire]
    simp only [setWire, setPeer_peer_other]
    exact (h.peer_mono hmono z.other).wire_subset (by rw [hwire]; exact List.subset_cons_self ..)
  · cases z with
    | server =>
      show ((n.setPeer .server _).peer .server).link.onNewSession = true
      rw [setPeer_peer]
      exact hev.handler_eq.trans h.handler
    | client => exact h.handler
  · intro sid
    have hfirst := h.newFirst sid
    cases z with
    | server =>
      rw [show n.wire .client = f :: rest from hwire] at hfirst
      exact hfirst.sublist (List.sublist_cons_self ..)
    | client =>
      obtain ⟨gs, hgs, hnew⟩ := hev.writeChan
      simp only [setWire_other_wire]
      simp only [setWire, setPeer_peer, Peer.setLink_link]
      rw [hgs, ← List.append_assoc]
      exact hfirst.append fun g hg => (hnew g hg).2
  · refine (h.sessions sid).delivery (z := z) ?_
    simp only [endOf, setWire_wire, setWire_other_wire]
    simp only [setWire, setPeer_peer, setPeer_peer_other]
    exact hdelivery sid

/-- The client opens a session under a sid that it has not used. -/
theorem Inv.openSession (h : n.Inv cap server strict) (target : Address)
    (hfresh : (n.peer .client).link.object sid = none) :
    Inv cap server strict (n.setPeer .client ((n.peer .client).setLink
      ((n.peer .client).link.openSession sid target false))) := by
  have hok := h.peers .client
  have hs := hok.sound
  have hd := hok.distinct
  unfold Link.openSession
  split_ifs with hclosed
  · have hsame : n.setPeer .client (n.peer .client) = n := by
      unfold setPeer
      rw [Function.update_eq_self]
    rw [Peer.setLink_self, hsame]
    exact h
  have hcap : (n.peer .client).link.opts.initWindow = cap := hok.window_eq
  have hsnone : (n.peer .server).link.object sid = none := by
    by_contra hsome
    have hborn := (h.sessions sid).born (by
      simpa [endOf, Peer.endOf, Option.isSome_iff_ne_none] using hsome)
    simp [endOf, Peer.endOf, hfresh] at hborn
  have hfree : (n.peer .client).link.sessions sid = none := by
    cases hf : (n.peer .client).link.sessions sid with
    | none => rfl
    | some p =>
      obtain ⟨s, hp, hsid, -⟩ := hs.stored_live sid p hf
      exact absurd hsid (hd.object_eq_none.mp hfresh p s hp)
  simp only [Link.openedSession, Link.openFrame, hcap, Bool.false_eq_true, if_false]
  have hobj : ∀ sid', ((n.peer .client).link.emplace (.new sid target cap cap .tcp)).object sid'
      = if sid' = sid then some (.new sid target cap cap .tcp)
        else (n.peer .client).link.object sid' := hd.object_emplace hfresh
  -- the link with the new session object, before NEW is enqueued
  have hemplace : ((n.peer .client).setLink ((n.peer .client).link.emplace
      (.new sid target cap cap .tcp))).Ok .client cap cap n.aborted (n.wire .client) := by
    refine hok.evolves ((Link.Evolves.refl hs hd).trans_of_eq (hs.emplace hfree Session.new_ne_closed)
      (hd.emplace hfresh) rfl rfl rfl rfl rfl) (fun sid' hsome => ?_) (fun _ => id)
    rw [Peer.setLink_link, hobj]
    split_ifs
    · rfl
    · exact hsome
  refine ⟨forall_side .client ?_ ?_, h.handler, fun sid' => ?_, fun sid' => ?_⟩
  · rw [setPeer_peer]
    refine hemplace.enqueueFrame ⟨rfl, ?_, rfl⟩
    rw [Peer.setLink_link, hobj, if_pos rfl]
    rfl
  · exact h.peers .server
  · have hchan : (((n.peer .client).link.emplace (.new sid target cap cap .tcp)).enqueueFrame
        (.new sid target.toBinary cap)).writeChan
        = (n.peer .client).link.writeChan ++ [.new sid target.toBinary cap] := by
      rw [Link.enqueueFrame_writeChan, if_neg (by simpa using hclosed)]
      rfl
    show NewFirst sid' (n.wire .client ++ ((n.setPeer .client _).peer .client).link.writeChan)
    rw [setPeer_peer, Peer.setLink_link, hchan, ← List.append_assoc]
    refine (h.newFirst sid').snoc fun hf => ?_
    cases hf
    exact hok.quiet hfresh
  · by_cases hsid : sid' = sid
    · subst hsid
      obtain ⟨hcm, hcg, hco⟩ := @Peer.endOf_quiet (n.peer .client) cap (n.wire .client)
        (n.cut .client) sid' (hok.quiet hfresh)
      obtain ⟨hsm, hsg, -⟩ := @Peer.endOf_quiet (n.peer .server) cap (n.wire .server)
        (n.cut .server) sid' ((h.peers .server).quiet hsnone)
      refine (h.sessions sid').opened sid' target .default ?_ ?_ rfl ?_
        (forall_side .client hcm hsm) (forall_side .client hcg hsg)
      · simp [endOf, Peer.endOf, hfresh]
      · have hopen : ((n.peer .client).link.emplace (.new sid' target cap cap .tcp)).closed = false := by
          simpa using hclosed
        have hses : ((n.peer .client).setLink ((n.peer .client).link.emplace
            (.new sid' target cap cap .tcp))).endOf cap (n.wire .client) (n.cut .client) sid'
            = { n.endOf cap sid' .client with
                present := true, session := .new sid' target cap cap .tcp } := by
          simp only [endOf, Peer.endOf, Peer.session, Peer.setLink_link, hobj sid', if_true]
          rfl
        have hnew : opens sid' (.new sid' target.toBinary cap) = true := by
          simp [opens, isNew, concern]
        simp only [endOf, setPeer_peer, setPeer_wire, setPeer_cut] at hses ⊢
        rw [Peer.endOf_enqueue, hopen, hses, hnew]
        cases hcut : n.cut .client with
        | false => simp [Peer.endOf, msgOf, grantOf]
        | true =>
          rw [hcut] at hco
          rw [Bool.false_or, if_pos rfl, hco]
          rfl
      · simp only [endOf, Peer.endOf, Peer.session, hsnone, Option.getD_none]
        rw [show (n.peer .server).link.opts.initWindow = server from (h.peers .server).window_eq]
    · refine (h.sessions sid').acted (z := .client) ?_ rfl
      simp only [endOf, setPeer_peer]
      rw [Peer.endOf_enqueue_other (by simpa [concern] using Ne.symm hsid)]
      have hsame : ((n.peer .client).setLink ((n.peer .client).link.emplace
          (.new sid target cap cap .tcp))).endOf cap (n.wire .client) (n.cut .client) sid'
          = (n.peer .client).endOf cap (n.wire .client) (n.cut .client) sid' :=
        Peer.endOf_congr ((hobj sid').trans (if_neg hsid)) rfl rfl rfl rfl
      exact hsame ▸ .same

/-- What one turn of `writerLoop` does. -/
theorem flush_of_step (hstep : n.step (.flush z) = some n') :
    ∃ f rest, (n.peer z).link.writeChan = f :: rest ∧ (n.peer z).link.closed = false ∧
      n' = (n.setPeer z ((n.peer z).setLink { (n.peer z).link with writeChan := rest })).setWire z
        (if n.cut z then n.wire z else n.wire z ++ [f]) := by
  simp only [Net.step] at hstep
  split at hstep
  · cases hstep
  rename_i f rest hchan
  by_cases hclosed : (n.peer z).link.closed = true
  · rw [if_pos hclosed] at hstep
    cases hstep
  rw [if_neg hclosed] at hstep
  cases hstep
  exact ⟨f, rest, hchan, Bool.eq_false_iff.mpr hclosed, rfl⟩

/-- What one turn of `readerLoop` does. -/
theorem dispatch_of_step {now : UInt64} (hstep : n.step (.dispatch z now) = some n') :
    ∃ f rest, n.wire z.other = f :: rest ∧
      n' = { (n.setPeer z ((n.peer z).setLink ((n.peer z).link.dispatchFrame now f))).setWire
        z.other rest with aborted := abortedByFrame (n.peer z).link n.aborted f } := by
  simp only [Net.step] at hstep
  split at hstep
  · cases hstep
  rename_i f rest hwire
  cases hstep
  exact ⟨f, rest, hwire, rfl⟩

/-- A sid that no object has. -/
theorem Inv.object_eq_none (h : n.Inv cap server strict) {sid : UInt64}
    (hunused : ∀ p < (n.peer .client).link.next,
      ((n.peer .client).link.heap p).map (·.sid) ≠ some sid) :
    (n.peer .client).link.object sid = none := by
  refine (h.peers .client).distinct.object_eq_none.mpr fun p s hp hsid => ?_
  by_cases hlt : p < (n.peer .client).link.next
  · exact hunused p hlt (by rw [hp, Option.map_some, hsid])
  · rw [(h.peers .client).distinct.unused p (Nat.le_of_not_lt hlt)] at hp
    cases hp

/-- **Every event keeps the invariant.** -/
theorem Inv.step (h : n.Inv cap server strict) {ev : NetEvent} (hstep : n.step ev = some n')
    (hfresh : FreshSids n ev) (hprompt : Prompt strict n ev) : n'.Inv cap server strict := by
  cases ev with
  | act z a =>
    obtain ⟨pe, hpe, rfl⟩ := Option.map_eq_some_iff.mp hstep
    by_cases hopen : ∃ sid target, a = .openSession sid target
    · obtain ⟨sid, target, rfl⟩ := hopen
      obtain ⟨rfl, hunused⟩ := hfresh
      cases hpe
      exact h.openSession target (h.object_eq_none hunused)
    · exact h.act hpe fun sid target heq => hopen ⟨sid, target, heq⟩
  | flush z =>
    obtain ⟨f, rest, hchan, -, rfl⟩ := flush_of_step hstep
    exact h.flush hchan
  | dispatch z now =>
    obtain ⟨f, rest, hwire, rfl⟩ := dispatch_of_step hstep
    exact h.dispatch hwire hprompt
  | cut z k =>
    cases hstep
    exact h.cut z k

variable {client srv : LinkOptions}

/-- An end of a session that nobody has opened. -/
theorem start_endOf (now : UInt64) (cap : UInt32) (sid : UInt64) (z : Side) :
    ((start client srv now).endOf cap sid z) =
      ⟨false, .new sid .default cap (z.window client.initWindow srv.initWindow) .tcp, .init, false,
        false, [], [], false⟩ := by
  cases z <;> rfl

/-- The invariant holds at the start. -/
theorem inv_start (strict : UInt64 → Side → Prop) (now : UInt64) :
    (start client srv now).Inv client.initWindow srv.initWindow strict where
  peers := by
    intro z
    cases z with
    | client => exact ⟨Link.sound_new .., Link.distinct_new .., rfl, nofun, nofun⟩
    | server => exact ⟨Link.sound_new .., Link.distinct_new .., rfl, nofun, nofun⟩
  handler := rfl
  newFirst _ := nofun
  sessions sid := by
    refine ⟨fun z => ?_, fun z => ?_, fun z => ?_, nofun, rfl, nofun, nofun, nofun, nofun⟩ <;>
      rw [start_endOf]
    · exact ⟨good_new .., fun _ _ => rfl, nofun, nofun⟩
    · nofun
    · exact fun _ => ⟨rfl, rfl⟩

/-- **The invariant holds in every reachable state.** -/
theorem Inv.reach {now : UInt64} {ok : Net → NetEvent → Prop}
    (hfresh : ∀ n ev, ok n ev → FreshSids n ev) (hprompt : ∀ n ev, ok n ev → Prompt strict n ev)
    (hreach : netSystem.Reach ok (start client srv now) n) :
    n.Inv client.initWindow srv.initWindow strict := by
  refine hreach.invariant (P := fun n => n.Inv client.initWindow srv.initWindow strict)
    (inv_start strict now) fun n ev n' h hok hstep => ?_
  exact h.step hstep (hfresh n ev hok) (hprompt n ev hok)

/-- Without a condition on the reader, the invariant holds in every run. -/
theorem inv_of_fresh {now : UInt64}
    (hreach : netSystem.Reach FreshSids (start client srv now) n) :
    n.Inv client.initWindow srv.initWindow fun _ _ => False :=
  .reach (fun _ _ => id) (fun _ _ _ => by unfold Prompt; split <;> [(split <;> simp); trivial]) hreach

end Net

end Shine
