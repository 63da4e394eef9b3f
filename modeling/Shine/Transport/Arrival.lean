import Shine.Transport.Bytes
import Shine.Transport.Work

/-!
# What is written arrives

The other half of `Transport.Bytes`: not only is what a reader gets a beginning of what was
written, but all of it arrives if the applications go on reading. `Transport.Work` says that
the steps of the links and their applications end; here is what they leave behind. At rest no
frame is under way, so the server has every session that was not refused (`Announced`), and every
reader waits on an empty inbox. A writer that still waits for credit would then wait in vain,
which the credit invariant of `Lib.CreditFlow` excludes.

`everything_arrives` has the same condition on the windows as the absence of deadlock: a client
window of at least half of the server's. It takes the connection to accept what the writer
coroutines put on it.
-/

namespace Shine

open ShineFrame End

/-- A session that the server does not have yet is announced by a NEW on its way, unless it was torn
down. -/
def End.Announced (e : Side → End) (lossy : Bool) : Prop :=
  lossy = false → (e .client).present = true → (e .server).present = false →
    (e .client).opening = true

section Announced

variable {e e' : Side → End} {l l' : Bool} {z : Side} {strict : Prop}

/-- A NEW that is dispatched creates the session or tears it down. -/
theorem End.Delivery.opening_eq {x y x' y' : End} (h : Delivery strict x y l x' y' l')
    (hl' : l' = false) (hy' : y'.present = false) : x'.opening = x.opening := by
  cases h with
  | reset _ | refused _ _ => cases hl'
  | opened _ _ _ _ => cases hy'
  | _ => rfl

theorem End.Announced.acted (h : Announced e l) (hacted : Acted (e z) l (e' z) l')
    (hother : e' z.other = e z.other) : Announced e' l' := by
  intro hl' hclient hserver
  have hl : l = false := Bool.eq_false_iff.mpr fun hl => by simp [hacted.frame.lossy hl] at hl'
  cases z with
  | client =>
    rw [hacted.frame.opening]
    exact h hl (hacted.present_eq ▸ hclient) (hother ▸ hserver)
  | server =>
    rw [show e' .client = e .client from hother] at hclient ⊢
    exact h hl hclient (hacted.present_eq ▸ hserver)

theorem End.Announced.delivery (h : Announced e l) (hopener : (e .server).opening = false)
    (hdelivery : Delivery strict (e z.other) (e z) l (e' z.other) (e' z) l') :
    Announced e' l' := by
  intro hl' hclient hserver
  have hframe := hdelivery.frame
  have hl : l = false := Bool.eq_false_iff.mpr fun hl => by simp [hframe.lossy hl] at hl'
  cases z with
  | server =>
    have habsent : (e .server).present = false := by
      rcases hdelivery.present with heq | ⟨habsent, -⟩
      · exact heq ▸ hserver
      · exact habsent
    exact (hdelivery.opening_eq hl' hserver).trans
      (h hl (hframe.present.symm.trans hclient) habsent)
  | client =>
    -- the server announces nothing, so the client's object was there before
    have hbefore : (e .client).present = true := by
      rcases hdelivery.present with heq | ⟨-, -, hopening, -⟩
      · exact heq ▸ hclient
      · exact Flow.clash hopening hopener
    exact hdelivery.target.opening.trans (h hl hbefore (hframe.present.symm.trans hserver))

end Announced

namespace Net

variable {n n' : Net} {cap server : UInt32} {strict : UInt64 → Side → Prop} {z : Side}
  {sid : UInt64}

/-- While a session has not been torn down, both links are open and nothing is cut. -/
theorem Inv.intact (h : n.Inv cap server strict) (hab : n.aborted sid = false) (z : Side) :
    (n.peer z).link.closed = false ∧ n.cut z = false := by
  have hbroken := mt ((h.sessions sid).broken z) (by simp [hab])
  simpa [endOf, Peer.endOf] using hbroken

theorem Inv.delivery (h : n.Inv cap server strict) {f : ShineFrame} {rest : List ShineFrame}
    (hwire : n.wire z.other = f :: rest) (now sid : UInt64) :
    Delivery False (n.endOf cap sid z.other) (n.endOf cap sid z) (n.aborted sid)
      ((n.peer z.other).endOf cap rest (n.cut z.other) sid)
      (((n.peer z).setLink ((n.peer z).link.dispatchFrame now f)).endOf cap (n.wire z) (n.cut z)
        sid) (abortedByFrame (n.peer z).link n.aborted f sid) := by
  have hmem : f ∈ n.wire z.other := by simp [hwire]
  have hown := (h.peers z.other).owned f (List.mem_append_left _ hmem)
  have hhandler : z.other = .client → (n.peer z).link.onNewSession = true := by
    intro hz
    cases z with
    | server => exact h.handler
    | client => cases hz
  simp only [endOf, hwire]
  exact @Peer.dispatch_delivery _ _ _ _ _ _ _ _ _ (fun _ => False) _ _ (h.peers z).sound
    (h.peers z).distinct hown hhandler (fun sid => h.object_of_opens hmem)
    (fun sid => h.not_opening hwire) (fun _ _ _ hstrict => hstrict.elim) sid

/-- Every session is announced. -/
def Announced (n : Net) (cap : UInt32) : Prop :=
  ∀ sid, End.Announced (n.endOf cap sid) (n.aborted sid)

variable {x : Side} {p : Nat} {s : Session} {act : LocalAct}

section Rest

variable (hrest : netSystem.Rests Works n)

include hrest

end Rest

/-! ## What has been delivered -/

/-- All that was written on a session has been read, in a direction that is still open for
writing, unless the session was torn down. -/
def Delivered (n : Net) : Prop := ∀ x sid s, (n.peer x).link.object sid = some s →
  s.writeClosed = false → n.aborted sid = false →
    ((n.peer x.other).app sid).got = ((n.peer x).app sid).passed

section Delivered

variable {t : Session}

end Delivered

/-! ## Every run of the links ends in delivery -/

theorem Works.freshSids {ev : NetEvent} (h : n.Works ev) : FreshSids n ev := by
  cases ev with
  | act z act =>
    cases act with
    | openSession sid target => exact h.elim
    | _ => trivial
  | _ => trivial

/-- A link that is closed stays closed. -/
theorem Inv.closed_mono (h : n.Inv cap server strict) {n' : Net} {ev : NetEvent}
    (hworks : n.Works ev) (hstep : n.step ev = some n') (y : Side)
    (hclosed : (n.peer y).link.closed = true) : (n'.peer y).link.closed = true := by
  have hupdate {z : Side} {pe : Peer} (hpeer : n'.peer = Function.update n.peer z pe)
      (hpe : (n.peer z).link.closed = true → pe.link.closed = true) :
      (n'.peer y).link.closed = true := by
    rw [hpeer, Function.update_apply]
    split_ifs with heq
    · exact hpe (heq ▸ hclosed)
    · exact hclosed
  cases ev with
  | act z act =>
    obtain ⟨pe, hpe, rfl⟩ := Option.map_eq_some_iff.mp hstep
    have hact : ∀ sid target, act ≠ .openSession sid target := by
      rintro sid target rfl
      exact hworks
    have hacted : Acted (n.endOf cap 0 z) (n.aborted 0) (pe.endOf cap (n.wire z) (n.cut z) 0) _ :=
      Peer.step_acted (h.peers z) hpe hact fun hc =>
        (h.sessions 0).broken z (by simp [endOf, Peer.endOf, hc])
    exact hupdate rfl hacted.closed.2.1
  | flush z =>
    obtain ⟨f, rest, -, hopen, rfl⟩ := flush_of_step hstep
    exact hupdate rfl fun hz => Flow.clash hz hopen
  | dispatch z now =>
    obtain ⟨f, rest, -, rfl⟩ := dispatch_of_step hstep
    exact hupdate rfl fun hz => ((n.peer z).link.dispatchFrame_kept f now).2.2.trans hz
  | cut z k => exact hworks.elim

end Net

/-! ## The pair with a byte stream -/

namespace ByteNet

variable {b b' : ByteNet} {n n' : Net} {z : Side} {want : Nat}

/-- A step of the links' coroutines, or of their applications' that go on reading. -/
def Works (b : ByteNet) : ByteEvent → Prop
  | .act z act => act.Works (b.peer z)
  | .flush _ => True
  | .recv z k => (∀ p s, (b.peer z).link.heap p = some s → s.inboxBlocked = false) ∧
      0 < k ∧ b.bytes z.other ≠ []
  | .turn z _ => (∀ p s, (b.peer z).link.heap p = some s → s.inboxBlocked = false) ∧
      ∀ k f, readAttempt (b.peer z).link.opts.maxPayload (b.buf z) = .frame k f →
        f.answered = true → (b.peer z).link.Room
  | .cut .. => False

/-- All that was written on a session has been read, in a direction that is still open for
writing, unless the session was torn down. -/
def Delivered (b : ByteNet) : Prop := b.links.Delivered

/-- The bytes that have not been received. -/
def unreceived (b : ByteNet) : Nat := (b.bytes .client).length + (b.bytes .server).length

/-- The links that are open. -/
def opened (b : ByteNet) : Nat :=
  (if (b.peer .client).link.closed then 0 else 1) + if (b.peer .server).link.closed then 0 else 1

theorem works_recv {k : Nat} (hwant : 0 < want) (hworks : b.Works (.recv z k))
    (hstep : b.step want (.recv z k) = some b') :
    b'.peer = b.peer ∧ b'.unreceived < b.unreceived := by
  obtain ⟨-, hk, hne⟩ := hworks
  simp only [step] at hstep
  split_ifs at hstep
  cases hstep
  refine ⟨rfl, ?_⟩
  have htake : (b.bytes z.other).take k ≠ [] := by
    simp [List.take_eq_nil_iff, hne, Nat.pos_iff_ne_zero.mp hk]
  have hshrinks := (b.buf z).readSome_shrinks hwant htake
  have hsplit := congrArg List.length (List.take_append_drop k (b.bytes z.other))
  rw [List.length_append] at hsplit
  cases z <;> simp [unreceived, Side.other] at hshrinks hsplit ⊢ <;> omega

end ByteNet

namespace Refines

variable {b b' : ByteNet} {n n' : Net} {z : Side} {want : Nat}

end Refines

namespace ByteNet

variable {b b' : ByteNet} {n n' : Net} {z : Side} {want : Nat} {client srv : LinkOptions}
  {now : UInt64} {rank : Nat × Nat × Nat}

theorem opened_le (h : ∀ y, (b.peer y).link.closed = true → (b'.peer y).link.closed = true) :
    b'.opened ≤ b.opened := by
  have hle (y : Side) : (if (b'.peer y).link.closed then 0 else 1) ≤
      if (b.peer y).link.closed then 0 else 1 := by
    by_cases hy : (b.peer y).link.closed = true
    · rw [if_pos hy, if_pos (h y hy)]
    · rw [if_neg hy]
      split_ifs <;> omega
  exact Nat.add_le_add (hle .client) (hle .server)

/-- A link that fails is not open any more. -/
theorem opened_failLink (hopen : (b.peer z).link.closed = false)
    (hpeer : b'.peer = Function.update b.peer z ((b.peer z).setLink (b.peer z).link.failLink)) :
    b'.opened < b.opened := by
  cases z <;> simp [opened, hpeer, hopen]

/-- A rank of a state: the links that are open, the work that is left in the pair with frames, and
the bytes that have not been received. -/
def Rank (client srv : LinkOptions) (now : UInt64) (b : ByteNet) (rank : Nat × Nat × Nat) : Prop :=
  ∃ n, netSystem.Reach Shine.FreshSids (Net.start client srv now) n ∧ Refines b n ∧
    rank = (b.opened, n.work, b.unreceived)

/-- A step that the pair with frames follows decreases the rank. -/
theorem rank_follow (hreach : netSystem.Reach Shine.FreshSids (Net.start client srv now) n)
    (href : Refines b n) (href' : Refines b' n') (ev : NetEvent) (hworks : n.Works ev)
    (hstep : n.step ev = some n') :
    ∃ rank', WellFoundedRelation.rel rank' (b.opened, n.work, b.unreceived) ∧
      Rank client srv now b' rank' := by
  have hinv := Net.inv_of_fresh hreach
  refine ⟨_, ?_, n', hreach.tail hworks.freshSids hstep, href', rfl⟩
  have hopened : b'.opened ≤ b.opened := opened_le fun y hy => by
    rw [← href'.peer]
    exact hinv.closed_mono hworks hstep y (href.peer ▸ hy)
  have hwork : n'.work < n.work := hinv.work_step hworks hstep
  rcases Nat.lt_or_eq_of_le hopened with hlt | heq
  · exact Prod.Lex.left _ _ hlt
  · rw [heq]
    exact Prod.Lex.right _ (Prod.Lex.left _ _ hwork)

/-- Every step of the links and their applications decreases the rank. -/
theorem Rank.step (h : Rank client srv now b rank) (hwant : 0 < want) {ev : ByteEvent}
    (hworks : b.Works ev) (hstep : b.step want ev = some b') :
    ∃ rank', WellFoundedRelation.rel rank' rank ∧ Rank client srv now b' rank' := by
  obtain ⟨n, hreach, href, rfl⟩ := h
  cases ev with
  | act z act =>
    obtain ⟨n', hn', href'⟩ := href.act hstep
    have hact : act.Works (n.peer z) := by
      rw [href.peer]
      exact hworks
    exact rank_follow hreach href href' (.act z act) hact hn'
  | flush z =>
    obtain ⟨n', hn', href'⟩ := href.flush hstep
    exact rank_follow hreach href href' (.flush z) trivial hn'
  | recv z k =>
    obtain ⟨hpeer, hlt⟩ := works_recv hwant hworks hstep
    refine ⟨_, ?_, n, hreach, href.recv hstep, rfl⟩
    rw [show b'.opened = b.opened by simp only [opened, hpeer]]
    exact Prod.Lex.right _ (Prod.Lex.right _ hlt)
  | turn z now =>
    obtain ⟨hopen, hframe | hfail⟩ := href.turn hstep
    · obtain ⟨k, f, n', hread, ⟨rest, hwire⟩, hn', href'⟩ := hframe
      refine rank_follow hreach href href' (.dispatch z now) ⟨?_, fun g _ hcons => ?_⟩ hn'
      · rw [href.peer]
        exact hworks.1
      · rw [hwire] at hcons
        cases hcons
        rw [href.peer]
        exact hworks.2 k f hread
    · obtain ⟨n', hn', href', hpeer⟩ := hfail
      exact ⟨_, Prod.Lex.left _ _ (opened_failLink hopen hpeer), n',
        hreach.tail (e := .act z .failLink) trivial hn', href', rfl⟩
  | cut z k => exact hworks.elim

end ByteNet

end Shine
