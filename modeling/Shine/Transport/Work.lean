import Shine.Lib.Ends
import Shine.Transport.Guarantees

/-!
# The work that is left to two links

When nobody calls anything new but `read`, the coroutines of two links come to an end: the
writers take credit and enqueue chunks, the links carry frames and dispatch them, the readers
copy payloads out and grant credit back. `Works` says which steps these are, with the
suspensions that `Transport.Pair` leaves to the schedule: `write_chan_` holds 1024 frames, and
`dispatchFrame` waits while a payload is beyond the capacity of an inbox.

`Net.work` weighs what is left. A byte is weighed for each of its stations, a frame for its
dispatch and its answer, a reader for what is ahead of it in its turn; every step of `Works`
decreases the sum (`Net.work_step`).
-/

namespace Shine

open ShineFrame End

/-! ## Steps of the links and of their applications -/

/-- The reader coroutine enqueues an answer. -/
def ShineFrame.answered : ShineFrame → Bool
  | .new .. | .newUdp _ | .ping _ => true
  | _ => false

/-- A payload waits with the coroutine that sends it to the inbox. -/
def Session.inboxBlocked (s : Session) : Bool :=
  match s.io with
  | .tcp inbox _ => inbox.sendBlocked && !inbox.closed
  | .udp _ => false

/-- There is room in `write_chan_`. -/
def Link.Room (l : Link) : Prop := l.writeChan.length < 1024

/-- A step of a call that is under way, or of a call of `read` that does not find the end of the
stream. -/
def LocalAct.Works (pe : Peer) : LocalAct → Prop
  | .takeChunk _ | .abortWrite _ | .receive _ | .checkWindow _ => True
  | .sendChunk _ | .sendWindow _ | .runPosted => pe.link.Room
  | .read p k => 0 < k ∧ ∀ s, pe.link.heap p = some s → s.readStart k ≠ .eof
  | _ => False

/-- A step of the links' coroutines, or of their applications' that go on reading. -/
def Net.Works (n : Net) : NetEvent → Prop
  | .act z act => act.Works (n.peer z)
  | .flush _ => True
  | .dispatch z _ => (∀ p s, (n.peer z).link.heap p = some s → s.inboxBlocked = false) ∧
      ∀ f rest, n.wire z.other = f :: rest → f.answered = true → (n.peer z).link.Room
  | .cut .. => False

/-! ## Weights -/

/-- The weight of a frame on the connection. -/
def ShineFrame.work : ShineFrame → Nat
  | .data _ payload => 6 * payload.length + 7
  | .new .. | .newUdp _ => 4
  | .ping _ => 3
  | .close .. | .reset _ => 2
  | _ => 1

def Writer.work : Writer → Nat
  | .idle => 0
  | .writing _ rest => 16 * rest.length + 1
  | .sending _ rest chunk => 16 * rest.length + 6 * chunk.length + 10

/-- A reader whose inbox is closed does not wait again. -/
def Reading.work (inboxClosed : Bool) : Reading → Nat
  | .idle => if inboxClosed then 0 else 1
  | .waiting _ => if inboxClosed then 1 else 0
  | .acking => 5
  | .granting _ => 4

/-- The weight of what is to be read. -/
def Session.work (s : Session) : Nat :=
  6 * s.unread.length + (s.inboxQueue.map fun c => 6 * c.length + 6).sum

/-- The weight of a session object and its coroutines. -/
def App.work (a : App) (s : Session) : Nat :=
  a.writer.work + a.reader.work s.inboxClosed + s.work

/-- The weight of the frames that are not on the connection yet. -/
def Link.work (l : Link) : Nat :=
  (l.writeChan.map fun f => f.work + 1).sum + (l.posted.map fun f => f.work + 2).sum

/-- The weight of one end. -/
def Peer.work (pe : Peer) : Nat :=
  pe.link.work + ∑ p ∈ Finset.range pe.link.next,
    (pe.link.heap p).elim 0 fun s => (pe.app s.sid).work s

/-- The weight of one end and what it has on the connection. -/
def Net.sideWork (n : Net) (z : Side) : Nat :=
  (n.peer z).work + ((n.wire z).map ShineFrame.work).sum

/-- What is left to do. -/
def Net.work (n : Net) : Nat := n.sideWork .client + n.sideWork .server

theorem Reading.idle_work_le (inboxClosed : Bool) : Reading.idle.work inboxClosed ≤ 1 := by
  unfold Reading.work
  split_ifs <;> decide

theorem Net.work_eq (n : Net) (z : Side) : n.work = n.sideWork z + n.sideWork z.other := by
  cases z with
  | client => rfl
  | server => exact Nat.add_comm ..

/-! ## What the methods of a session do to its weight -/

namespace Session

variable {s s' : Session} {n : Nat} {out : Bytes}

theorem work_congr (hunread : s'.unread = s.unread) (hqueue : s'.inboxQueue = s.inboxQueue) :
    s'.work = s.work := by
  rw [work, work, hunread, hqueue]

theorem onData_work (s : Session) (payload : Bytes) :
    (s.onData payload).work ≤ s.work + (6 * payload.length + 6) := by
  have hunread := (s.onData_fields payload).2.1
  cases hio : s.io with
  | udp _ =>
    have hsame : s.onData payload = s := by simp [onData, hio]
    rw [hsame]
    exact Nat.le_add_right ..
  | tcp inbox creditSignal =>
    have htcp : s.protocol = .tcp := by simp [protocol, hio]
    by_cases hclosed : s.inboxClosed = true
    · rw [onData_of_closed htcp hclosed]
      exact Nat.le_add_right ..
    by_cases hne : payload = []
    · have hsame : s.onData payload = s := by simp [onData, hio, hne]
      rw [hsame]
      exact Nat.le_add_right ..
    rw [work, work, hunread, onData_inboxQueue htcp (by simpa using hclosed) hne]
    simp only [List.map_append, List.sum_append, List.map_cons, List.map_nil, List.sum_cons,
      List.sum_nil]
    omega

/-- A `read` with room for a byte takes at least one. -/
theorem readStart_work (h : s.readStart n = .bytes out s') (hn : 0 < n) :
    s'.work + 6 ≤ s.work ∧ s'.inboxClosed = s.inboxClosed := by
  obtain ⟨hne, -, hunread, -, hio, -⟩ := readStart_bytes h
  have hlen := List.length_pos_of_ne_nil hne
  have hqueue : s'.inboxQueue = s.inboxQueue := congrArg SessionIo.queue hio
  refine ⟨?_, congrArg SessionIo.inboxClosed hio⟩
  rw [work, work, hqueue, hunread, List.length_drop]
  omega

theorem keepRest_unread (s : Session) (pay : Bytes) (n : Nat) :
    (s.keepRest pay n).unread.length ≤ s.unread.length + pay.length := by
  unfold keepRest
  split_ifs
  · show (pay.drop _).length ≤ _
    rw [List.length_drop]
    omega
  · exact Nat.le_add_right ..

/-- A payload is taken out of the queue. -/
theorem receive_work (h : s.receive n = .bytes out s') :
    s'.work + 6 ≤ s.work ∧ s'.inboxClosed = s.inboxClosed := by
  obtain ⟨-, -, -, -, -, -, -, hclosed, -⟩ := receive_bytes h
  refine ⟨?_, hclosed⟩
  unfold receive at h
  cases hio : s.io with
  | udp _ => simp [hio] at h
  | tcp inbox creditSignal =>
    simp only [hio, Chan.receive] at h
    cases hq : inbox.queue with
    | nil =>
      simp only [hq] at h
      split_ifs at h
    | cons pay rest =>
      simp only [hq] at h
      cases h
      have hleft := ({ s with io := .tcp { inbox with queue := rest } creditSignal } :
        Session).keepRest_unread pay n
      have hqueue : s.inboxQueue = pay :: rest := by simp [inboxQueue, hio, SessionIo.queue, hq]
      have hrest : ({ s with io := .tcp { inbox with queue := rest } creditSignal } :
          Session).unread = s.unread := rfl
      have hqueue' : (({ s with io := .tcp { inbox with queue := rest } creditSignal } :
          Session).keepRest pay n).inboxQueue = rest := by
        unfold keepRest
        split_ifs <;> rfl
      rw [hrest] at hleft
      rw [work, work, hqueue]
      show 6 * (keepRest _ pay n).unread.length +
        ((keepRest _ pay n).inboxQueue.map _).sum + 6 ≤ _
      rw [hqueue']
      simp only [List.map_cons, List.sum_cons]
      omega

end Session

/-! ## One end -/

namespace Link

theorem work_enqueueFrame (l : Link) (f : ShineFrame) :
    (l.enqueueFrame f).work ≤ l.work + (f.work + 1) := by
  rw [work, work, enqueueFrame_writeChan, enqueueFrame_posted]
  split_ifs
  · omega
  · simp only [List.map_append, List.sum_append, List.map_cons, List.map_nil, List.sum_cons,
      List.sum_nil]
    omega

/-- A coroutine that `Session::close` has spawned runs. -/
theorem runPosted_work {l l' : Link} (h : l.runPosted = some l') :
    l'.work < l.work ∧ l'.heap = l.heap ∧ l'.next = l.next := by
  unfold runPosted at h
  split at h
  · cases h
  · rename_i f rest hposted
    cases h
    refine ⟨(work_enqueueFrame _ f).trans_lt ?_, by simp, by simp⟩
    simp only [work, hposted, List.map_cons, List.sum_cons]
    omega

end Link

namespace Peer

variable {pe pe' : Peer} {p : Nat} {s s' : Session} {act : LocalAct}

/-- The weight of the object at a pointer. -/
def workAt (pe : Peer) (p : Nat) : Nat := (pe.link.heap p).elim 0 fun s => (pe.app s.sid).work s

theorem work_congr (hwork : pe'.link.work = pe.link.work) (hheap : pe'.link.heap = pe.link.heap)
    (hnext : pe'.link.next = pe.link.next) (happ : pe'.app = pe.app) : pe'.work = pe.work := by
  rw [work, work, hwork, hheap, hnext, happ]

/-- Only the object at `p` and its coroutines change. -/
theorem work_change (hd : pe.link.Distinct) (hp : pe.link.heap p = some s) (pe' : Peer)
    (hnext : pe'.link.next = pe.link.next) (hp' : pe'.link.heap p = some s')
    (hheap : ∀ q, q ≠ p → pe'.link.heap q = pe.link.heap q)
    (happ : ∀ sid, sid ≠ s.sid → pe'.app sid = pe.app sid) :
    pe'.work + (pe.link.work + (pe.app s.sid).work s)
      = pe.work + (pe'.link.work + (pe'.app s'.sid).work s') := by
  have hmem : p ∈ Finset.range pe.link.next := by
    rw [Finset.mem_range]
    by_contra hge
    rw [hd.unused p (Nat.le_of_not_lt hge)] at hp
    cases hp
  have hrest : ∑ q ∈ (Finset.range pe.link.next).erase p, pe'.workAt q
      = ∑ q ∈ (Finset.range pe.link.next).erase p, pe.workAt q := by
    refine Finset.sum_congr rfl fun q hq => ?_
    have hne := Finset.ne_of_mem_erase hq
    rw [workAt, workAt, hheap q hne]
    cases hqs : pe.link.heap q with
    | none => rfl
    | some t =>
      have hsid : t.sid ≠ s.sid := fun heq => hne (hd.inj q p t s hqs hp heq)
      simp only [Option.elim_some, happ _ hsid]
  have hold : pe.workAt p + ∑ q ∈ (Finset.range pe.link.next).erase p, pe.workAt q
      = ∑ q ∈ Finset.range pe.link.next, pe.workAt q := Finset.add_sum_erase _ _ hmem
  have hnew : pe'.workAt p + ∑ q ∈ (Finset.range pe.link.next).erase p, pe'.workAt q
      = ∑ q ∈ Finset.range pe.link.next, pe'.workAt q := Finset.add_sum_erase _ _ hmem
  have hat : pe.workAt p = (pe.app s.sid).work s := by rw [workAt, hp, Option.elim_some]
  have hat' : pe'.workAt p = (pe'.app s'.sid).work s' := by rw [workAt, hp', Option.elim_some]
  have hw : pe.work = pe.link.work + ∑ q ∈ Finset.range pe.link.next, pe.workAt q := rfl
  have hw' : pe'.work = pe'.link.work + ∑ q ∈ Finset.range pe.link.next, pe'.workAt q := by
    rw [← hnext]
    rfl
  omega

section Calls

variable (hd : pe.link.Distinct) (hp : pe.link.heap p = some s)

include hd hp

theorem setApp_work {a : App} (h : a.work s < (pe.app s.sid).work s) :
    (pe.setApp s.sid a).work < pe.work := by
  have heq : (pe.setApp s.sid a).work + _ = _ := work_change hd hp _ rfl hp (fun _ _ => rfl)
    fun sid hne => Function.update_of_ne hne ..
  have happ : (pe.setApp s.sid a).app s.sid = a := Function.update_self ..
  have hlink : (pe.setApp s.sid a).link.work = pe.link.work := rfl
  rw [happ, hlink] at heq
  omega

theorem update_work {a : App} (hsid : s'.sid = s.sid) (h : a.work s' < (pe.app s.sid).work s) :
    (pe.update p s' a).work < pe.work := by
  have hp' : (pe.update p s' a).link.heap p = some s' := by
    show (pe.link.modify p fun _ => s').heap p = some s'
    rw [Link.modify_heap_self, hp, Option.map_some]
  have heq := work_change hd hp (pe.update p s' a) rfl hp'
    (fun q hne => by
      show (pe.link.modify p fun _ => s').heap q = _
      rw [Link.modify_heap, if_neg hne])
    fun sid hne => by
      show Function.update pe.app s'.sid a sid = _
      rw [hsid, Function.update_of_ne hne]
  have happ : (pe.update p s' a).app s'.sid = a := Function.update_self ..
  have hlink : (pe.update p s' a).link.work = pe.link.work := rfl
  rw [happ, hlink] at heq
  omega

theorem enqueue_work {f : ShineFrame} {a : App}
    (h : a.work s + (f.work + 1) < (pe.app s.sid).work s) :
    (pe.enqueue f s.sid a).work < pe.work := by
  have hheap : (pe.enqueue f s.sid a).link.heap = pe.link.heap := Link.enqueueFrame_heap ..
  have heq := work_change hd hp (pe.enqueue f s.sid a) (Link.enqueueFrame_next ..)
    (hheap ▸ hp) (fun q _ => by rw [hheap]) fun sid hne => Function.update_of_ne hne ..
  have happ : (pe.enqueue f s.sid a).app s.sid = a := Function.update_self ..
  have hlink : (pe.enqueue f s.sid a).link.work ≤ pe.link.work + (f.work + 1) :=
    pe.link.work_enqueueFrame f
  rw [happ] at heq
  omega

/-- A piece of a call that is under way. -/
theorem Piece.work (h : pe.Piece p s (pe.app s.sid) act pe') (hworks : act.Works pe)
    (hshape : s.inboxClosed = true → s.state = .closed ∨ s.state = .halfClosedRemote) :
    pe'.work < pe.work := by
  -- without a WINDOW to send, the reader is done
  have hdone (hr : (pe.app s.sid).reader = .acking) :
      (pe.setApp s.sid { pe.app s.sid with reader := .idle }).work < pe.work := by
    have hidle : Reading.idle.work s.inboxClosed < 5 :=
      Nat.lt_of_le_of_lt (Reading.idle_work_le _) (by decide)
    refine setApp_work hd hp ?_
    simp only [App.work, hr]
    exact Nat.add_lt_add_right (Nat.add_lt_add_left hidle _) _
  cases h with
  | takeChunk data rest n hw hn hpos =>
    have hle : n ≤ rest.length := hn ▸ (Nat.min_le_left ..).trans (Nat.min_le_left ..)
    refine update_work hd hp rfl ?_
    simp only [App.work, hw, Writer.work, List.length_drop, List.length_take]
    have hsame : (s.takeCredit n).work = s.work := rfl
    have hclosed : (s.takeCredit n).inboxClosed = s.inboxClosed := rfl
    rw [hsame, hclosed]
    omega
  | sendChunk data rest chunk hw =>
    refine enqueue_work hd hp ?_
    have hwriter : ((pe.app s.sid).chunkSent data rest).writer.work ≤ 16 * rest.length + 1 := by
      unfold App.chunkSent
      split_ifs
      · exact Nat.zero_le _
      · exact Nat.le_refl _
    have hsending : (pe.app s.sid).writer.work = 16 * rest.length + 6 * chunk.length + 10 := by
      rw [hw]
      rfl
    rw [App.work, App.work, End.chunkSent_reader, ShineFrame.work]
    omega
  | abortWrite data rest hw =>
    refine setApp_work hd hp ?_
    simp only [App.work, hw, Writer.work]
    omega
  | read_bytes k out s' hr hs =>
    obtain ⟨-, -, -, -, -, -, -, hsid, -⟩ := Session.readStart_bytes hs
    obtain ⟨hle, hclosed⟩ := Session.readStart_work hs hworks.1
    refine update_work hd hp hsid ?_
    simp only [App.work, hr, Reading.work]
    omega
  | read_eof k hr hs => exact absurd hs (hworks.2 s hp)
  | read_wait k hr hs =>
    have hopen : s.inboxClosed = false := by simpa using mt hshape (Session.readStart_wait hs).2
    refine setApp_work hd hp ?_
    simp only [App.work, hr, Reading.work, hopen]
    simp
  | receive_bytes k out s' hr hs =>
    obtain ⟨-, -, -, -, -, -, -, -, -, -, -, hsid, -⟩ := Session.receive_bytes hs
    obtain ⟨hle, hclosed⟩ := Session.receive_work hs
    refine update_work hd hp hsid ?_
    simp only [App.work, hr, Reading.work]
    omega
  | receive_eof k hr hs =>
    obtain ⟨-, hclosed⟩ := Session.receive_eof hs
    refine setApp_work hd hp ?_
    simp only [App.work, hr, Reading.work, hclosed]
    simp
  | check_closed hr => exact hdone hr
  | check_not_due s' hr => exact hdone hr
  | check_due delta s' hr hs =>
    obtain ⟨-, -, rfl⟩ := Session.takeWindow_some hs
    refine update_work hd hp rfl ?_
    simp only [App.work, hr, Reading.work]
    exact Nat.add_lt_add_right (Nat.add_lt_add_left (by decide) _) _
  | sendWindow delta hr =>
    refine enqueue_work hd hp ?_
    have hidle : Reading.idle.work s.inboxClosed ≤ 1 := Reading.idle_work_le _
    simp only [App.work, hr, ShineFrame.work]
    show _ < _ + 4 + _
    omega
  | _ => exact hworks.elim

end Calls

/-- The inbox of a session is closed in the states in which `read` reports the end of the
stream. -/
def Shaped (pe : Peer) : Prop := ∀ p s, pe.link.heap p = some s →
  (s.inboxClosed = true ↔ s.state = .closed ∨ s.state = .halfClosedRemote)

/-- **A step of one end decreases its weight.** -/
theorem step_work (hd : pe.link.Distinct) (hshaped : pe.Shaped) (hworks : act.Works pe)
    (h : pe.step act = some pe') : pe'.work < pe.work := by
  cases htarget : act.target with
  | some p =>
    obtain ⟨s, hp, hpiece⟩ := piece_of_step h htarget
    exact hpiece.work hd hp hworks (hshaped p s hp).mp
  | none =>
    cases act with
    | runPosted =>
      obtain ⟨l, hl, rfl⟩ := Option.map_eq_some_iff.mp h
      obtain ⟨hlt, hheap, hnext⟩ := Link.runPosted_work hl
      unfold work setLink
      rw [hheap, hnext]
      exact Nat.add_lt_add_right hlt _
    | openSession | control | failLink | closeNow => exact hworks.elim
    | _ => cases htarget

/-! ## Dispatching -/

/-- A method of the session object at `p`. -/
theorem modify_work (hd : pe.link.Distinct) (hp : pe.link.heap p = some s) {g : Session → Session}
    (hsid : (g s).sid = s.sid) {k : Nat}
    (h : (pe.app s.sid).work (g s) ≤ (pe.app s.sid).work s + k) :
    (pe.setLink (pe.link.modify p g)).work ≤ pe.work + k := by
  have hp' : (pe.link.modify p g).heap p = some (g s) := by
    rw [Link.modify_heap_self, hp, Option.map_some]
  have heq := work_change hd hp (pe.setLink (pe.link.modify p g)) rfl hp'
    (fun q hne => (pe.link.modify_heap p g q).trans (if_neg hne)) fun _ _ => rfl
  have hlink : (pe.setLink (pe.link.modify p g)).link.work = pe.link.work := rfl
  have happ : (pe.setLink (pe.link.modify p g)).app (g s).sid = pe.app s.sid := by
    rw [hsid]
    rfl
  rw [hlink, happ] at heq
  omega

/-- When the inbox is closed, a reader that waits has to be told. -/
theorem closing_work (a : App) (hqueue : s'.inboxQueue = s.inboxQueue)
    (hunread : s'.unread = s.unread) : a.work s' ≤ a.work s + 1 := by
  have hreader : a.reader.work s'.inboxClosed ≤ a.reader.work s.inboxClosed + 1 := by
    cases hreader : a.reader with
    | idle | waiting k => simp only [Reading.work]; split_ifs <;> omega
    | acking | granting delta => exact Nat.le_succ _
  rw [App.work, App.work, Session.work_congr hunread hqueue]
  omega

theorem enqueueFrame_work (pe : Peer) (f : ShineFrame) :
    (pe.setLink (pe.link.enqueueFrame f)).work ≤ pe.work + (f.work + 1) := by
  have hle := pe.link.work_enqueueFrame f
  unfold work setLink
  simp only [Link.enqueueFrame_heap, Link.enqueueFrame_next]
  omega

/-- A session object is added that nobody has used. -/
theorem emplace_work (hinit : pe.app s.sid = .init)
    (hopen : s.inboxClosed = false) (hnew : s.work = 0) :
    (pe.setLink (pe.link.emplace s)).work = pe.work + 1 := by
  have hrest : ∀ q ∈ Finset.range pe.link.next,
      (pe.setLink (pe.link.emplace s)).workAt q = pe.workAt q := by
    intro q hq
    have hne : q ≠ pe.link.next := Nat.ne_of_lt (Finset.mem_range.mp hq)
    rw [workAt, workAt, setLink_link, Link.emplace_heap, if_neg hne]
    rfl
  have hat : (pe.setLink (pe.link.emplace s)).workAt pe.link.next = 1 := by
    have happ : (pe.setLink (pe.link.emplace s)).app s.sid = .init := hinit
    rw [workAt, setLink_link, Link.emplace_heap, if_pos rfl, Option.elim_some, happ, App.work, hnew,
      hopen]
    rfl
  have hsum : ∑ q ∈ Finset.range (pe.link.next + 1), (pe.setLink (pe.link.emplace s)).workAt q
      = ∑ q ∈ Finset.range pe.link.next, pe.workAt q + 1 := by
    rw [Finset.sum_range_succ, hat, Finset.sum_congr rfl hrest]
  show pe.link.work + ∑ q ∈ Finset.range (pe.link.next + 1),
    (pe.setLink (pe.link.emplace s)).workAt q = _
  rw [hsum]
  rfl

/-- **A frame outweighs what its dispatch makes of it.** -/
theorem dispatch_work {px : Peer} {z : Side} {cap : UInt32} {f : ShineFrame} {now : UInt64}
    (hs : pe.link.Sound) (hd : pe.link.Distinct) (hown : px.link.Owns z cap f)
    (hunused : ∀ sid, f.opens sid = true → pe.app sid = .init) :
    (pe.setLink (pe.link.dispatchFrame now f)).work < pe.work + f.work := by
  have hsame {f : ShineFrame} (hf : 0 < f.work) : (pe.setLink pe.link).work < pe.work + f.work :=
    Nat.lt_add_of_pos_right hf
  -- erasing a session from the table changes no weight
  have herase (l : Link) (sid : UInt64) :
      (pe.setLink (l.eraseSession sid)).work = (pe.setLink l).work :=
    work_congr rfl rfl rfl rfl
  cases f with
  | data σ c =>
    simp only [Link.dispatchFrame]
    split
    · exact hsame (Nat.succ_pos _)
    · rename_i p hf
      obtain ⟨s, hp, -, -⟩ := hs.stored_live σ p hf
      have hclosed := (s.onData_fields c).1
      have hle :
          (pe.setLink (pe.link.modify p (·.onData c))).work ≤ pe.work + (6 * c.length + 6) := by
        refine modify_work hd hp (by simp) ?_
        have := s.onData_work c
        rw [App.work, App.work, hclosed]
        omega
      exact Nat.lt_of_le_of_lt hle (Nat.lt_succ_self _)
  | window σ delta =>
    simp only [Link.dispatchFrame]
    split
    · exact hsame Nat.one_pos
    · rename_i p hf
      obtain ⟨s, hp, -, -⟩ := hs.stored_live σ p hf
      have hle : (pe.setLink (pe.link.modify p (·.onWindow delta))).work ≤ pe.work + 0 := by
        refine modify_work hd hp rfl (Nat.le_of_eq ?_)
        have hsession : (s.onWindow delta).work = s.work :=
          Session.work_congr rfl (s.onWindow_inboxQueue delta)
        rw [App.work, App.work, Session.onWindow_inboxClosed, hsession]
        rfl
      exact Nat.lt_succ_of_le hle
  | close σ reason =>
    simp only [Link.dispatchFrame]
    split
    · exact hsame Nat.two_pos
    · rename_i p hf
      obtain ⟨s, hp, -, -⟩ := hs.stored_live σ p hf
      have hle : (pe.setLink (pe.link.modify p (·.onPeerClose))).work ≤ pe.work + 1 :=
        modify_work hd hp rfl (closing_work _ s.onPeerClose_fields.1 s.onPeerClose_fields.2.2.1)
      split_ifs
      · rw [herase]
        exact Nat.lt_succ_of_le hle
      · exact Nat.lt_succ_of_le hle
  | reset σ =>
    simp only [Link.dispatchFrame]
    split
    · exact hsame Nat.two_pos
    · rename_i p hf
      obtain ⟨s, hp, -, -⟩ := hs.stored_live σ p hf
      have hle : (pe.setLink (pe.link.modify p (·.onReset))).work ≤ pe.work + 1 :=
        modify_work hd hp rfl (closing_work _ s.onReset_inboxQueue s.onReset_unread)
      rw [herase]
      exact Nat.lt_succ_of_le hle
  | new σ addrBlob w =>
    have hinit := hunused σ (by simp [opens, isNew, concern])
    simp only [Link.dispatchFrame]
    split_ifs
    · exact hsame (Nat.succ_pos _)
    · split
      · exact Nat.lt_succ_of_le (pe.enqueueFrame_work (.reset σ))
      · rename_i target _
        have hadd : (pe.setLink (pe.link.emplace
            (.new σ target w pe.link.opts.initWindow .tcp))).work = pe.work + 1 :=
          emplace_work hinit rfl rfl
        have hack := (pe.setLink (pe.link.emplace
          (.new σ target w pe.link.opts.initWindow .tcp))).enqueueFrame_work (.ack σ)
        rw [hadd] at hack
        exact Nat.lt_succ_of_le hack
  | newUdp _ | udpData _ _ _ => exact hown.elim
  | ping nonce => exact Nat.lt_succ_of_le (pe.enqueueFrame_work (.pong nonce))
  | pong nonce =>
    simp only [Link.dispatchFrame]
    split_ifs
    · exact Nat.lt_succ_of_le (Nat.le_of_eq (work_congr rfl rfl rfl rfl))
    · exact hsame Nat.one_pos
  | ack _ | hello _ _ | auth _ | ok | err _ _ => exact hsame Nat.one_pos

end Peer

/-! ## Both ends -/

namespace Net

variable {n n' : Net} {cap server : UInt32} {strict : UInt64 → Side → Prop} {z : Side}

theorem Inv.shaped (h : n.Inv cap server strict) (z : Side) : (n.peer z).Shaped := by
  intro p s hp
  have hses : (n.endOf cap s.sid z).session = s :=
    Peer.session_of_heap (h.peers z).distinct hp
  have hshape := ((h.sessions s.sid).ok z).good.shape
  rwa [hses] at hshape

/-- The weights after a step of `z` that leaves the other end alone. -/
theorem work_lt_of_side (hz : n'.sideWork z < n.sideWork z)
    (hother : n'.sideWork z.other = n.sideWork z.other) : n'.work < n.work := by
  rw [work_eq n z, work_eq n' z, hother]
  exact Nat.add_lt_add_right hz _

/-- The writer coroutine puts a frame on the connection, or loses it. -/
theorem work_flush {f : ShineFrame} {rest : List ShineFrame}
    (hchan : (n.peer z).link.writeChan = f :: rest) :
    ((n.setPeer z ((n.peer z).setLink { (n.peer z).link with writeChan := rest })).setWire z
      (if n.cut z then n.wire z else n.wire z ++ [f])).work < n.work := by
  have hwork : (n.peer z).work
      = ((n.peer z).setLink { (n.peer z).link with writeChan := rest }).work + (f.work + 1) := by
    unfold Peer.work Peer.setLink Link.work
    simp only [hchan, List.map_cons, List.sum_cons]
    omega
  have hwire : ((if n.cut z then n.wire z else n.wire z ++ [f]).map ShineFrame.work).sum
      ≤ ((n.wire z).map ShineFrame.work).sum + f.work := by
    split_ifs
    · exact Nat.le_add_right ..
    · simp
  refine work_lt_of_side (z := z) ?_ ?_
  · simp only [sideWork, setWire_wire]
    simp only [setWire, setPeer_peer]
    dsimp only at hwork
    omega
  · simp only [sideWork, setWire_wire_other]
    simp only [setWire, setPeer_peer_other, setPeer_wire]

/-- The reader coroutine dispatches a frame. -/
theorem Inv.work_dispatch (h : n.Inv cap server strict) {f : ShineFrame} {rest : List ShineFrame}
    {now : UInt64} (hwire : n.wire z.other = f :: rest) (aborted : UInt64 → Bool) :
    ({ (n.setPeer z ((n.peer z).setLink ((n.peer z).link.dispatchFrame now f))).setWire z.other rest
        with aborted := aborted } : Net).work < n.work := by
  have hmem : f ∈ n.wire z.other := by
    rw [hwire]
    exact List.mem_cons_self
  have hown := (h.peers z.other).owned f (List.mem_append_left _ hmem)
  have hlt : ((n.peer z).setLink ((n.peer z).link.dispatchFrame now f)).work
      < (n.peer z).work + f.work := by
    refine Peer.dispatch_work (h.peers z).sound (h.peers z).distinct hown fun sid hopens => ?_
    have hnone := h.object_of_opens hmem hopens
    exact ((h.sessions sid).unborn z (by simp [endOf, Peer.endOf, hnone])).1
  rw [work_eq _ z, work_eq n z]
  simp only [sideWork, setWire_wire, setWire_other_wire]
  simp only [setWire, setPeer_peer, setPeer_peer_other, setPeer_wire]
  rw [hwire, List.map_cons, List.sum_cons]
  omega

/-- **Every step decreases the work that is left.** -/
theorem Inv.work_step (h : n.Inv cap server strict) {ev : NetEvent} (hworks : n.Works ev)
    (hstep : n.step ev = some n') : n'.work < n.work := by
  cases ev with
  | act z act =>
    obtain ⟨pe, hpe, rfl⟩ := Option.map_eq_some_iff.mp hstep
    have hlt := Peer.step_work (h.peers z).distinct (h.shaped z) hworks hpe
    refine work_lt_of_side (z := z) ?_ ?_
    · simp only [sideWork, setPeer_peer]
      exact Nat.add_lt_add_right hlt _
    · simp only [sideWork, setPeer_peer_other]
      rfl
  | flush z =>
    obtain ⟨f, rest, hchan, -, rfl⟩ := flush_of_step hstep
    exact work_flush hchan
  | dispatch z now =>
    obtain ⟨f, rest, hwire, rfl⟩ := dispatch_of_step hstep
    exact h.work_dispatch hwire _
  | cut z k => exact hworks.elim

end Net

end Shine
