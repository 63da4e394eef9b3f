import Shine.Inbound.Served

/-!
# Can two links wait for each other?

Two links whose `write_chan_` holds 1024 frames, joined by a connection that holds a bounded
number of bytes in each direction. A reader coroutine that answers a frame (ACK, RESET or
PONG) is suspended inside `enqueueFrame` while 1024 frames are ahead of its answer; a writer
coroutine is suspended inside `async_write` while the connection has no room for the next
byte of its message.

- `no_circular_wait`: as long as one of the two readers finds room in its `write_chan_`
  whenever it dispatches a frame that it answers, the four coroutines are never all suspended.
  A client answers PING only.
- `gridlock`: without that they can be, however many bytes the connection holds. Both ends
  send a PING, then datagrams until the connection and their `write_chan_` are full; both
  readers then dispatch the PING.
-/

namespace Shine

/-- How many frames `write_chan_` holds. -/
def Link.writeCap : Nat := 1024

/-- One end. `buf` is `read_buf_`, `sending` what the writer has still to write of the
message it has received, and `ahead` the number of frames in front of the answer that the
reader has enqueued last. -/
structure Station where
  served : Served
  buf : Bytes
  sending : Bytes
  ahead : Option Nat

namespace Station

def link (st : Station) : Link := st.served.link

/-- The reader is suspended inside `enqueueFrame`. -/
def ReaderWaits (st : Station) : Prop :=
  st.link.closed = false ∧ ∃ k, st.ahead = some k ∧ Link.writeCap ≤ k

instance (st : Station) : Decidable st.ReaderWaits :=
  match h : st.ahead with
  | none => .isFalse fun ⟨_, _, hk, _⟩ => by rw [h] at hk; cases hk
  | some k =>
    decidable_of_iff (st.link.closed = false ∧ Link.writeCap ≤ k)
      ⟨fun ⟨hc, hk⟩ => ⟨hc, k, h, hk⟩, fun ⟨hc, k', hk', hle⟩ => by
        rw [h] at hk'; cases hk'; exact ⟨hc, hle⟩⟩

/-- The writer receives the first message of `write_chan_`. -/
def take (st : Station) : Option Station :=
  if st.sending ≠ [] then none
  else match st.link.writeChan with
    | [] => none
    | f :: _ => (st.served.step .flush).map fun w =>
      { st with
        served := w
        sending := encode f
        ahead := st.ahead.bind fun k => if k = 0 then none else some (k - 1) }

/-- The reader dispatches the frame at the front of `read_buf_`. It goes on with the next
one once its answer, if there is one, has found room. -/
def dispatch (st : Station) (now : UInt64) (n : Nat) (f : ShineFrame) : Station :=
  { st with
    served := st.served.setLink (st.link.dispatchFrame now f)
    buf := st.buf.drop n
    ahead :=
      if st.link.writeChan.length < (st.link.dispatchFrame now f).writeChan.length then
        some st.link.writeChan.length
      else none }

end Station

/-- The two ends and the bytes that each has put on the connection. -/
structure Grid where
  station : Side → Station
  wire : Side → Bytes

namespace Grid

/-- What can happen. -/
inductive Event where
  /-- Anything that another coroutine does on the link. -/
  | other (z : Side) (e : Served.Event)
  | take (z : Side)
  /-- `async_write` hands over `k` bytes. -/
  | push (z : Side) (k : Nat)
  /-- `async_read_some` returns `k` bytes. -/
  | read (z : Side) (k : Nat)
  | dispatch (z : Side) (now : UInt64)

/-- The steps of the other coroutines: all but those of the reader and the writer. -/
def aside : Served.Event → Bool
  | .dispatch .. | .flush => false
  | _ => true

def setStation (g : Grid) (z : Side) (st : Station) : Grid :=
  { g with station := Function.update g.station z st }

def setWire (g : Grid) (z : Side) (bytes : Bytes) : Grid :=
  { g with wire := Function.update g.wire z bytes }

/-- The effect of an event; `cap z` bytes fit on the connection from `z`. -/
def step (cap : Side → Nat) (g : Grid) : Event → Option Grid
  | .other z e =>
    if aside e then
      ((g.station z).served.step e).map fun w => g.setStation z { g.station z with served := w }
    else none
  | .take z => (g.station z).take.map (g.setStation z)
  | .push z k =>
    let st := g.station z
    if st.link.closed = false ∧ 0 < k ∧ k ≤ st.sending.length ∧ (g.wire z).length + k ≤ cap z then
      some ((g.setStation z { st with sending := st.sending.drop k }).setWire z
        (g.wire z ++ st.sending.take k))
    else none
  | .read z k =>
    let st := g.station z
    if st.link.closed = false ∧ ¬ st.ReaderWaits ∧
        attempt st.link.opts.maxPayload st.buf = .more ∧ 0 < k ∧ k ≤ (g.wire z.other).length then
      some ((g.setStation z { st with buf := st.buf ++ (g.wire z.other).take k }).setWire z.other
        ((g.wire z.other).drop k))
    else none
  | .dispatch z now =>
    let st := g.station z
    if st.link.closed = false ∧ ¬ st.ReaderWaits then
      match attempt st.link.opts.maxPayload st.buf with
      | .more => none
      | .frame n f => some (g.setStation z (st.dispatch now n f))
      | .refused _ | .undecodable _ _ =>
        some (g.setStation z { st with served := st.served.setLink st.link.failLink })
    else none

/-- The pair of links on a connection with these capacities. -/
def system (cap : Side → Nat) : Lts Grid Event := ⟨step cap⟩

/-- Two links after their handshake; only the server has a handler. -/
def start (co so : LinkOptions) : Grid where
  station
    | .client => ⟨⟨.new co false 0, [], none⟩, [], [], none⟩
    | .server => ⟨.start so 0, [], [], none⟩
  wire := fun _ => []

/-- The writer is suspended on a full connection. -/
def WriterWaits (cap : Side → Nat) (g : Grid) (z : Side) : Prop :=
  (g.station z).link.closed = false ∧ (g.station z).sending ≠ [] ∧ cap z ≤ (g.wire z).length

/-- All four coroutines are suspended. -/
def CircularWait (cap : Side → Nat) (g : Grid) : Prop :=
  ∀ z, (g.station z).ReaderWaits ∧ g.WriterWaits cap z

/-- The frames that an end answers: a client has no handler for new sessions. -/
def answers : Side → ShineFrame → Bool
  | _, .ping _ => true
  | .server, .new .. | .server, .newUdp _ => true
  | _, _ => false

/-- The reader of `z` dispatches a frame that it answers only while its `write_chan_` has
room. -/
def RoomToAnswer (z : Side) (g : Grid) : Event → Prop
  | .dispatch y _ => y = z → ∀ n f,
    attempt (g.station z).link.opts.maxPayload (g.station z).buf = .frame n f →
      answers z f = true → (g.station z).link.writeChan.length < Link.writeCap
  | _ => True

/-! ## One reader with room is enough -/

/-- Only the frames that an end answers add to `write_chan_`. -/
theorem writeChan_of_not_answered {z : Side} {l : Link} {f : ShineFrame}
    (hhandler : l.onNewSession = true → z = .server) (hf : answers z f = false) (now : UInt64) :
    (l.dispatchFrame now f).writeChan = l.writeChan := by
  cases f with
  | data _ _ | window _ _ => simp only [Link.dispatchFrame]; split <;> rfl
  | udpData _ _ _ =>
    simp only [Link.dispatchFrame]
    split
    · rfl
    · split <;> rfl
  | new sid blob win =>
    cases hh : l.onNewSession with
    | false => simp [Link.dispatchFrame, hh]
    | true =>
      rw [hhandler hh] at hf
      cases hf
  | newUdp sid =>
    cases hh : l.onNewSession with
    | false => simp [Link.dispatchFrame, hh]
    | true =>
      rw [hhandler hh] at hf
      cases hf
  | close _ _ =>
    simp only [Link.dispatchFrame]
    split
    · rfl
    · split_ifs <;> rfl
  | reset _ => simp only [Link.dispatchFrame]; split <;> rfl
  | ping _ => cases z <;> cases hf
  | pong _ => simp only [Link.dispatchFrame]; split_ifs <;> rfl
  | ack _ | hello _ _ | auth _ | ok | err _ _ => rfl

variable {cap : Side → Nat} {g g' : Grid} {z : Side}

/-- What one reader can rely on: a client has no handler, and the reader of `z` has found
room for its last answer. -/
structure Inv (z : Side) (g : Grid) : Prop where
  handler : (g.station .client).link.onNewSession = false
  room : ∀ k, (g.station z).ahead = some k → k < Link.writeCap

theorem setStation_self (g : Grid) (z : Side) (st : Station) :
    (g.setStation z st).station z = st := Function.update_self ..

theorem setStation_other (g : Grid) (z : Side) (st : Station) :
    (g.setStation z st).station z.other = g.station z.other :=
  Function.update_of_ne (Side.other_ne z) ..

/-- A step of one end that keeps its handler. -/
theorem Inv.set (h : Inv z g) {y : Side} {st : Station}
    (hhandler : st.link.onNewSession = (g.station y).link.onNewSession)
    (hroom : y = z → ∀ k, st.ahead = some k → k < Link.writeCap) : Inv z (g.setStation y st) := by
  have hat : ∀ x, (g.setStation y st).station x = if x = y then st else g.station x :=
    fun x => Function.update_apply ..
  constructor
  · rw [hat]
    split_ifs with hy
    · rw [hhandler, ← hy, h.handler]
    · exact h.handler
  · intro k hk
    rw [hat] at hk
    split_ifs at hk with hy
    · exact hroom hy.symm k hk
    · exact h.room k hk

/-- Only a server has a handler. -/
theorem Inv.isServer (h : Inv z g) (y : Side) :
    (g.station y).link.onNewSession = true → y = .server := by
  intro hy
  cases y with
  | server => rfl
  | client =>
    rw [h.handler] at hy
    cases hy

/-- **Every step in which the reader of `z` has room for its answer.** -/
theorem Inv.step (h : Inv z g) {e : Event} (hok : RoomToAnswer z g e)
    (hstep : (system cap).step g e = some g') : Inv z g' := by
  change Grid.step cap g e = some g' at hstep
  cases e with
  | other y e =>
    simp only [Grid.step] at hstep
    split_ifs at hstep
    obtain ⟨w, hw, rfl⟩ := Option.map_eq_some_iff.mp hstep
    refine h.set (Served.step_kept hw).1 ?_
    rintro rfl k hk
    exact h.room k hk
  | take y =>
    obtain ⟨st, htake, rfl⟩ := Option.map_eq_some_iff.mp hstep
    unfold Station.take at htake
    split_ifs at htake
    split at htake
    · cases htake
    · obtain ⟨w, hw, rfl⟩ := Option.map_eq_some_iff.mp htake
      refine h.set (Served.step_kept hw).1 ?_
      rintro rfl k hk
      -- one frame less is ahead of the answer
      obtain ⟨k₀, hk₀, hless⟩ := Option.bind_eq_some_iff.mp hk
      have := h.room k₀ hk₀
      split_ifs at hless
      cases hless
      omega
  | push y k =>
    simp only [Grid.step] at hstep
    split_ifs at hstep
    cases hstep
    have hset : Inv z (g.setStation y
        { g.station y with sending := (g.station y).sending.drop k }) :=
      h.set rfl (by rintro rfl k hk; exact h.room k hk)
    exact ⟨hset.handler, hset.room⟩
  | read y k =>
    simp only [Grid.step] at hstep
    split_ifs at hstep
    cases hstep
    have hset : Inv z (g.setStation y
        { g.station y with buf := (g.station y).buf ++ (g.wire y.other).take k }) :=
      h.set rfl (by rintro rfl k hk; exact h.room k hk)
    exact ⟨hset.handler, hset.room⟩
  | dispatch y now =>
    simp only [Grid.step] at hstep
    split_ifs at hstep
    split at hstep
    · cases hstep
    · rename_i n f hframe
      cases hstep
      refine h.set ((g.station y).link.dispatchFrame_kept f now).2.1 ?_
      rintro rfl k hk
      unfold Station.dispatch at hk
      simp only at hk
      split_ifs at hk with hgrew
      cases hk
      refine hok rfl n f hframe ?_
      by_contra hans
      rw [writeChan_of_not_answered (h.isServer y) (by simpa using hans) now] at hgrew
      exact Nat.lt_irrefl _ hgrew
    all_goals
      cases hstep
      refine h.set (Link.failLink_onNewSession _) ?_
      rintro rfl k hk
      exact h.room k hk

/-- **No circular wait while one reader has room to answer.** In every run in which the reader
of one of the links, whichever, dispatches a frame that it answers only while its own
`write_chan_` has room, the two readers and the two writers are never all suspended. -/
theorem no_circular_wait (cap : Side → Nat) (co so : LinkOptions) (z : Side) (g : Grid)
    (h : (system cap).Reach (RoomToAnswer z) (.start co so) g) : ¬ g.CircularWait cap := by
  have hinv : Inv z g := by
    refine h.invariant ?_ fun _ _ _ hi hok hstep => hi.step hok hstep
    refine ⟨rfl, fun k hk => ?_⟩
    cases z <;> cases hk
  intro hwait
  obtain ⟨-, k, hk, hfull⟩ := (hwait z).1
  have := hinv.room k hk
  omega

theorem roomToAnswer_of_lt (e : Event)
    (h : (g.station z).link.writeChan.length < Link.writeCap) : RoomToAnswer z g e := by
  cases e with
  | dispatch y now => exact fun _ _ _ _ _ => h
  | other _ _ | take _ | push _ _ | read _ _ => trivial

/-- The server sends a PING, and the client answers it. -/
def pingEvents : List Event :=
  [.other .server (.control (.ping 1)), .take .server, .push .server 28, .read .client 28,
    .dispatch .client 0]

theorem no_circular_wait_one_ping :
    ∃ g, (system (fun _ => 64)).Reach (RoomToAnswer .client)
        (.start Link.sampleOpts Link.sampleOpts) g ∧
      (g.station .client).link.writeChan = [.pong 1] ∧ ¬ g.CircularWait fun _ => 64 := by
  have hexec : ((system (fun _ => 64)).exec
      (fun g _ => (g.station .client).link.writeChan.length < Link.writeCap)
      (.start Link.sampleOpts Link.sampleOpts) pingEvents).map
        (fun g => (g.station .client).link.writeChan) = some [.pong 1] := by
    decide +kernel
  obtain ⟨g, hrun, hpong⟩ := Option.map_eq_some_iff.mp hexec
  have hreach := (Lts.reach_of_exec _ hrun).mono fun _ e hroom => roomToAnswer_of_lt e hroom
  exact ⟨g, hreach, hpong, no_circular_wait _ _ _ .client g hreach⟩

/-! ## A run into the circular wait -/

/-- The pair, seen from `z`: its end and what it has put on the connection come first. -/
def pairOf (z : Side) (a b : Station) (u v : Bytes) : Grid where
  station y := if y = z then a else b
  wire y := if y = z then u else v

section PairOf

variable {a a' b : Station} {u v : Bytes} {k : Nat}

@[simp] theorem pairOf_station : (pairOf z a b u v).station z = a := if_pos rfl

@[simp] theorem pairOf_station_other : (pairOf z a b u v).station z.other = b :=
  if_neg (Side.other_ne z)

@[simp] theorem pairOf_wire : (pairOf z a b u v).wire z = u := if_pos rfl

@[simp] theorem pairOf_wire_other : (pairOf z a b u v).wire z.other = v :=
  if_neg (Side.other_ne z)

theorem ext {g g' : Grid} (hs : ∀ y, g.station y = g'.station y)
    (hw : ∀ y, g.wire y = g'.wire y) : g = g' := by
  cases g
  cases g'
  rw [mk.injEq]
  exact ⟨funext hs, funext hw⟩

theorem pairOf_swap : pairOf z.other b a v u = pairOf z a b u v := by
  refine ext (fun y => ?_) fun y => ?_ <;> rcases Side.eq_or_other y z with rfl | rfl <;>
    simp [pairOf]

theorem setStation_pairOf : (pairOf z a b u v).setStation z a' = pairOf z a' b u v := by
  refine ext (fun y => ?_) fun y => rfl
  rcases Side.eq_or_other y z with rfl | rfl
  · rw [setStation_self, pairOf_station]
  · rw [setStation_other, pairOf_station_other, pairOf_station_other]

theorem setWire_pairOf {bytes : Bytes} :
    (pairOf z a b u v).setWire z bytes = pairOf z a b bytes v := by
  refine ext (fun y => rfl) fun y => ?_
  rcases Side.eq_or_other y z with rfl | rfl <;> simp [setWire, pairOf]

theorem setWire_other_pairOf {bytes : Bytes} :
    (pairOf z a b u v).setWire z.other bytes = pairOf z a b u bytes := by
  rw [← pairOf_swap, setWire_pairOf, pairOf_swap]

/-- Another coroutine does something on the link of `z`. -/
theorem reach_other {e : Served.Event} {w : Served} (hstep : a.served.step e = some w)
    (haside : aside e = true) : (system cap).Reach Lts.Free (pairOf z a b u v)
      (pairOf z { a with served := w } b u v) := by
  refine Lts.Reach.refl.tail (e := .other z e) trivial ?_
  show (if aside e then _ else none) = _
  rw [if_pos haside, pairOf_station, hstep, Option.map_some, setStation_pairOf]

theorem reach_take (hstep : a.take = some a') : (system cap).Reach Lts.Free (pairOf z a b u v)
    (pairOf z a' b u v) := by
  refine Lts.Reach.refl.tail (e := .take z) trivial ?_
  show ((pairOf z a b u v).station z).take.map _ = _
  rw [pairOf_station, hstep, Option.map_some, setStation_pairOf]

theorem reach_push (hlive : a.link.closed = false) (hpos : 0 < k) (hk : k ≤ a.sending.length)
    (hroom : u.length + k ≤ cap z) : (system cap).Reach Lts.Free (pairOf z a b u v)
      (pairOf z { a with sending := a.sending.drop k } b (u ++ a.sending.take k) v) := by
  refine Lts.Reach.refl.tail (e := .push z k) trivial ?_
  show Grid.step cap (pairOf z a b u v) (.push z k) = _
  simp only [Grid.step, pairOf_station, pairOf_wire]
  rw [if_pos ⟨hlive, hpos, hk, hroom⟩, setStation_pairOf, setWire_pairOf]

theorem reach_read (hlive : a.link.closed = false) (hready : ¬ a.ReaderWaits)
    (hmore : attempt a.link.opts.maxPayload a.buf = .more) (hpos : 0 < k) (hk : k ≤ v.length) :
    (system cap).Reach Lts.Free (pairOf z a b u v)
      (pairOf z { a with buf := a.buf ++ v.take k } b u (v.drop k)) := by
  refine Lts.Reach.refl.tail (e := .read z k) trivial ?_
  show Grid.step cap (pairOf z a b u v) (.read z k) = _
  simp only [Grid.step, pairOf_station, pairOf_wire_other]
  rw [if_pos ⟨hlive, hready, hmore, hpos, hk⟩, setStation_pairOf, setWire_other_pairOf]

theorem reach_dispatch (hlive : a.link.closed = false) (hready : ¬ a.ReaderWaits) {f : ShineFrame}
    (hframe : attempt a.link.opts.maxPayload a.buf = .frame k f) :
    (system cap).Reach Lts.Free (pairOf z a b u v) (pairOf z (a.dispatch 0 k f) b u v) := by
  refine Lts.Reach.refl.tail (e := .dispatch z 0) trivial ?_
  show Grid.step cap (pairOf z a b u v) (.dispatch z 0) = _
  simp only [Grid.step, pairOf_station]
  rw [if_pos ⟨hlive, hready⟩]
  simp only [hframe]
  rw [setStation_pairOf]

end PairOf

/-- An open link whose reader has found room for its answers. -/
structure Ready (a : Station) : Prop where
  live : a.link.closed = false
  room : ∀ k, a.ahead = some k → k < Link.writeCap

theorem Ready.not_waits {a : Station} (h : Ready a) : ¬ a.ReaderWaits := by
  rintro ⟨-, k, hk, hfull⟩
  have := h.room k hk
  omega

theorem take_eq {a : Station} {f : ShineFrame} {rest : List ShineFrame} (h : Ready a)
    (hidle : a.sending = []) (hchan : a.link.writeChan = f :: rest) :
    ∃ a', a.take = some a' ∧ Ready a' ∧ a'.link = { a.link with writeChan := rest } ∧
      a'.sending = encode f ∧ a'.buf = a.buf := by
  have hchan' : a.served.link.writeChan = f :: rest := hchan
  have hlive : a.served.link.closed = false := h.live
  have hflush : a.served.step .flush = some { a.served with
      link := { a.served.link with writeChan := rest }, sent := a.served.sent ++ [f] } := by
    simp only [Served.step, hchan', hlive]
    rfl
  refine ⟨{ a with
    served := { a.served with
      link := { a.served.link with writeChan := rest }, sent := a.served.sent ++ [f] }
    sending := encode f
    ahead := a.ahead.bind fun k => if k = 0 then none else some (k - 1) }, ?_, ?_, rfl, rfl, rfl⟩
  · unfold Station.take
    rw [if_neg (by simp [hidle])]
    simp only [hchan, hflush, Option.map_some]
  · refine ⟨h.live, fun k hk => ?_⟩
    obtain ⟨k₀, hk₀, hless⟩ := Option.bind_eq_some_iff.mp hk
    have := h.room k₀ hk₀
    split_ifs at hless
    cases hless
    omega

variable {a b : Station} {u v : Bytes}

/-- The writer receives a message and writes the first `k` bytes of it. -/
theorem write_part {f : ShineFrame} {k : Nat} (ha : Ready a) (hidle : a.sending = [])
    (hchan : a.link.writeChan = [f]) (hpos : 0 < k) (hk : k ≤ (encode f).length)
    (hroom : u.length + k ≤ cap z) :
    ∃ a', (system cap).Reach Lts.Free (pairOf z a b u v)
        (pairOf z a' b (u ++ (encode f).take k) v) ∧
      Ready a' ∧ a'.link = { a.link with writeChan := [] } ∧ a'.sending = (encode f).drop k ∧
      a'.buf = a.buf := by
  obtain ⟨a₁, htake, ha₁, hlink₁, hsending₁, hbuf₁⟩ := take_eq ha hidle hchan
  have hpush : (system cap).Reach Lts.Free (pairOf z a₁ b u v) _ :=
    reach_push ha₁.live hpos (by rw [hsending₁]; exact hk) hroom
  rw [hsending₁] at hpush
  exact ⟨{ a₁ with sending := (encode f).drop k }, (reach_take htake).trans hpush,
    ⟨ha₁.live, ha₁.room⟩, hlink₁, rfl, hbuf₁⟩

theorem encode_pos (f : ShineFrame) : 0 < (encode f).length := by
  rw [encode_eq]
  split <;> simp [writeBulk, writeBulkHeader, writeArray]

/-- **A message crosses the connection** and is dispatched. -/
theorem carry {f : ShineFrame} (ha : Ready a) (hb : Ready b) (hidle : a.sending = [])
    (hchan : a.link.writeChan = [f]) (hbuf : b.buf = [])
    (hfits : Fits b.link.opts.maxPayload f) (hcap : (encode f).length ≤ cap z)
    (hroom : b.link.writeChan.length < Link.writeCap) :
    ∃ a' b', (system cap).Reach Lts.Free (pairOf z a b [] v) (pairOf z a' b' [] v) ∧
      Ready a' ∧ a'.link = { a.link with writeChan := [] } ∧ a'.sending = [] ∧ a'.buf = a.buf ∧
      Ready b' ∧ b'.link = b.link.dispatchFrame 0 f ∧ b'.sending = b.sending ∧ b'.buf = [] := by
  obtain ⟨a', hwrite, ha', hlink', hsending', hbuf'⟩ := write_part (b := b) (u := []) (v := v) ha
    hidle hchan (encode_pos f) (Nat.le_refl _) (by simpa using hcap)
  rw [List.nil_append, List.take_length] at hwrite
  rw [List.drop_length] at hsending'
  -- the other end reads the message as a whole
  have hread : (system cap).Reach Lts.Free
      (pairOf z.other b a' v (encode f))
      (pairOf z.other { b with buf := encode f } a' v []) := by
    have hmore : attempt b.link.opts.maxPayload b.buf = .more := by rw [hbuf, attempt_nil]
    have hall : (system cap).Reach Lts.Free
        (pairOf z.other b a' v (encode f)) _ :=
      reach_read hb.live hb.not_waits hmore (encode_pos f) (Nat.le_refl _)
    rwa [hbuf, List.nil_append, List.take_length, List.drop_length] at hall
  have hframe : attempt b.link.opts.maxPayload (encode f) = .frame (encode f).length f := by
    simpa using attempt_encode [] hfits
  have hb₁ : Ready { b with buf := encode f } := ⟨hb.live, hb.room⟩
  have hdispatch : (system cap).Reach Lts.Free
      (pairOf z.other { b with buf := encode f } a' v []) _ :=
    reach_dispatch hb₁.live hb₁.not_waits hframe
  rw [pairOf_swap] at hread hdispatch
  rw [pairOf_swap] at hread hdispatch
  refine ⟨a', _, hwrite.trans (hread.trans hdispatch), ha', hlink', hsending', hbuf', ⟨?_, ?_⟩, rfl,
    rfl, List.drop_length⟩
  · exact ((b.link.dispatchFrame_kept f 0).2.2).trans hb.live
  · intro k hk
    unfold Station.dispatch at hk
    simp only at hk
    split_ifs at hk
    cases hk
    exact hroom

/-- The PING of a heartbeat. -/
def ping : ShineFrame := .ping 1

/-- A datagram of the session 7. -/
def datagram (payload : Bytes) : ShineFrame := .udpData 7 Link.sampleTarget.toBinary payload

theorem length_le_datagram (payload : Bytes) :
    payload.length ≤ (encode (datagram payload)).length := by
  simp only [datagram, encode, encodeUdpData, writeArray, List.map_cons, List.map_nil,
    List.flatten_cons, List.flatten_nil, writeBulk, List.length_append]
  omega

variable (cap) in
/-- `sendTo` enqueues a datagram. -/
theorem reach_sendTo {s : Session} (ha : Ready a) (hs : a.link.heap 0 = some s) (f : ShineFrame) :
    ∃ a', (system cap).Reach Lts.Free (pairOf z a b u v) (pairOf z a' b u v) ∧ Ready a' ∧
      a'.link = a.link.enqueueFrame f ∧ a'.sending = a.sending ∧ a'.buf = a.buf := by
  have hcall : a.served.step (.call 0 (.enqueueFrame f))
      = some (a.served.setLink (a.link.enqueueFrame f)) := by
    have hs' : a.served.link.heap 0 = some s := hs
    simp only [Served.step, SessionOp.run, hs', Option.bind_some, SessionOp.apply, Option.map_some]
    rfl
  refine ⟨_, reach_other hcall rfl, ⟨?_, ha.room⟩, rfl, rfl, rfl⟩
  exact (Link.enqueueFrame_closed ..).trans ha.live

variable (cap) in
/-- Any number of them. -/
theorem reach_sendTo_many {s : Session} (ha : Ready a) (hs : a.link.heap 0 = some s)
    (f : ShineFrame) (m : Nat) :
    ∃ a', (system cap).Reach Lts.Free (pairOf z a b u v) (pairOf z a' b u v) ∧ Ready a' ∧
      a'.link.writeChan.length = a.link.writeChan.length + m ∧ a'.link.opts = a.link.opts ∧
      a'.link.heap = a.link.heap ∧ a'.sending = a.sending ∧ a'.buf = a.buf := by
  induction m with
  | zero => exact ⟨a, .refl, ha, rfl, rfl, rfl, rfl, rfl⟩
  | succ m ih =>
    obtain ⟨a₁, hreach₁, ha₁, hlen₁, hopts₁, hheap₁, hsending₁, hbuf₁⟩ := ih
    obtain ⟨a₂, hreach₂, ha₂, hlink₂, hsending₂, hbuf₂⟩ := reach_sendTo cap (z := z) (b := b)
      (u := u) (v := v) ha₁ (hheap₁ ▸ hs) f
    refine ⟨a₂, hreach₁.trans hreach₂, ha₂, ?_, ?_, ?_, hsending₂.trans hsending₁,
      hbuf₂.trans hbuf₁⟩
    · rw [hlink₂, Link.enqueueFrame_writeChan, ha₁.live, if_neg (by decide), List.length_append,
        hlen₁]
      rfl
    · rw [hlink₂, Link.enqueueFrame_opts, hopts₁]
    · rw [hlink₂, Link.enqueueFrame_heap, hheap₁]

/-- An end whose `write_chan_` and connection are full, with the PING in front and more of
the message to write than the PING is long. -/
structure Loaded (full : Nat) (a : Station) (u : Bytes) : Prop extends Ready a where
  chan : a.link.writeChan.length = Link.writeCap
  sending : (encode ping).length < a.sending.length
  front : ∃ more, u = encode ping ++ more
  full_eq : u.length = full

/-- **One end loads its side of the connection.** -/
theorem load {s : Session} (hcap : (encode ping).length < cap z) (ha : Ready a)
    (hs : a.link.heap 0 = some s) (hchan : a.link.writeChan = []) (hidle : a.sending = []) :
    ∃ a' u, (system cap).Reach Lts.Free (pairOf z a b [] v) (pairOf z a' b u v) ∧
      Loaded (cap z) a' u ∧ a'.link.opts = a.link.opts ∧ a'.buf = a.buf := by
  -- the PING
  have hcontrol : a.served.step (.control ping)
      = some (a.served.setLink (a.link.enqueueFrame ping)) := rfl
  have hping : (system cap).Reach Lts.Free (pairOf z a b [] v) _ := reach_other hcontrol rfl
  have ha₁ : Ready { a with served := a.served.setLink (a.link.enqueueFrame ping) } :=
    ⟨(Link.enqueueFrame_closed ..).trans ha.live, ha.room⟩
  have hchan₁ : (a.link.enqueueFrame ping).writeChan = [ping] := by
    rw [Link.enqueueFrame_writeChan, ha.live, if_neg (by decide), hchan, List.nil_append]
  have hroom₁ : ([] : Bytes).length + (encode ping).length ≤ cap z := by simpa using hcap.le
  obtain ⟨a₂, hreach₂, ha₂, hlink₂, hidle₂, hbuf₂⟩ := write_part (b := b) (v := v) ha₁ hidle hchan₁
    (encode_pos ping) (Nat.le_refl _) hroom₁
  rw [List.nil_append, List.take_length] at hreach₂
  rw [List.drop_length] at hidle₂
  have hs₂ : a₂.link.heap 0 = some s := by
    rw [hlink₂]
    exact (congrFun (Link.enqueueFrame_heap ..) 0).trans hs
  -- a datagram that is larger than what the connection holds
  let big := datagram (List.replicate (cap z + (encode ping).length) 0)
  have hbig : cap z + (encode ping).length ≤ (encode big).length := by
    simpa [big] using length_le_datagram (List.replicate (cap z + (encode ping).length) 0)
  obtain ⟨a₃, hreach₃, ha₃, hlink₃, hidle₃, hbuf₃⟩ := reach_sendTo cap (z := z) (b := b)
    (u := encode ping) (v := v) ha₂ hs₂ big
  have hchan₃ : a₃.link.writeChan = [big] := by
    rw [hlink₃, Link.enqueueFrame_writeChan, ha₂.live, if_neg (by decide), hlink₂, List.nil_append]
  have hroom₃ : (encode ping).length + (cap z - (encode ping).length) ≤ cap z := by omega
  obtain ⟨a₄, hreach₄, ha₄, hlink₄, hsending₄, hbuf₄⟩ := write_part (b := b) (v := v) ha₃
    (hidle₃.trans hidle₂) hchan₃ (by omega) (by omega) hroom₃
  have hs₄ : a₄.link.heap 0 = some s := by
    rw [hlink₄, hlink₃]
    exact (congrFun (Link.enqueueFrame_heap ..) 0).trans hs₂
  -- and as many small ones as `write_chan_` holds
  obtain ⟨a₅, hreach₅, ha₅, hlen₅, hopts₅, -, hsending₅, hbuf₅⟩ := reach_sendTo_many cap (z := z)
    (b := b) (v := v)
    (u := encode ping ++ (encode big).take (cap z - (encode ping).length)) ha₄ hs₄ (datagram [])
    Link.writeCap
  refine ⟨a₅, _, (((hping.trans hreach₂).trans hreach₃).trans hreach₄).trans hreach₅,
    ⟨ha₅, ?_, ?_, ⟨_, rfl⟩, ?_⟩, ?_, ?_⟩
  · rw [hlen₅, hlink₄]
    exact Nat.zero_add _
  · rw [hsending₅, hsending₄, List.length_drop]
    have := encode_pos ping
    omega
  · rw [List.length_append, List.length_take]
    omega
  · have hopts₂ : a₂.link.opts = a.link.opts := by
      rw [hlink₂]
      exact Link.enqueueFrame_opts ..
    rw [hopts₅, hlink₄, hlink₃, ← hopts₂]
    exact Link.enqueueFrame_opts ..
  · rw [hbuf₅, hbuf₄, hbuf₃, hbuf₂]

/-- **The reader of `z` answers the PING** into its full `write_chan_`, and the bytes that it
has read make room for more of the peer's message. -/
theorem stall (hready : Ready a) (hchan : a.link.writeChan.length = Link.writeCap)
    (hbuf : a.buf = [])
    (hfits : Fits a.link.opts.maxPayload ping) (hb : b.link.closed = false)
    (hsending : (encode ping).length < b.sending.length)
    (hfront : ∃ more, v = encode ping ++ more) (hfull : v.length = cap z.other) :
    ∃ a' v', (system cap).Reach Lts.Free (pairOf z a b u v)
        (pairOf z a' { b with sending := b.sending.drop (encode ping).length } u v') ∧
      a'.ReaderWaits ∧ a'.sending = a.sending ∧ v'.length = cap z.other := by
  obtain ⟨more, rfl⟩ := hfront
  have hread : (system cap).Reach Lts.Free (pairOf z a b u (encode ping ++ more))
      (pairOf z { a with buf := encode ping } b u more) := by
    have hmore : attempt a.link.opts.maxPayload a.buf = .more := by rw [hbuf, attempt_nil]
    have hall : (system cap).Reach Lts.Free (pairOf z a b u (encode ping ++ more)) _ :=
      reach_read hready.live hready.not_waits hmore (encode_pos ping)
        (by rw [List.length_append]; exact Nat.le_add_right ..)
    rwa [hbuf, List.nil_append, List.take_left, List.drop_left] at hall
  have hframe : attempt a.link.opts.maxPayload (encode ping) = .frame (encode ping).length ping := by
    simpa using attempt_encode [] hfits
  have hready₁ : Ready { a with buf := encode ping } := ⟨hready.live, hready.room⟩
  have hdispatch : (system cap).Reach Lts.Free (pairOf z { a with buf := encode ping } b u more) _ :=
    reach_dispatch hready₁.live hready₁.not_waits hframe
  -- the peer's writer fills the connection again
  have hroom : more.length + (encode ping).length ≤ cap z.other := by
    rw [List.length_append] at hfull
    omega
  have hpush : (system cap).Reach Lts.Free
      (pairOf z.other b ({ a with buf := encode ping }.dispatch 0 (encode ping).length ping) more u)
      _ := reach_push hb (encode_pos ping) hsending.le hroom
  rw [pairOf_swap, pairOf_swap] at hpush
  refine ⟨_, _, (hread.trans hdispatch).trans hpush, ⟨?_, Link.writeCap, ?_, Nat.le_refl _⟩, rfl, ?_⟩
  · exact ((a.link.dispatchFrame_kept ping 0).2.2).trans hready.live
  · have hgrew : (a.link.dispatchFrame 0 ping).writeChan.length
        = a.link.writeChan.length + 1 := by
      have hlink : a.link.dispatchFrame 0 ping = a.link.enqueueFrame (.pong 1) := rfl
      rw [hlink, Link.enqueueFrame_writeChan, hready.live, if_neg (by decide), List.length_append]
      rfl
    unfold Station.dispatch
    simp only
    rw [if_pos]
    · exact congrArg some hchan
    · show a.link.writeChan.length < (a.link.dispatchFrame 0 ping).writeChan.length
      omega
  · rw [List.length_append] at hfull ⊢
    rw [List.length_take]
    omega

/-- Links with the default limit. -/
def gridOpts : LinkOptions := { Link.sampleOpts with maxPayload := 1048576 }

/-- The client opens a UDP session, and the server accepts it. -/
theorem sessionUp (hcap : ∀ z, 64 ≤ cap z) :
    ∃ a b, (system cap).Reach Lts.Free (.start gridOpts gridOpts) (pairOf .client a b [] []) ∧
      Ready a ∧ (∃ s, a.link.heap 0 = some s) ∧ a.link.writeChan = [] ∧ a.sending = [] ∧
      a.buf = [] ∧ a.link.opts = gridOpts ∧
      Ready b ∧ (∃ s, b.link.heap 0 = some s) ∧ b.link.writeChan = [] ∧ b.sending = [] ∧
      b.buf = [] ∧ b.link.opts = gridOpts := by
  let a₀ : Station := ⟨⟨.new gridOpts false 0, [], none⟩, [], [], none⟩
  let b₀ : Station := ⟨.start gridOpts 0, [], [], none⟩
  have hstart : Grid.start gridOpts gridOpts = pairOf .client a₀ b₀ [] [] := by
    refine ext (fun y => ?_) fun y => ?_ <;> cases y <;> rfl
  let l₁ := (Link.new gridOpts false 0).openSession 7 .default true
  have hopen : (system cap).Reach Lts.Free (pairOf .client a₀ b₀ [] [])
      (pairOf .client { a₀ with served := a₀.served.setLink l₁ } b₀ [] []) :=
    reach_other (e := .openSession 7 .default true) rfl rfl
  have hready : ∀ {st : Station}, st.link.closed = false → st.ahead = none → Ready st := by
    intro st hlive hnone
    refine ⟨hlive, fun k hk => ?_⟩
    rw [hnone] at hk
    cases hk
  have hlen : ∀ z, (encode (.newUdp 7)).length ≤ cap z ∧ (encode (.ack 7)).length ≤ cap z := by
    intro z
    have h₁ : (encode (.newUdp 7)).length ≤ 64 := by decide +kernel
    have h₂ : (encode (.ack 7)).length ≤ 64 := by decide +kernel
    exact ⟨h₁.trans (hcap z), h₂.trans (hcap z)⟩
  obtain ⟨a₂, b₂, hreach₂, ha₂, hlink₂, hidle₂, hbuf₂, hb₂, hblink₂, hbidle₂, hbbuf₂⟩ :=
    carry (v := []) (f := .newUdp 7) (a := { a₀ with served := a₀.served.setLink l₁ }) (b := b₀)
      (hready rfl rfl) (hready rfl rfl) rfl rfl rfl (by decide +kernel) (hlen .client).1 (by decide)
  have hopts₂ : a₂.link.opts = gridOpts := by rw [hlink₂]; rfl
  have hbchan₂ : b₂.link.writeChan = [.ack 7] := by rw [hblink₂]; rfl
  have hchan₂ : a₂.link.writeChan.length < Link.writeCap := by rw [hlink₂]; decide
  have hfits₂ : Fits a₂.link.opts.maxPayload (.ack 7) := by rw [hopts₂]; decide +kernel
  obtain ⟨b₃, a₃, hreach₃, hb₃, hblink₃, hbidle₃, hbbuf₃, ha₃, hlink₃, hidle₃, hbuf₃⟩ :=
    carry (v := []) hb₂ ha₂ hbidle₂ hbchan₂ hbuf₂ hfits₂ (hlen Side.client.other).2 hchan₂
  rw [pairOf_swap, pairOf_swap] at hreach₃
  refine ⟨a₃, b₃, ?_, ha₃, ?_, ?_, ?_, ?_, ?_, hb₃, ?_, ?_, ?_, ?_, ?_⟩
  · rw [hstart]
    exact (hopen.trans hreach₂).trans hreach₃
  · exact ⟨_, by rw [hlink₃, hlink₂]; rfl⟩
  · rw [hlink₃, hlink₂]
    rfl
  · rw [hidle₃, hidle₂]
  · exact hbuf₃
  · rw [hlink₃, hlink₂]
    rfl
  · exact ⟨_, by rw [hblink₃, hblink₂]; rfl⟩
  · rw [hblink₃]
  · exact hbidle₃
  · rw [hbbuf₃, hbbuf₂]
  · rw [hblink₃, hblink₂]
    rfl

/-- **The circular wait is reachable**, however many bytes the connection holds. -/
theorem gridlock (cap : Side → Nat) (hcap : ∀ z, 64 ≤ cap z) :
    ∃ g, (system cap).Reach Lts.Free (.start gridOpts gridOpts) g ∧ g.CircularWait cap := by
  have hping : (encode ping).length < 64 := by decide +kernel
  have hfits : Fits gridOpts.maxPayload ping := by decide +kernel
  have hlt : ∀ z, (encode ping).length < cap z := fun z => Nat.lt_of_lt_of_le hping (hcap z)
  obtain ⟨a, b, hreach, ha, ⟨s, hs⟩, hchan, hidle, hbuf, hopts, hb, ⟨t, ht⟩, hbchan, hbidle,
    hbbuf, hbopts⟩ := sessionUp hcap
  obtain ⟨a₁, u₁, hreach₁, ha₁, hopts₁, hbuf₁⟩ := load (b := b) (v := []) (hlt .client) ha hs hchan
    hidle
  obtain ⟨b₁, v₁, hreach₂, hb₁, hbopts₁, hbbuf₁⟩ := load (b := a₁) (v := u₁)
    (hlt Side.client.other) hb ht hbchan hbidle
  rw [pairOf_swap, pairOf_swap] at hreach₂
  -- first the client's reader, then the server's
  obtain ⟨a₂, v₂, hreach₃, hwaits, hsending, hfull⟩ := stall ha₁.toReady ha₁.chan
    (hbuf₁.trans hbuf) (by rw [hopts₁, hopts]; exact hfits) hb₁.live hb₁.sending hb₁.front
    hb₁.full_eq
  have hsending₂ : (encode ping).length < a₂.sending.length := by rw [hsending]; exact ha₁.sending
  obtain ⟨b₃, u₃, hreach₄, hbwaits, hbsending, hbfull⟩ := stall (z := Side.client.other)
    (a := { b₁ with sending := b₁.sending.drop (encode ping).length }) (u := v₂)
    ⟨hb₁.live, hb₁.room⟩ hb₁.chan (hbbuf₁.trans hbbuf)
    (by show Fits b₁.link.opts.maxPayload ping; rw [hbopts₁, hbopts]; exact hfits) hwaits.1
    hsending₂ ha₁.front ha₁.full_eq
  rw [pairOf_swap, pairOf_swap] at hreach₄
  refine ⟨_, (((hreach.trans hreach₁).trans hreach₂).trans hreach₃).trans hreach₄, ?_⟩
  have hleft : ∀ {bytes : Bytes}, (encode ping).length < bytes.length →
      bytes.drop (encode ping).length ≠ [] := by
    intro bytes hlong hnil
    have hdrop := congrArg List.length hnil
    rw [List.length_drop, List.length_nil] at hdrop
    omega
  intro z
  cases z with
  | client => exact ⟨hwaits, hwaits.1, hleft hsending₂, hbfull.ge⟩
  | server =>
    refine ⟨hbwaits, hbwaits.1, ?_, hfull.ge⟩
    show b₃.sending ≠ []
    rw [hbsending]
    exact hleft hb₁.sending

/-- A connection that holds 16 KiB in each direction. -/
def sampleCap : Side → Nat := fun _ => 16384

theorem circular_wait_reachable :
    ¬ ∀ (cap : Side → Nat) (co so : LinkOptions) (g : Grid),
      (system cap).Reach Lts.Free (.start co so) g → ¬ g.CircularWait cap := by
  intro hall
  obtain ⟨g, hreach, hwait⟩ := gridlock sampleCap fun z => by simp [sampleCap]
  exact hall sampleCap gridOpts gridOpts g hreach hwait

end Grid

end Shine
