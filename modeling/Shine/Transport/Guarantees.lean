import Shine.Transport.PairInv

/-!
# What a pair of links guarantees to its sessions

The guarantees of one TCP session between a client and a server, in every state that
two links can reach, for each direction (written at `x`, read at `x.other`):

- `Net.window_conserved`: the credit of the writer, the data and WINDOW frames on their
  way, and what the reader holds and has not granted back add up to the client's window;
- `Net.never_starved`: flow control does not deadlock, if half of the server's window
  does not exceed the client's;
- `Net.eof_complete`: a reader that keeps up with the writer has everything when it is
  told of the end of the stream.

Sids are taken to be distinct (`FreshSids`).
-/

namespace Shine

open ShineFrame End

namespace Net

/-! ## Frames in flight -/

/-- What `z` has on the connection and in `write_chan_`. -/
def inFlight (n : Net) (z : Side) : List ShineFrame := n.wire z ++ (n.peer z).link.writeChan

/-- The DATA payload bytes of the session in a list of frames. -/
def dataBytes (sid : UInt64) : List ShineFrame → Nat
  | [] => 0
  | .data sid' c :: fs => (if sid' = sid then c.length else 0) + dataBytes sid fs
  | _ :: fs => dataBytes sid fs

/-- The sum of the WINDOW deltas of the session. -/
def windowBytes (sid : UInt64) : List ShineFrame → Nat
  | [] => 0
  | .window sid' delta :: fs => (if sid' = sid then delta.toNat else 0) + windowBytes sid fs
  | _ :: fs => windowBytes sid fs

/-- The chunk that a `write` has taken credit for and is enqueueing. -/
def handed (n : Net) (z : Side) (sid : UInt64) : Nat :=
  (((n.peer z).app sid).writer.chunk.getD []).length

/-- The WINDOW delta that a `read` has taken and is enqueueing. -/
def granting (n : Net) (z : Side) (sid : UInt64) : Nat := ((n.peer z).app sid).reader.phase.delta

theorem dataBytes_eq (sid : UInt64) (fs : List ShineFrame) :
    dataBytes sid fs = (((fs.filterMap (msgOf sid)).map Msg.chunk).flatten).length := by
  induction fs with
  | nil => rfl
  | cons f fs ih =>
    cases f with
    | data sid' c =>
      rw [dataBytes, ih, List.filterMap_cons]
      by_cases h : sid' = sid <;> simp [msgOf, h]
    | close sid' r =>
      rw [dataBytes, ih, List.filterMap_cons]
      · by_cases h : sid' = sid <;> simp [msgOf, h]
      · simp
    | _ =>
      rw [dataBytes, ih, List.filterMap_cons]
      · simp [msgOf]
      · simp

theorem windowBytes_eq (sid : UInt64) (fs : List ShineFrame) :
    windowBytes sid fs = (fs.filterMap (grantOf sid)).sum := by
  induction fs with
  | nil => rfl
  | cons f fs ih =>
    cases f with
    | window sid' delta =>
      rw [windowBytes, ih, List.filterMap_cons]
      by_cases h : sid' = sid <;> simp [grantOf, h]
    | _ =>
      rw [windowBytes, ih, List.filterMap_cons]
      · simp [grantOf]
      · simp

variable {n : Net} {sid : UInt64} {x : Side} {s t : Session} {cap server : UInt32}
  {strict : UInt64 → Side → Prop}

/-- The end of a session whose object is `s`. -/
theorem endOf_of_object (hs : (n.peer x).link.object sid = some s) :
    (n.endOf cap sid x).present = true ∧ (n.endOf cap sid x).session = s := by
  simp [endOf, Peer.endOf, Peer.session, hs]

/-- While nothing is cut, what is in flight is what the stream has under way. -/
theorem traffic_eq_inFlight (hcut : n.cut x = false) :
    (n.peer x).traffic (n.wire x) (n.cut x) = n.inFlight x := by
  simp [Peer.traffic, inFlight, hcut]

/-! ## Flow control -/

/-- The total of a stream, in terms of the two sessions and the frames in flight. -/
theorem total_eq (hs : (n.peer x).link.object sid = some s)
    (ht : (n.peer x.other).link.object sid = some t) (hcut : ∀ z, n.cut z = false) (l : Bool) :
    (flowOf (n.endOf cap sid x) (n.endOf cap sid x.other) l).total
      = s.sendCredit + n.handed x sid + dataBytes sid (n.inFlight x)
        + t.inboxQueue.flatten.length + t.unread.length + t.recvUnacked.toNat
        + n.granting x.other sid + windowBytes sid (n.inFlight x.other) := by
  have hx : (n.endOf cap sid x).session = s := (endOf_of_object hs).2
  have hy : (n.endOf cap sid x.other).session = t := (endOf_of_object ht).2
  have hmsgs : (n.endOf cap sid x).msgs = (n.inFlight x).filterMap (msgOf sid) := by
    rw [← traffic_eq_inFlight (hcut x)]
    rfl
  have hgrants : (n.endOf cap sid x.other).grants = (n.inFlight x.other).filterMap (grantOf sid) := by
    rw [← traffic_eq_inFlight (hcut x.other)]
    rfl
  rw [dataBytes_eq, windowBytes_eq, ← hmsgs, ← hgrants, ← hx, ← hy]
  rfl

/-- The client has every session that either side has. -/
theorem Inv.client_present (h : n.Inv cap server strict)
    (hs : (n.peer x).link.object sid = some s) : (n.endOf cap sid .client).present = true := by
  have hx : (n.endOf cap sid x).present = true := (endOf_of_object hs).1
  cases x with
  | client => exact hx
  | server => exact (h.sessions sid).born hx

/-- A session whose two objects are not closed, on open links and an intact connection,
has not been torn down. -/
theorem Inv.not_aborted (h : n.Inv cap server strict)
    (hs : (n.peer x).link.object sid = some s) (ht : (n.peer x.other).link.object sid = some t)
    (hsopen : s.state ≠ .closed) (htopen : t.state ≠ .closed)
    (hlinks : ∀ z, (n.peer z).link.closed = false) (hcut : ∀ z, n.cut z = false) :
    n.aborted sid = false := by
  obtain ⟨hxp, hx⟩ : (n.endOf cap sid x).present = true ∧ (n.endOf cap sid x).session = s :=
    endOf_of_object hs
  obtain ⟨hyp, hy⟩ : (n.endOf cap sid x.other).present = true ∧
    (n.endOf cap sid x.other).session = t := endOf_of_object ht
  have hpresent : ∀ z, (n.endOf cap sid z).present = true := forall_side x hxp hyp
  have hopen : ∀ z, (n.endOf cap sid z).session.state ≠ .closed :=
    forall_side x (by rw [hx]; exact hsopen) (by rw [hy]; exact htopen)
  refine Bool.eq_false_iff.mpr fun hl => ?_
  rcases (h.sessions sid).torn hl with ⟨z, hz⟩ | ⟨z, -, hst⟩ | ⟨-, hs, -⟩
  · simp [endOf, Peer.endOf, hlinks, hcut] at hz
  · exact hopen z hst
  · exact Flow.clash (hpresent .server) hs

/-- **Window conservation.** In every reachable state in which neither session object
is closed, both links are open and the connection is intact, what the writer may send,
what is in flight and what the reader holds and has not granted back make up the
client's window, whatever the server's. A chunk or a WINDOW that is just being enqueued
counts as in flight. Hence the bounds on the credit and on what the reader holds, and
no `read` makes `recv_unacked_` wrap. -/
theorem window_conserved (client srv : LinkOptions) (now : UInt64)
    (hreach : netSystem.Reach FreshSids (start client srv now) n)
    (hs : (n.peer x).link.object sid = some s) (ht : (n.peer x.other).link.object sid = some t)
    (hsopen : s.state ≠ .closed) (htopen : t.state ≠ .closed)
    (hlinks : ∀ z, (n.peer z).link.closed = false) (hcut : ∀ z, n.cut z = false) :
    s.sendCredit + n.handed x sid + dataBytes sid (n.inFlight x)
        + t.inboxQueue.flatten.length + t.unread.length + t.recvUnacked.toNat
        + n.granting x.other sid + windowBytes sid (n.inFlight x.other) = client.initWindow.toNat ∧
      0 ≤ s.sendCredit ∧ s.sendCredit ≤ client.initWindow.toNat ∧
      t.inboxQueue.flatten.length + t.unread.length ≤ client.initWindow.toNat ∧
      ∀ k ≤ t.inboxQueue.flatten.length + t.unread.length,
        (t.consumed k).recvUnacked.toNat = t.recvUnacked.toNat + k := by
  have h := inv_of_fresh hreach
  have hx : (n.endOf client.initWindow sid x).session = s := (endOf_of_object hs).2
  have hy : (n.endOf client.initWindow sid x.other).session = t := (endOf_of_object ht).2
  have hab := h.not_aborted hs ht hsopen htopen hlinks hcut
  have hflow := (h.sessions sid).flows (h.client_present hs) x
  have hleaky : (flowOf (n.endOf client.initWindow sid x) (n.endOf client.initWindow sid x.other)
      (n.aborted sid)).leaky = false := by
    simp [flowOf, hab, hx, hy, hsopen, htopen]
  have htotal := hflow.balanced.total_eq hleaky
  have hnonneg : 0 ≤ s.sendCredit := hx ▸ hflow.balanced.credit_nonneg
  rw [total_eq hs ht hcut] at htotal
  have hlt := UInt32.toNat_lt client.initWindow
  refine ⟨htotal, hnonneg, by omega, by omega, fun k hk => ?_⟩
  exact toNat_add_unacked _ _ (by omega)

/-- Two links with the given windows. -/
def sampleStart (client srv : UInt32) : Net :=
  start { Link.sampleOpts with initWindow := client } { Link.sampleOpts with initWindow := srv } 0

/-- The client opens a session to 127.0.0.1:80, and the server accepts it. -/
def openEvents : List NetEvent :=
  [.act .client (.openSession 7 Link.sampleTarget), .flush .client,
    .dispatch .server 0]

/-- The client writes `data` and puts a first chunk of it on the connection. -/
def sendEvents (data : Bytes) : List NetEvent :=
  [.act .client (.write 0 data), .act .client (.takeChunk 0), .act .client (.sendChunk 0),
    .flush .client]

theorem window_conserved_one_chunk :
    ∃ n s t, netSystem.Reach FreshSids (sampleStart 8 4) n ∧
      (n.peer .client).link.object 7 = some s ∧ (n.peer .server).link.object 7 = some t ∧
      s.sendCredit = 6 ∧
      s.sendCredit + n.handed .client 7 + dataBytes 7 (n.inFlight .client)
        + t.inboxQueue.flatten.length + t.unread.length + t.recvUnacked.toNat
        + n.granting .server 7 + windowBytes 7 (n.inFlight .server) = 8 := by
  have hreach : netSystem.Reach FreshSids (sampleStart 8 4) _ :=
    Lts.reach_of_exec (openEvents ++ sendEvents [1, 2]) rfl
  refine ⟨_, _, _, hreach, rfl, rfl, rfl, (window_conserved _ _ 0 hreach (x := .client) rfl rfl ?_ ?_
    ?_ ?_).1⟩
  · decide
  · decide
  · intro z
    cases z <;> rfl
  · intro z
    cases z <;> rfl

/-! ## No deadlock -/

/-- The writer of `x` waits for credit and nothing will bring it any: no DATA of the
session is in flight, its reader has taken everything and is not about to send a
WINDOW, and no WINDOW is in flight. -/
structure Starved (n : Net) (x : Side) (sid : UInt64) : Prop where
  waiting : ∃ data rest, ((n.peer x).app sid).writer = .writing data rest
  credit : ∃ s, (n.peer x).link.object sid = some s ∧ s.sendCredit ≤ 0
  no_data : ∀ c, .data sid c ∉ n.inFlight x
  taken : ∀ t, (n.peer x.other).link.object sid = some t → t.inboxQueue = [] ∧ t.unread = []
  reader : ((n.peer x.other).app sid).reader = .idle ∨
    ∃ k, ((n.peer x.other).app sid).reader = .waiting k
  no_window : ∀ delta, .window sid delta ∉ n.inFlight x.other

theorem carried_eq_nil {fs : List ShineFrame} (h : ∀ c, .data sid c ∉ fs) :
    ((fs.filterMap (msgOf sid)).map Msg.chunk).flatten = [] := by
  refine List.flatten_eq_nil_iff.mpr fun c hc => ?_
  obtain ⟨m, hm, rfl⟩ := List.mem_map.mp hc
  obtain ⟨f, hf, hfm⟩ := List.mem_filterMap.mp hm
  cases f with
  | data sid' c =>
    by_cases hsid : sid' = sid
    · exact absurd (hsid ▸ hf) (h c)
    · simp [msgOf, hsid] at hfm
  | close sid' r =>
    by_cases hsid : sid' = sid
    · simp only [msgOf, hsid, if_true, Option.some.injEq] at hfm
      rw [← hfm]
      rfl
    · simp [msgOf, hsid] at hfm
  | _ => cases hfm

theorem grants_eq_nil {fs : List ShineFrame} (h : ∀ delta, .window sid delta ∉ fs) :
    fs.filterMap (grantOf sid) = [] := by
  refine List.filterMap_eq_nil_iff.mpr fun f hf => ?_
  cases f with
  | window sid' delta =>
    by_cases hsid : sid' = sid
    · exact absurd (hsid ▸ hf) (h delta)
    · simp [grantOf, hsid]
  | _ => rfl

/-- What the reader of an untouched end holds: nothing. -/
theorem endOf_taken (htaken : ∀ t, (n.peer x).link.object sid = some t →
    t.inboxQueue = [] ∧ t.unread = []) :
    (n.endOf cap sid x).session.inboxQueue = [] ∧ (n.endOf cap sid x).session.unread = [] := by
  cases ho : (n.peer x).link.object sid with
  | some t => simpa [endOf, Peer.endOf, Peer.session, ho] using htaken t ho
  | none =>
    simp [endOf, Peer.endOf, Peer.session, ho, Session.new, Session.inboxQueue, SessionIo.queue,
      Session.unread, Chan.new]

/-- While a session has not been torn down and its writer has something left to send,
neither of its objects is closed. -/
theorem Inv.not_leaky (h : n.Inv cap server strict) (hab : n.aborted sid = false)
    (hclient : (n.endOf cap sid .client).present = true)
    (hbacklog : ((n.peer x).app sid).writer.rest ≠ []) :
    (flowOf (n.endOf cap sid x) (n.endOf cap sid x.other) (n.aborted sid)).leaky = false := by
  have hflow := (h.sessions sid).flows hclient x
  have hx : (n.endOf cap sid x).session.state ≠ .closed := by
    intro hst
    refine hbacklog (hflow.halted hab ?_).1
    simp [flowOf, Session.writeClosed, hst]
  have hy : (n.endOf cap sid x.other).session.state ≠ .closed := by
    intro hst
    have hgood := ((h.sessions sid).ok x.other).good
    cases hp : (n.endOf cap sid x.other).present with
    | true =>
      refine hbacklog (hflow.ended.closed_done hab ?_).2.2.1
      simp [flowOf, hp, hgood.shape.mpr (.inl hst)]
    | false =>
      have hnone : (n.peer x.other).link.object sid = none := by
        simpa [endOf, Peer.endOf] using hp
      simp [endOf, Peer.endOf, Peer.session, hnone, Session.new] at hst
  simp [flowOf, hab, hx, hy]

/-- **No flow-control deadlock.** With a positive client window that is at least half
of the server's, a session that nobody closes or resets never starves, in either
direction. -/
theorem never_starved (client srv : LinkOptions) (now : UInt64) (hpos : 0 < client.initWindow)
    (hwindow : srv.initWindow / 2 ≤ client.initWindow)
    (hreach : netSystem.Reach FreshSids (start client srv now) n) (hab : n.aborted sid = false) :
    ¬ n.Starved x sid := by
  rintro ⟨⟨data, rest, hw⟩, ⟨s, hs, hcredit⟩, hdata, htaken, hreader, hwin⟩
  have h := inv_of_fresh hreach
  have hclient := h.client_present hs
  have hflow := (h.sessions sid).flows hclient x
  have hrest : rest ≠ [] := (((h.sessions sid).ok x).calls.writing data rest hw).1
  have hleaky := h.not_leaky (x := x) hab hclient (by rw [hw]; exact hrest)
  have hcut : ∀ z, n.cut z = false := by
    intro z
    refine Bool.eq_false_iff.mpr fun hc => ?_
    exact Flow.clash ((h.sessions sid).broken z (by simp [endOf, Peer.endOf, hc])) hab
  have hthreshold : (x.other.window client.initWindow srv.initWindow / 2).toNat
      ≤ client.initWindow.toNat := by
    cases x with
    | client => exact UInt32.le_iff_toNat_le.mp hwindow
    | server =>
      rw [UInt32.toNat_div]
      exact Nat.div_le_self ..
  obtain ⟨hinbox, hleft⟩ : (n.endOf client.initWindow sid x.other).session.inboxQueue = [] ∧
    (n.endOf client.initWindow sid x.other).session.unread = [] := endOf_taken htaken
  refine hflow.not_starved (UInt32.lt_iff_toNat_lt.mp hpos) hthreshold hleaky hab ?_ ?_ ?_ hinbox
    hleft ?_ ?_
  · show (n.endOf client.initWindow sid x).session.sendCredit ≤ 0
    rw [(endOf_of_object hs).2]
    exact hcredit
  · show ((n.peer x).app sid).writer.chunk = none
    rw [hw]
    rfl
  · show ((((n.peer x).traffic (n.wire x) (n.cut x)).filterMap (msgOf sid)).map _).flatten = []
    rw [traffic_eq_inFlight (hcut x)]
    exact carried_eq_nil hdata
  · rcases hreader with hr | ⟨k, hr⟩
    · exact .inl (congrArg Reading.phase hr)
    · exact .inr (congrArg Reading.phase hr)
  · show ((n.peer x.other).traffic (n.wire x.other) (n.cut x.other)).filterMap (grantOf sid) = []
    rw [traffic_eq_inFlight (hcut x.other)]
    exact grants_eq_nil hwin

/-- The server dispatches a DATA frame and reads it with a large buffer, up to the
question whether a WINDOW is due. -/
def readEvents : List NetEvent :=
  [.dispatch .server 0, .act .server (.read 0 64), .act .server (.receive 0),
    .act .server (.checkWindow 0)]

theorem never_starved_without_credit :
    ∃ n s, netSystem.Reach FreshSids (sampleStart 2 4) n ∧
      (n.peer .client).link.object 7 = some s ∧ s.sendCredit = 0 ∧ ¬ n.Starved .client 7 := by
  have hreach : netSystem.Reach FreshSids (sampleStart 2 4) _ := Lts.reach_of_exec
    (openEvents ++ sendEvents [1, 2, 3] ++ readEvents ++ [.act .server (.sendWindow 0)]) rfl
  exact ⟨_, _, hreach, rfl, rfl, never_starved _ _ 0 (by decide) (by decide) hreach rfl⟩

/-- With a client window of 1 and a server window of 4, the reader waits for a second
byte before it grants the first one back, and the writer waits for the grant before it
sends the second byte. -/
theorem never_starved_fails_on_small_client_window :
    ¬ ∀ n, netSystem.Reach FreshSids (sampleStart 1 4) n → n.aborted 7 = false →
      ¬ n.Starved .client 7 := by
  intro h
  have hreach : netSystem.Reach FreshSids (sampleStart 1 4) _ :=
    Lts.reach_of_exec (openEvents ++ sendEvents [1, 2] ++ readEvents) rfl
  refine h _ hreach rfl ⟨⟨[1, 2], [2], rfl⟩, ⟨_, rfl, Int.le_refl 0⟩, ?_, ?_, .inl rfl, ?_⟩
  · intro c hc
    cases hc
  · rintro t ht
    cases ht
    exact ⟨rfl, rfl⟩
  · -- only the ACK of the session is on its way back
    intro delta hd
    have hack : ShineFrame.window 7 delta ∈ [ShineFrame.ack 7] := hd
    exact absurd (List.mem_singleton.mp hack) (by simp)

/-! ## The end of the stream -/

/-- The direction of a session that is written at `x`. -/
def Only (sid : UInt64) (x : Side) (sid' : UInt64) (x' : Side) : Prop := sid' = sid ∧ x' = x

/-- **A graceful end of stream loses nothing**, if the reader keeps up: in every run in
which each CLOSE of the session that is dispatched at the reader's side finds at most
the one payload in its inbox that a waiting `read` is about to get, and in which nobody
closes or resets the session and no link fails, a reader that has been told of the end
of the stream has all bytes of all calls of `write` that returned Ok, and no such call
is going on. -/
theorem eof_complete (client srv : LinkOptions) (now : UInt64)
    (hreach : netSystem.Reach (fun n ev => FreshSids n ev ∧ Prompt (Only sid x) n ev)
      (start client srv now) n)
    (hab : n.aborted sid = false) (heof : ((n.peer x.other).app sid).eof = true) :
    ((n.peer x.other).app sid).got = ((n.peer x).app sid).acked ∧
      ((n.peer x).app sid).writer = .idle := by
  have h : n.Inv client.initWindow srv.initWindow (Only sid x) :=
    .reach (fun _ _ hok => hok.1) (fun _ _ hok => hok.2) hreach
  have hinv := h.sessions sid
  -- the application of a session that does not exist has read nothing
  have hother : (n.endOf client.initWindow sid x.other).present = true := by
    by_contra hne
    have hp := Bool.eq_false_iff.mpr hne
    have happ : (n.peer x.other).app sid = .init := (hinv.unborn x.other hp).1
    rw [happ] at heof
    cases heof
  have hclient : (n.endOf client.initWindow sid .client).present = true := by
    cases x with
    | client => exact hinv.born hother
    | server => exact hother
  obtain ⟨hgot, -, hbacklog, hsending⟩ := (hinv.flows hclient x).got_all ⟨rfl, rfl⟩ hab heof
  have hcalls := (hinv.ok x).calls
  have hidle : ((n.peer x).app sid).writer = .idle := by
    cases hw : ((n.peer x).app sid).writer with
    | idle => rfl
    | writing data rest =>
      have hrest : rest = [] := by simpa [flowOf, endOf, Peer.endOf, hw] using hbacklog
      exact absurd hrest (hcalls.writing data rest hw).1
    | sending data rest chunk => simp [flowOf, endOf, Peer.endOf, hw] at hsending
  have hopen : (n.endOf client.initWindow sid x).closed = false := by
    refine Bool.eq_false_iff.mpr fun hc => ?_
    exact Flow.clash (hinv.broken x (by simp [hc])) hab
  exact ⟨hgot.trans (hcalls.idle hidle hopen), hidle⟩

/-- The client shuts its side down, and the CLOSE is dispatched at the server. -/
def shutEvents : List NetEvent :=
  [.act .client (.shutdownWrite 0), .flush .client, .dispatch .server 0]

instance (sid : UInt64) (x : Side) (sid' : UInt64) (x' : Side) : Decidable (Only sid x sid' x') :=
  inferInstanceAs (Decidable (_ ∧ _))

theorem eof_complete_two_bytes :
    ∃ n : Net, ((n.peer .server).app 7).eof = true ∧ ((n.peer .server).app 7).got = [1, 2] ∧
      ((n.peer .server).app 7).got = ((n.peer .client).app 7).acked := by
  have hreach : netSystem.Reach (fun n ev => FreshSids n ev ∧ Prompt (Only 7 .client) n ev)
      (sampleStart 8 8) _ := Lts.reach_of_exec
    (openEvents ++ sendEvents [1, 2] ++ readEvents ++ shutEvents ++ [.act .server (.read 0 64)]) rfl
  exact ⟨_, rfl, rfl, (eof_complete _ _ 0 hreach rfl rfl).1⟩

/-- The CLOSE overtakes the reader: the payload is still in `inbox_` when `read` reports
the end of the stream. -/
theorem eof_complete_fails_on_slow_reader :
    ¬ ∀ n, netSystem.Reach FreshSids (sampleStart 8 8) n → n.aborted 7 = false →
      ((n.peer .server).app 7).eof = true →
      ((n.peer .server).app 7).got = ((n.peer .client).app 7).acked := by
  intro h
  have hreach : netSystem.Reach FreshSids (sampleStart 8 8) _ := Lts.reach_of_exec
    (openEvents ++ sendEvents [1, 2] ++ [.dispatch .server 0] ++ shutEvents
      ++ [.act .server (.read 0 64)]) rfl
  exact absurd (h _ hreach rfl rfl) (by decide)

end Net

end Shine
