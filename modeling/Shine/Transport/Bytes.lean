import Shine.Transport.PairInv

/-!
# Two links joined by a byte stream

The pair of links of `Transport.Pair`, with a connection that carries bytes: the writer
coroutine (`Link::writerLoop`) puts the encodings of its frames on it, the reader
coroutine (`Link::readerLoop`) receives them in pieces of any size into its
`ReadBuffer`, parses and decodes what is there, and dispatches. The connection
delivers in order and may be cut anywhere, also inside a frame.

`Refines` relates a state of this pair to a state of the pair with frames: what a reader
has buffered or will still receive are the encodings of the frames on the connection,
or a beginning of them once it is cut. It is a forward simulation (`Refines.step`), so
what holds in every state of the pair with frames holds here: `stream_integrity`.
-/

namespace Shine

/-- Two links joined by a connection. `bytes z` are the bytes that `z` has put on it and
that the other end has not received, `buf z` is the `read_buf_` of `z`. -/
structure ByteNet where
  peer : Side → Peer
  bytes : Side → Bytes
  buf : Side → ReadBuffer
  cut : Side → Bool
  aborted : UInt64 → Bool

/-- What can happen. -/
inductive ByteEvent where
  | act (z : Side) (a : LocalAct)
  /-- One turn of `writerLoop` at `z`. -/
  | flush (z : Side)
  /-- An `async_read_some` of `readerLoop` at `z` finds `k` bytes. -/
  | recv (z : Side) (k : Nat)
  /-- A turn of `readerLoop` at `z` that does not need more bytes. -/
  | turn (z : Side) (now : UInt64)
  /-- The connection loses what `z` has put on it beyond `k` bytes, and whatever
  follows. -/
  | cut (z : Side) (k : Nat)

namespace ByteNet

/-- The effect of an event; `none` where it cannot happen. `want` is the room that
`readerLoop` makes before a read. -/
def step (want : Nat) (b : ByteNet) : ByteEvent → Option ByteNet
  | .act z a => ((b.peer z).step a).map fun pe => { b with
      peer := Function.update b.peer z pe
      aborted := Net.abortedBy (b.peer z) b.aborted a }
  | .flush z =>
    match (b.peer z).link.writeChan with
    | [] => none
    | f :: rest =>
      if (b.peer z).link.closed then none
      else some { b with
        peer := Function.update b.peer z
          ((b.peer z).setLink { (b.peer z).link with writeChan := rest })
        bytes := Function.update b.bytes z
          (if b.cut z then b.bytes z else b.bytes z ++ encode f) }
  | .recv z k =>
    if (b.peer z).link.closed ∨
        readAttempt (b.peer z).link.opts.maxPayload (b.buf z) ≠ .more then none
    else some { b with
      buf := Function.update b.buf z
        ((b.buf z).readSome want ((b.bytes z.other).take k)).1
      bytes := Function.update b.bytes z.other
        (((b.buf z).readSome want ((b.bytes z.other).take k)).2 ++ (b.bytes z.other).drop k) }
  | .turn z now =>
    if (b.peer z).link.closed then none
    else match readAttempt (b.peer z).link.opts.maxPayload (b.buf z) with
      | .more => none
      | .refused _ => some { b with
          peer := Function.update b.peer z ((b.peer z).setLink (b.peer z).link.failLink)
          aborted := fun _ => true }
      | .undecodable n _ => some { b with
          peer := Function.update b.peer z ((b.peer z).setLink (b.peer z).link.failLink)
          buf := Function.update b.buf z ((b.buf z).consume n)
          aborted := fun _ => true }
      | .frame n f => some { b with
          peer := Function.update b.peer z
            ((b.peer z).setLink ((b.peer z).link.dispatchFrame now f))
          buf := Function.update b.buf z ((b.buf z).consume n)
          aborted := Net.abortedByFrame (b.peer z).link b.aborted f }
  | .cut z k => some { b with
      bytes := Function.update b.bytes z ((b.bytes z).take k)
      cut := Function.update b.cut z true
      aborted := fun _ => true }

/-- The start, with read buffers of the given capacity. -/
def start (client server : LinkOptions) (now : UInt64) (capacity : Nat) : ByteNet where
  peer := (Net.start client server now).peer
  bytes := fun _ => []
  buf := fun _ => .new capacity
  cut := fun _ => false
  aborted := fun _ => false

/-- The two links without what is on the connection. -/
def links (b : ByteNet) : Net := ⟨b.peer, fun _ => [], b.cut, b.aborted⟩

/-- Sessions are opened by the client, each under a sid that it has not used. -/
def FreshSids (b : ByteNet) : ByteEvent → Prop
  | .act z a => Shine.FreshSids b.links (.act z a)
  | _ => True

instance (b : ByteNet) (ev : ByteEvent) : Decidable (b.FreshSids ev) := by
  unfold FreshSids
  split <;> infer_instance

end ByteNet

/-- The two links and their connection as a transition system. -/
def byteSystem (want : Nat) : Lts ByteNet ByteEvent where
  step := ByteNet.step want

/-- The encodings of a list of frames, one after the other. -/
def encodeAll (fs : List ShineFrame) : Bytes := (fs.map encode).flatten

@[simp] theorem encodeAll_nil : encodeAll [] = [] := rfl

@[simp] theorem encodeAll_cons (f : ShineFrame) (fs : List ShineFrame) :
    encodeAll (f :: fs) = encode f ++ encodeAll fs := rfl

@[simp] theorem encodeAll_append (fs gs : List ShineFrame) :
    encodeAll (fs ++ gs) = encodeAll fs ++ encodeAll gs := by simp [encodeAll]

/-- A reader never makes anything but the first frame out of encoded frames, or of a
beginning of them. -/
theorem attempt_encodeAll {maxBulk n : Nat} {data rest : Bytes} {f : ShineFrame}
    {fs : List ShineFrame} (heq : data ++ rest = encodeAll fs)
    (h : attempt maxBulk data = .frame n f) :
    ∃ fs', fs = f :: fs' ∧ n = (encode f).length := by
  have hall := attempt_append rest h nofun
  rw [heq] at hall
  cases fs with
  | nil => cases hall
  | cons g fs' =>
    rw [encodeAll_cons] at hall
    by_cases hfit : Fits maxBulk g
    · rw [attempt_encode _ hfit] at hall
      cases hall
      exact ⟨fs', rfl, rfl⟩
    · obtain ⟨e, he⟩ := attempt_encode_error (encodeAll fs') hfit
      rw [he] at hall
      cases hall

/-- And it decodes whatever it parses. -/
theorem attempt_encodeAll_decodable {maxBulk n : Nat} {data rest : Bytes} {e : Status}
    {fs : List ShineFrame} (heq : data ++ rest = encodeAll fs) :
    attempt maxBulk data ≠ .undecodable n e := by
  intro h
  have hall := attempt_append rest h nofun
  rw [heq] at hall
  cases fs with
  | nil => cases hall
  | cons g fs' =>
    rw [encodeAll_cons] at hall
    by_cases hfit : Fits maxBulk g
    · rw [attempt_encode _ hfit] at hall
      cases hall
    · obtain ⟨e', he⟩ := attempt_encode_error (encodeAll fs') hfit
      rw [he] at hall
      cases hall

/-! ## The simulation -/

/-- The bytes on their way are those of the frames on the connection, up to what a cut has lost. -/
def OnWay (cut : Bool) (data : Bytes) (fs : List ShineFrame) : Prop :=
  ∃ lost, data ++ lost = encodeAll fs ∧ (cut = false → lost = [])

namespace OnWay

variable {cut : Bool} {data : Bytes} {f : ShineFrame} {fs : List ShineFrame}

theorem push (h : OnWay false data fs) (f : ShineFrame) :
    OnWay false (data ++ encode f) (fs ++ [f]) := by
  obtain ⟨lost, heq, hlost⟩ := h
  rw [hlost rfl, List.append_nil] at heq
  exact ⟨[], by simp [heq], fun _ => rfl⟩

theorem pop (h : OnWay cut data (f :: fs)) (hlen : (encode f).length ≤ data.length) :
    OnWay cut (data.drop (encode f).length) fs := by
  obtain ⟨lost, heq, hlost⟩ := h
  refine ⟨lost, ?_, hlost⟩
  have hdrop := congrArg (List.drop (encode f).length) heq
  rwa [encodeAll_cons, List.drop_append_of_le_length hlen, List.drop_left] at hdrop

end OnWay

/-- The pair with frames has the same links, and what a reader has buffered or will
still receive are the encodings of the frames on the connection, up to bytes that were
lost when it was cut. -/
structure Refines (b : ByteNet) (n : Net) : Prop where
  peer : n.peer = b.peer
  cut : n.cut = b.cut
  aborted : n.aborted = b.aborted
  carried : ∀ z, ∃ lost, (b.buf z.other).view ++ b.bytes z ++ lost = encodeAll (n.wire z) ∧
    (b.cut z = false → lost = [])

variable {b b' : ByteNet} {n n' : Net} {z : Side} {want : Nat}

theorem Refines.onWay (h : Refines b n) (z : Side) :
    OnWay (b.cut z) ((b.buf z.other).view ++ b.bytes z) (n.wire z) := h.carried z

theorem Refines.act (h : Refines b n) {act : LocalAct}
    (hstep : b.step want (.act z act) = some b') :
    ∃ n', n.step (.act z act) = some n' ∧ Refines b' n' := by
  obtain ⟨hpeer, hcut, hab, hcarried⟩ := h
  obtain ⟨pe, hpe, rfl⟩ := Option.map_eq_some_iff.mp hstep
  refine ⟨{ n.setPeer z pe with aborted := Net.abortedBy (n.peer z) n.aborted act }, ?_, ?_, hcut,
    ?_, hcarried⟩
  · simp only [Net.step, hpeer, hpe, Option.map_some]
  · simp only [Net.setPeer, hpeer]
  · simp only [hpeer, hab]

theorem Refines.flush (h : Refines b n) (hstep : b.step want (.flush z) = some b') :
    ∃ n', n.step (.flush z) = some n' ∧ Refines b' n' := by
  have honWay := h.onWay
  obtain ⟨npeer, nwire, ncut, nab⟩ := n
  obtain ⟨rfl, rfl, rfl, -⟩ := h
  simp only [ByteNet.step] at hstep
  split at hstep
  · cases hstep
  rename_i f rest hchan
  by_cases hclosed : (b.peer z).link.closed = true
  · rw [if_pos hclosed] at hstep
    cases hstep
  rw [if_neg hclosed] at hstep
  cases hstep
  refine ⟨_, Net.step_flush hchan hclosed, rfl, rfl, rfl, End.forall_side z ?_ ?_⟩
  · show OnWay (b.cut z) _ _
    have hz := honWay z
    simp only [Net.setWire, Function.update_self]
    split_ifs with hcut
    · exact hz
    · rw [Bool.eq_false_iff.mpr hcut] at hz ⊢
      rw [← List.append_assoc]
      exact hz.push f
  · show OnWay (b.cut z.other) _ _
    simpa [Net.setWire] using honWay z.other

theorem Refines.recv (h : Refines b n) {k : Nat} (hstep : b.step want (.recv z k) = some b') :
    Refines b' n := by
  obtain ⟨hpeer, hcut, hab, hcarried⟩ := h
  simp only [ByteNet.step] at hstep
  split_ifs at hstep with hidle
  cases hstep
  refine ⟨hpeer, hcut, hab, End.forall_side z ?_ ?_⟩
  · obtain ⟨lost, heq, hlost⟩ := hcarried z
    refine ⟨lost, ?_, hlost⟩
    simpa using heq
  · -- the bytes move from the connection to the buffer
    obtain ⟨lost, heq, hlost⟩ := hcarried z.other
    refine ⟨lost, ?_, hlost⟩
    have hmove := (b.buf z).readSome_append want ((b.bytes z.other).take k)
    simp only [Side.other_other, Function.update_self] at heq ⊢
    rw [← List.append_assoc, hmove, List.append_assoc _ (List.take ..), List.take_append_drop]
    exact heq

theorem Refines.cut_bytes (h : Refines b n) {k : Nat} (hstep : b.step want (.cut z k) = some b') :
    ∃ n', netSystem.Reach FreshSids n n' ∧ Refines b' n' := by
  obtain ⟨npeer, nwire, ncut, nab⟩ := n
  obtain ⟨rfl, rfl, rfl, hcarried⟩ := h
  cases hstep
  -- the frame that is cut in two stays on the connection of the pair with frames
  refine ⟨_, Lts.Reach.refl.tail (e := .cut z (nwire z).length) trivial rfl, rfl, rfl, rfl,
    End.forall_side z ?_ ?_⟩
  · obtain ⟨lost, heq, -⟩ := hcarried z
    refine ⟨(b.bytes z).drop k ++ lost, ?_, fun hc => by simp at hc⟩
    simp only [Net.setWire, Function.update_self, List.take_length]
    rw [← heq, List.append_assoc, List.append_assoc, ← List.append_assoc (List.take ..),
      List.take_append_drop]
  · obtain ⟨lost, heq, hlost⟩ := hcarried z.other
    refine ⟨lost, ?_, fun hc => hlost (by simpa using hc)⟩
    simpa [Net.setWire] using heq

/-- A turn of the reader dispatches the frame that is first on the connection, or fails the link. -/
theorem Refines.turn (h : Refines b n) {now : UInt64}
    (hstep : b.step want (.turn z now) = some b') :
    (b.peer z).link.closed = false ∧
      ((∃ k f n', readAttempt (b.peer z).link.opts.maxPayload (b.buf z) = .frame k f ∧
          (∃ rest, n.wire z.other = f :: rest) ∧ n.step (.dispatch z now) = some n' ∧
          Refines b' n') ∨
        ∃ n', n.step (.act z .failLink) = some n' ∧ Refines b' n' ∧
          b'.peer = Function.update b.peer z ((b.peer z).setLink (b.peer z).link.failLink)) := by
  have honWay := h.onWay
  obtain ⟨npeer, nwire, ncut, nab⟩ := n
  obtain ⟨rfl, rfl, rfl, hcarried⟩ := h
  obtain ⟨lost, heq, -⟩ := hcarried z.other
  rw [Side.other_other, List.append_assoc] at heq
  simp only [ByteNet.step] at hstep
  by_cases hclosed : (b.peer z).link.closed = true
  · rw [if_pos hclosed] at hstep
    cases hstep
  rw [if_neg hclosed, readAttempt_eq] at hstep
  refine ⟨Bool.eq_false_iff.mpr hclosed, ?_⟩
  rw [readAttempt_eq]
  cases hattempt : attempt (b.peer z).link.opts.maxPayload (b.buf z).view with
  | more =>
    rw [hattempt] at hstep
    cases hstep
  | undecodable k e => exact absurd hattempt (attempt_encodeAll_decodable heq)
  | refused e =>
    rw [hattempt] at hstep
    cases hstep
    exact .inr ⟨_, rfl, ⟨rfl, rfl, rfl, hcarried⟩, rfl⟩
  | frame k f =>
    rw [hattempt] at hstep
    cases hstep
    obtain ⟨rest, hwire, rfl⟩ := attempt_encodeAll heq hattempt
    refine .inl ⟨_, f, _, rfl, ⟨rest, hwire⟩, Net.step_dispatch hwire now, rfl, rfl, rfl,
      End.forall_side z ?_ ?_⟩
    · show OnWay (b.cut z) _ _
      simpa [Net.setWire] using honWay z
    · show OnWay (b.cut z.other) _ _
      have hlen : (encode f).length ≤ (b.buf z).view.length := by
        have hle := attempt_taken_le (b.peer z).link.opts.maxPayload (b.buf z).view
        rw [hattempt] at hle
        exact hle
      have hz := honWay z.other
      rw [hwire, Side.other_other] at hz
      have hpop := hz.pop (by rw [List.length_append]; omega)
      rw [List.drop_append_of_le_length hlen] at hpop
      simpa [Net.setWire, ReadBuffer.view_consume _ hlen] using hpop

/-- **The pair of links with a byte stream refines the pair with frames.** -/
theorem Refines.step (h : Refines b n) {ev : ByteEvent} (hfresh : b.FreshSids ev)
    (hstep : b.step want ev = some b') : ∃ n', netSystem.Reach FreshSids n n' ∧ Refines b' n' := by
  cases ev with
  | act z a =>
    obtain ⟨n', hn, href⟩ := h.act hstep
    have hfresh' : Shine.FreshSids n (.act z a) := by
      cases a with
      | openSession sid target =>
        simp only [Shine.FreshSids, h.peer]
        exact hfresh
      | _ => trivial
    exact ⟨n', Lts.Reach.refl.tail hfresh' hn, href⟩
  | flush z =>
    obtain ⟨n', hn, href⟩ := h.flush hstep
    exact ⟨n', Lts.Reach.refl.tail (e := .flush z) trivial hn, href⟩
  | recv z k => exact ⟨n, .refl, h.recv hstep⟩
  | turn z now =>
    obtain ⟨-, ⟨_, _, n', -, -, hn, href⟩ | ⟨n', hn, href, -⟩⟩ := h.turn hstep
    · exact ⟨n', Lts.Reach.refl.tail (e := .dispatch z now) trivial hn, href⟩
    · exact ⟨n', Lts.Reach.refl.tail (e := .act z .failLink) trivial hn, href⟩
  | cut z k => exact h.cut_bytes hstep

theorem refines_start (client srv : LinkOptions) (now : UInt64) (capacity : Nat) :
    Refines (.start client srv now capacity) (Net.start client srv now) where
  peer := rfl
  cut := rfl
  aborted := rfl
  carried _ := ⟨[], by simp [ByteNet.start, Net.start], fun _ => rfl⟩

/-! ## Stream integrity -/

/-- In the pair with frames, what a reader has is a beginning of what was passed to
`write` at the other end. -/
theorem Net.Inv.got_le {cap server : UInt32} {strict : UInt64 → Side → Prop}
    (h : n.Inv cap server strict) (x : Side) (sid : UInt64) :
    ((n.peer x.other).app sid).got <+: ((n.peer x).app sid).passed := by
  have hinv := h.sessions sid
  cases hc : (n.endOf cap sid .client).present with
  | true => exact (hinv.flows hc x).got_le
  | false =>
    -- nobody has opened the session, so nothing was read
    have hother : (n.endOf cap sid x.other).present = false := by
      refine Bool.eq_false_iff.mpr fun hp => ?_
      cases x with
      | client => exact Flow.clash (hinv.born hp) hc
      | server => exact Flow.clash hp hc
    have happ : (n.peer x.other).app sid = .init := (hinv.unborn x.other hother).1
    rw [happ]
    exact List.nil_prefix

/-- **Stream integrity.** In every state that two links joined by an ordered byte
stream can reach — whatever is written, read, shut down, closed or reset on any number
of sessions with distinct sids, however the bytes are cut into pieces, and also when
links fail or the connection is cut anywhere — the bytes that the reads of a session
have returned are a beginning of the bytes passed to the writes at the other end. -/
theorem stream_integrity (client srv : LinkOptions) (now : UInt64) (capacity want : Nat)
    (hreach : (byteSystem want).Reach ByteNet.FreshSids (.start client srv now capacity) b)
    (x : Side) (sid : UInt64) :
    ((b.peer x.other).app sid).got <+: ((b.peer x).app sid).passed := by
  obtain ⟨n, hn, href⟩ := hreach.simulate (refines_start client srv now capacity)
    fun b ev b' n h hfresh hstep => h.step hfresh hstep
  have hinv : n.Inv client.initWindow srv.initWindow fun _ _ => False := Net.inv_of_fresh hn
  rw [← href.peer]
  exact hinv.got_le x sid

/-- A session over a connection that cuts the DATA frame in two. -/
theorem stream_integrity_two_pieces :
    ∃ b : ByteNet, ((b.peer .server).app 7).got = [1, 2] ∧
      ((b.peer .server).app 7).got <+: ((b.peer .client).app 7).passed := by
  have hreach : (byteSystem 64).Reach ByteNet.FreshSids
      (.start Link.sampleOpts Link.sampleOpts 0 0) _ := Lts.reach_of_exec
    [.act .client (.openSession 7 (.ipv4 ⟨[127, 0, 0, 1], rfl⟩ 80)), .flush .client,
      .recv .server 100, .turn .server 0, .act .client (.write 0 [1, 2, 3, 4, 5]),
      .act .client (.takeChunk 0), .act .client (.sendChunk 0), .flush .client, .recv .server 10,
      .recv .server 100, .turn .server 0, .act .server (.read 0 2), .act .server (.receive 0)] rfl
  exact ⟨_, rfl, stream_integrity _ _ 0 0 64 hreach .client 7⟩

end Shine
