import Shine.Proto.FrameLoop
import Shine.Transport.Table

/-!
# The server coroutine of a link (`start`, `handshakeServer`, `readerLoop`)

On a server link one coroutine runs the handshake and then the reader. `Server` is
the link together with the place where that coroutine stands; between two
suspensions it runs one of the pieces below. `Server.turn` is such a piece over the
read buffer: in the handshake a parsed frame is consumed *before* it is decoded, in
the reader after it has been dispatched.

- `serverLoop`: the same as a `FrameLoop`. The handshake's order of `consume` and
  decoding is harmless: only a bulk frame can be decoded from moved memory, and a
  bulk frame fails the handshake whatever it decodes to (`one_agrees`).
- `decoding_ignores_segmentation`: the state of the whole link after a byte string
  does not depend on how TCP splits it.
-/

namespace Shine

/-- Where the server coroutine stands. -/
inductive ServerPc where
  /-- `handshakeServer` waits for its first frame. -/
  | hello
  | sendHello
  /-- `handshakeServer` waits for its second frame. -/
  | auth
  | sendOk
  | sendErr
  | failAuth
  /-- `handshakeServer` has returned to `start`. -/
  | returned
  | reader
  | finished
  deriving DecidableEq, Repr

/-- A server link and its coroutine, with the handshake frames that it has accepted
and the frames that it has handed to `dispatchFrame`. -/
structure Server where
  link : Link
  pc : ServerPc
  accepted : List ShineFrame
  dispatched : List ShineFrame

namespace Server

/-- The coroutine as `start` spawns it. -/
def start (opts : LinkOptions) (handler : Bool) (now : UInt64) : Server where
  link := .new opts handler now
  pc := .hello
  accepted := []
  dispatched := []

/-- `failLink`, and on to `pc`. -/
def fail (s : Server) (pc : ServerPc) : Server := { s with link := s.link.failLink, pc := pc }

/-- The pieces that do not look at the read buffer. -/
def jump (s : Server) : Option Server :=
  match s.pc with
  | .sendHello => some { s with
      link := s.link.enqueueFrame (.hello (ascii "1") (ascii "mux,flow"))
      pc := if s.link.opts.password = [] then .returned else .auth }
  | .sendOk => some { s with link := s.link.enqueueFrame .ok, pc := .returned }
  | .sendErr => some { s with
      link := s.link.enqueueFrame (.err (ascii "AUTH") (ascii "bad password"))
      pc := .failAuth }
  | .failAuth => some (s.fail .returned)
  -- `start` goes on to the reader only on an open link
  | .returned => some { s with pc := if s.link.closed then .finished else .reader }
  | .reader => if s.link.closed then some { s with pc := .finished } else none
  | .hello | .auth | .finished => none

/-- The coroutine is at a piece that decodes a frame. -/
def decoding (s : Server) : Bool :=
  match s.pc with
  | .hello | .auth => true
  | .reader => !s.link.closed
  | _ => false

/-- What the first frame of the handshake does. -/
def onHello (s : Server) : Attempt → Server
  | .frame _ (.hello version modes) =>
    { s with pc := .sendHello, accepted := s.accepted ++ [.hello version modes] }
  | _ => s.fail .returned

/-- What the second frame of the handshake does. -/
def onAuth (s : Server) : Attempt → Server
  | .frame _ (.auth password) =>
    if password ≠ s.link.opts.password then { s with pc := .sendErr }
    else { s with pc := .sendOk, accepted := s.accepted ++ [.auth password] }
  | _ => s.fail .returned

/-- What a frame does in the reader. -/
def onFrame (s : Server) (now : UInt64) : Attempt → Server
  | .frame _ f =>
    { s with link := s.link.dispatchFrame now f, dispatched := s.dispatched ++ [f] }
  | _ => s.fail .finished

/-- What a decoded frame or an error does. -/
def take (s : Server) (now : UInt64) (a : Attempt) : Server :=
  match s.pc with
  | .hello => s.onHello a
  | .auth => s.onAuth a
  | _ => s.onFrame now a

/-- How far the coroutine is from needing a frame. -/
def rank (s : Server) : Nat :=
  match s.pc with
  | .hello => 8
  | .sendHello => 7
  | .auth => 6
  | .sendErr => 5
  | .failAuth => 4
  | .sendOk => 3
  | .returned => 2
  | .reader => 1
  | .finished => 0

end Server

/-- One turn of `one` in the handshake: the frame is consumed before it is decoded,
so a bulk frame points into a buffer that `consume` may have compacted. -/
def one (maxBulk : Nat) (rb : ReadBuffer) : Attempt × ReadBuffer :=
  match tryParse maxBulk rb with
  | .error e => (.refused e, rb)
  | .ok (0, _) => (.more, rb)
  | .ok (n + 1, rf) =>
    (decodeParsed (rb.consume (n + 1)).buf (.ok (n + 1, rf)), rb.consume (n + 1))

/-- One piece of the coroutine; `none` while it waits for bytes and after its end. -/
def Server.turn (maxBulk : Nat) (now : UInt64) (s : Server) (rb : ReadBuffer) :
    Option (Server × ReadBuffer) :=
  match s.jump with
  | some s' => some (s', rb)
  | none =>
    match s.pc with
    | .hello =>
      if (one maxBulk rb).1 = .more then none
      else some (s.onHello (one maxBulk rb).1, (one maxBulk rb).2)
    | .auth =>
      if (one maxBulk rb).1 = .more then none
      else some (s.onAuth (one maxBulk rb).1, (one maxBulk rb).2)
    | .reader =>
      if readAttempt maxBulk rb = .more then none
      else some (s.onFrame now (readAttempt maxBulk rb),
        rb.consume (readAttempt maxBulk rb).taken)
    | _ => none

/-- The argument of `ensure_writable`. -/
def Server.want (s : Server) : Nat :=
  match s.pc with
  | .reader => 16 * 1024
  | _ => 8192

/-- The coroutine as a loop over frames. -/
def serverLoop (now : UInt64) : FrameLoop Server where
  jump := Server.jump
  decoding := Server.decoding
  take s a := s.take now a
  rank := Server.rank
  jump_rank {s s'} h := by
    unfold Server.jump at h
    split at h <;> rename_i hpc
    case h_6 => split_ifs at h; cases h; simp [Server.rank, hpc]
    all_goals cases h
    · simp only [Server.rank, hpc]
      split_ifs <;> decide
    all_goals simp [Server.rank, hpc, Server.fail]
    split_ifs <;> decide
  error_rank {s a} hd hm hf := by
    cases hpc : s.pc with
    | hello | auth | reader =>
      cases a with
      | more => exact absurd rfl hm
      | frame n f => exact absurd rfl (hf n f)
      | refused e | undecodable n e =>
        simp [Server.take, Server.onHello, Server.onAuth, Server.onFrame, Server.fail,
          Server.rank, hpc]
    | _ => simp [Server.decoding, hpc] at hd

/-! ## The order of `consume` and decoding in the handshake -/

/-- Whatever memory a bulk frame is decoded from, the handshake refuses it. -/
theorem decodeParsed_bulk (mem : Bytes) (n off len : Nat) :
    (∃ e, decodeParsed mem (.ok (n + 1, .bulk off len)) = .undecodable (n + 1) e) ∨
      ∃ sid payload, decodeParsed mem (.ok (n + 1, .bulk off len))
        = .frame (n + 1) (.data sid payload) := by
  rw [decodeParsed, decodeShineFrame]
  unfold decodeBulk
  split_ifs
  · exact .inl ⟨_, rfl⟩
  · exact .inr ⟨_, _, rfl⟩

/-- **The handshake decodes what has arrived**: consuming a frame before decoding it
makes no difference to what the handshake does with it. -/
theorem one_agrees (maxBulk : Nat) (rb : ReadBuffer) :
    ((one maxBulk rb).1 = .more ↔ attempt maxBulk rb.view = .more) ∧
    (∀ s : Server, s.onHello (one maxBulk rb).1 = s.onHello (attempt maxBulk rb.view)) ∧
    (∀ s : Server, s.onAuth (one maxBulk rb).1 = s.onAuth (attempt maxBulk rb.view)) ∧
    (one maxBulk rb).2.view = rb.view.drop (attempt maxBulk rb.view).taken := by
  unfold one tryParse attempt
  cases hp : parse maxBulk rb.view with
  | error e => exact ⟨by simp [decodeParsed, Except.map], fun _ => rfl, fun _ => rfl, rfl⟩
  | ok q =>
    obtain ⟨n, rf⟩ := q
    cases n with
    | zero => exact ⟨by simp [decodeParsed, Except.map], fun _ => rfl, fun _ => rfl, rfl⟩
    | succ n =>
      rcases parse_ok_bounds hp with ⟨h₀, -⟩ | ⟨-, hle, ⟨off, len, rfl, -⟩ | ⟨els, rfl⟩⟩
      · exact absurd h₀ (Nat.succ_ne_zero n)
      · simp only [Except.map, Resp2Frame.rebase]
        rcases decodeParsed_bulk (rb.consume (n + 1)).buf n (rb.head + off) len with
          ⟨e, he⟩ | ⟨sid, payload, he⟩ <;>
        rcases decodeParsed_bulk rb.view n off len with ⟨e', he'⟩ | ⟨sid', payload', he'⟩ <;>
        rw [he, he'] <;>
        exact ⟨by simp, fun _ => rfl, fun _ => rfl, rb.view_consume hle⟩
      · have hsame : decodeParsed (rb.consume (n + 1)).buf (.ok (n + 1, .array els))
            = decodeParsed rb.view (.ok (n + 1, .array els)) := rfl
        simp only [Except.map, Resp2Frame.rebase]
        rw [hsame]
        refine ⟨Iff.rfl, fun _ => rfl, fun _ => rfl, ?_⟩
        have htaken : (decodeParsed rb.view (.ok (n + 1, .array els))).taken = n + 1 := by
          rw [decodeParsed]
          cases decodeShineFrame rb.view (.array els) <;> rfl
        rw [htaken]
        exact rb.view_consume hle

/-- What `turn` has to be for the loop to be the coroutine. -/
def Server.Follows (maxBulk : Nat) (now : UInt64) (s : Server) (rb : ReadBuffer) :
    Option (Server × ReadBuffer) → Prop
  | none => (serverLoop now).step maxBulk s rb.view = none
  | some (s', rb') => ∃ n, (serverLoop now).step maxBulk s rb.view = some (n, s') ∧
      rb'.view = rb.view.drop n

/-- Every piece of the coroutine is a step of the loop on the readable bytes. -/
theorem Server.turn_follows (maxBulk : Nat) (now : UInt64) (s : Server) (rb : ReadBuffer) :
    s.Follows maxBulk now rb (s.turn maxBulk now rb) := by
  obtain ⟨hmore, hhello, hauth, hview⟩ := one_agrees maxBulk rb
  unfold Server.turn
  cases hj : s.jump with
  | some s' => exact ⟨0, (serverLoop now).step_of_jump maxBulk hj _, List.drop_zero.symm⟩
  | none =>
    cases hpc : s.pc with
    | hello =>
      have hstep := (serverLoop now).step_of_decoding maxBulk hj
        (show s.decoding = true by simp [decoding, hpc]) rb.view
      simp only
      split_ifs with hm
      · rw [Follows, hstep, hmore.mp hm]
        rfl
      · refine ⟨_, ?_, hview⟩
        rw [hstep, FrameLoop.react, if_neg (fun h => hm (hmore.mpr h)), hhello]
        simp [serverLoop, take, hpc]
    | auth =>
      have hstep := (serverLoop now).step_of_decoding maxBulk hj
        (show s.decoding = true by simp [decoding, hpc]) rb.view
      simp only
      split_ifs with hm
      · rw [Follows, hstep, hmore.mp hm]
        rfl
      · refine ⟨_, ?_, hview⟩
        rw [hstep, FrameLoop.react, if_neg (fun h => hm (hmore.mpr h)), hauth]
        simp [serverLoop, take, hpc]
    | reader =>
      have hopen : s.link.closed = false := by simpa [jump, hpc] using hj
      have hstep := (serverLoop now).step_of_decoding maxBulk hj
        (show s.decoding = true by simp [decoding, hpc, hopen]) rb.view
      simp only [readAttempt_eq]
      split_ifs with hm
      · rw [Follows, hstep, hm]
        rfl
      · refine ⟨_, ?_, rb.view_consume (attempt_taken_le maxBulk rb.view)⟩
        rw [hstep, FrameLoop.react, if_neg hm]
        simp [serverLoop, take, hpc]
    | finished =>
      exact (serverLoop now).step_of_ended maxBulk hj
        (show s.decoding = false by simp [decoding, hpc]) rb.view
    | sendHello | sendOk | sendErr | failAuth | returned => simp [jump, hpc] at hj

/-- The server coroutine reading from its socket. -/
def serverReader (maxBulk : Nat) (now : UInt64) : Reader Server where
  turn := Server.turn maxBulk now
  want s _ _ := s.want
  reading s := s.jump.isSome || s.decoding
  machine := (serverLoop now).machine maxBulk
  want_pos s _ _ := by
    unfold Server.want
    split <;> decide
  turn_none {s rb} h := by
    have hf := s.turn_follows maxBulk now rb
    rwa [h] at hf
  turn_some {s rb s' rb'} h := by
    have hf := s.turn_follows maxBulk now rb
    rwa [h] at hf
  stopped {s} b h := by
    rw [Bool.or_eq_false_iff] at h
    exact (serverLoop now).step_of_ended maxBulk (show s.jump = none by simpa using h.1) h.2 b

/-! ## Segmentation -/

/-- A parse that takes bytes comes out the same on every extension of the buffer:
the same count and the same contents. -/
theorem tryParse_extend {maxBulk : Nat} {rb rb' : ReadBuffer} {x : Bytes}
    (hview : rb'.view = rb.view ++ x) {n : Nat} {f : Resp2Frame}
    (h : tryParse maxBulk rb = .ok (n, f)) (hn : 0 < n) :
    ∃ f', tryParse maxBulk rb' = .ok (n, f') ∧ f'.contents rb'.buf = f.contents rb.buf := by
  cases hp : parse maxBulk rb.view with
  | error e => simp [tryParse, hp, Except.map] at h
  | ok q =>
    obtain ⟨k, rf⟩ := q
    obtain ⟨rfl, rfl⟩ : k = n ∧ rf.rebase rb.head = f := by
      simpa [tryParse, hp, Except.map] using h
    have hx : parse maxBulk rb'.view = .ok (k, rf) := by
      rw [hview]
      refine parse_append x hp fun h₀ => ?_
      cases h₀
      exact Nat.lt_irrefl 0 hn
    refine ⟨rf.rebase rb'.head, by rw [tryParse, hx]; rfl, ?_⟩
    rcases parse_ok_bounds hp with ⟨h₀, -⟩ | ⟨-, hle, ⟨off, len, rfl, hlen⟩ | ⟨els, rfl⟩⟩
    · omega
    · have hle' : off + len ≤ rb'.view.length := by
        rw [hview, List.length_append]
        omega
      simp only [Resp2Frame.rebase, Resp2Frame.contents]
      rw [← slice_view rb' hle', ← slice_view rb (by omega), hview, slice_append x (by omega)]
    · rfl

/-- An error comes out the same on every extension of the buffer. -/
theorem tryParse_error_extend {maxBulk : Nat} {rb rb' : ReadBuffer} {x : Bytes}
    (hview : rb'.view = rb.view ++ x) {e : Status} (h : tryParse maxBulk rb = .error e) :
    tryParse maxBulk rb' = .error e := by
  cases hp : parse maxBulk rb.view with
  | ok q => simp [tryParse, hp, Except.map] at h
  | error e' =>
    obtain rfl : e' = e := by simpa [tryParse, hp, Except.map] using h
    rw [tryParse, hview, parse_append x hp (by simp)]
    rfl

/-- **Decoding does not depend on how TCP splits the bytes.** For two ways of
splitting one byte string, the handshake and the reader of a server link end in the
same state: the same handshake frames accepted, the same frames dispatched, the
coroutine at the same place and the link in the same condition. And the parser's
decisions — a frame or an error — are the same on every extension of the buffer. -/
theorem decoding_ignores_segmentation (opts : LinkOptions) (handler : Bool) (now : UInt64)
    (initial : Nat) {ps qs : List Bytes} (h : ps.flatten = qs.flatten) :
    ((serverReader opts.maxPayload now).run (.start opts handler now) (.new initial) ps).1
      = ((serverReader opts.maxPayload now).run (.start opts handler now) (.new initial) qs).1 ∧
    (∀ (rb rb' : ReadBuffer) (x : Bytes) (n : Nat) (f : Resp2Frame),
      rb'.view = rb.view ++ x → tryParse opts.maxPayload rb = .ok (n, f) → 0 < n →
        ∃ f', tryParse opts.maxPayload rb' = .ok (n, f') ∧
          f'.contents rb'.buf = f.contents rb.buf) ∧
    (∀ (rb rb' : ReadBuffer) (x : Bytes) (e : Status),
      rb'.view = rb.view ++ x → tryParse opts.maxPayload rb = .error e →
        tryParse opts.maxPayload rb' = .error e) :=
  ⟨(serverReader opts.maxPayload now).run_state_eq _ _ h,
    fun _ _ _ _ _ hview hok hn => tryParse_extend hview hok hn,
    fun _ _ _ _ hview herr => tryParse_error_extend hview herr⟩

theorem decoding_ignores_segmentation_hello :
    ((serverReader 64 0).run (.start Link.sampleOpts true 0) (.new 16)
        [(encode (.hello [49] [])).take 3, (encode (.hello [49] [])).drop 3]).1
      = ((serverReader 64 0).run (.start Link.sampleOpts true 0) (.new 16)
        [encode (.hello [49] [])]).1 :=
  (decoding_ignores_segmentation Link.sampleOpts true 0 16 (by simp)).1

end Shine
