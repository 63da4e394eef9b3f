import Shine.Proto.ShineFrame
import Shine.Transport.WriteCall

/-!
# What `Session::write` sends (`transport/session.cpp`, `transport/link.cpp`)

The call of `WriteCall` once more, with `Link::enqueueFrame` taken apart: it looks at
`closed_`, calls `async_send`, and is suspended until `write_chan_` has taken the frame. The
link may be closed at any of these points, first `closed_` and then the channel.

`chunked_write_exact_iff`: the frames that the channel takes cut the data into pieces that
credit and frame size allow, and no piece is missing while the link is open. The one way out
is `send_credit_`, which is an `i64` that `onWindow` adds to unchecked.
-/

namespace Shine

/-- A DATA frame that `write_chan_` has accepted, with its payload and with `send_credit_` as
it was when the payload was taken from it. -/
structure SentData where
  wire : Bytes
  payload : Bytes
  credit : Int64
  deriving DecidableEq

/-- The frame is well formed, and its payload was allowed. -/
structure SentData.Fits (maxDataFrame : Nat) (sid : UInt64) (f : SentData) : Prop where
  wire : f.wire = encodeData sid f.payload
  nonempty : f.payload ≠ []
  size : f.payload.length ≤ maxDataFrame
  credit : f.payload.length ≤ f.credit.toInt

/-- Where `enqueueFrame` stands. -/
inductive SendPhase where
  /-- At `closed_.load`, or not called. -/
  | idle
  /-- At the call of `async_send`. -/
  | tested
  /-- `async_send` has not completed. -/
  | offered
  deriving DecidableEq

/-- A call of `write` that sends. `before` is `send_credit_` as the
last access of the call has found it, `granted` the sum of what `onWindow` has added, `lost`
what was to be sent on a closed link. -/
structure ChunkedWrite where
  call : WriteCall
  phase : SendPhase
  chanClosed : Bool
  before : Int64
  granted : Nat
  frames : List SentData
  lost : Bytes
  deriving DecidableEq

/-- What `onWindow` adds. -/
def WriteCall.Event.grant : WriteCall.Event → Nat
  | .addCredit delta => delta.toNat
  | _ => 0

/-- Neither a chunk at hand nor success. -/
def WritePc.neutral : WritePc → Bool
  | .takeCredit _ | .enqueue _ | .returned (.ok _) => false
  | _ => true

namespace ChunkedWrite

/-- What can happen next. -/
inductive Event where
  /-- What can happen to a call of `write`. -/
  | call (e : WriteCall.Event)
  /-- `async_send` completes: the channel has taken the frame. -/
  | sent
  /-- `async_send` completes with an error. -/
  | refused
  /-- `write_chan_->close()`, which comes behind `closed_`. -/
  | closeChan
  deriving DecidableEq

variable (c : ChunkedWrite)

/-- The bytes of all frames that the channel has taken. -/
def payloads : Bytes := (c.frames.map SentData.payload).flatten

/-- Behind `enqueueFrame`. -/
def finish (chunk : Nat) : ChunkedWrite :=
  { c with
    call := { c.call with remaining := c.call.remaining.drop chunk, pc := .loop }
    phase := .idle }

/-- The channel takes the frame. -/
def accept (sid : UInt64) (chunk : Nat) : ChunkedWrite :=
  let payload := c.call.remaining.take chunk
  { c.finish chunk with frames := c.frames ++ [⟨encodeData sid payload, payload, c.before⟩] }

/-- The frame is dropped. -/
def drop (chunk : Nat) : ChunkedWrite :=
  { c.finish chunk with lost := c.lost ++ c.call.remaining.take chunk }

/-- `enqueueFrame` of a frame with `chunk` bytes. -/
def enqueueFrame (chunk : Nat) : Option ChunkedWrite :=
  match c.phase with
  | .idle => some (if c.call.linkClosed then c.drop chunk else { c with phase := .tested })
  | .tested => some (if c.chanClosed then c.drop chunk else { c with phase := .offered })
  | .offered => none

/-- One step of `Session::write`. -/
def own (maxDataFrame : Nat) : Option ChunkedWrite :=
  match c.call.pc with
  | .enqueue chunk => c.enqueueFrame chunk
  | _ => (c.call.own maxDataFrame).map fun call => { c with call, before := c.call.credit }

/-- The chunk that has been offered to the channel. -/
def offer : Option Nat :=
  match c.phase, c.call.pc with
  | .offered, .enqueue chunk => some chunk
  | _, _ => none

/-- One step. -/
def step (maxDataFrame : Nat) (sid : UInt64) : Event → Option ChunkedWrite
  | .call .write => c.own maxDataFrame
  | .call e => (c.call.step maxDataFrame e).map fun call =>
      { c with call, granted := c.granted + e.grant }
  | .sent => c.offer.map fun chunk => c.accept sid chunk
  | .refused => if c.chanClosed then c.offer.map fun chunk => c.drop chunk else none
  | .closeChan => if c.call.linkClosed then some { c with chanClosed := true } else none

/-- All interleavings. -/
def system (maxDataFrame : Nat) (sid : UInt64) : Lts ChunkedWrite Event :=
  ⟨fun c => c.step maxDataFrame sid⟩

/-- A call of `write`, on a session with any credit. -/
def start (call : WriteCall) : ChunkedWrite := ⟨call, .idle, false, 0, 0, [], []⟩

/-! ## What is to be shown -/

/-- Sending is exact. -/
structure Exact (maxDataFrame : Nat) (sid : UInt64) (data : Bytes) : Prop where
  fits : ∀ f ∈ c.frames, f.Fits maxDataFrame sid
  payloads : c.payloads <+: data
  credit : 0 ≤ c.call.credit.toInt
  complete : c.call.pc = .returned (.ok ()) → c.call.linkClosed = false → c.payloads = data

variable {c} {c' : ChunkedWrite} {maxDataFrame : Nat} {sid : UInt64} {data : Bytes}

/-- `n` of the bytes that remain can be sent with this credit. -/
structure Chunk (remaining : Bytes) (maxDataFrame n : Nat) (credit : Int64) : Prop where
  pos : 0 < n
  remaining : n ≤ remaining.length
  size : n ≤ maxDataFrame
  credit : n ≤ credit.toInt

/-- As long as `send_credit_` does not overflow, it covers the chunk at hand. -/
structure Inv (init : Int) (maxDataFrame : Nat) (sid : UInt64) (data : Bytes)
    (c : ChunkedWrite) : Prop where
  nonneg : 0 ≤ c.call.credit.toInt
  bounded : c.call.credit.toInt ≤ init + c.granted
  fits : ∀ f ∈ c.frames, f.Fits maxDataFrame sid
  parts : c.payloads ++ c.lost ++ c.call.remaining = data
  closed : c.lost ≠ [] → c.call.linkClosed = true
  testing : c.phase ≠ .idle → c.lost = []
  chan : c.chanClosed = true → c.call.linkClosed = true
  taking : ∀ n, c.call.pc = .takeCredit n → Chunk c.call.remaining maxDataFrame n c.call.credit
  sending : ∀ n, c.call.pc = .enqueue n → Chunk c.call.remaining maxDataFrame n c.before
  done : c.call.pc = .returned (.ok ()) → c.call.remaining = []

/-! ## The arithmetic of `send_credit_` -/

section Credit

variable {credit : Int64}

theorem toInt_grant (delta : UInt32) : delta.toUInt64.toInt64.toInt = delta.toNat := by
  show delta.toUInt64.toBitVec.toInt = delta.toNat
  have hlt := delta.toNat_lt
  have hnat : delta.toUInt64.toBitVec.toNat = delta.toNat := by simp
  rw [BitVec.toInt_eq_toNat_cond, hnat, if_pos (by omega)]

theorem toInt_add_grant {delta : UInt32} (h0 : 0 ≤ credit.toInt)
    (hlt : credit.toInt + delta.toNat < 2 ^ 63) :
    (credit + delta.toUInt64.toInt64).toInt = credit.toInt + delta.toNat := by
  rw [Int64.toInt_add, toInt_grant]
  exact Int.bmod_eq_of_le (by omega) (by omega)

theorem toInt_sub_chunk {n : Nat} (hn : n ≤ credit.toInt) :
    (credit - Int64.ofNat n).toInt = credit.toInt - n := by
  have hlt := credit.toInt_lt
  rw [Int64.toInt_sub, Int64.toInt_ofNat_of_lt (by omega)]
  exact Int.bmod_eq_of_le (by omega) (by omega)

theorem toNat_credit (h0 : 0 ≤ credit.toInt) : (credit.toUInt64.toNat : Int) = credit.toInt := by
  have hlt := credit.toBitVec.isLt
  have hcond := BitVec.toInt_eq_toNat_cond credit.toBitVec
  rw [← Int64.toNat_toBitVec]
  change 0 ≤ credit.toBitVec.toInt at h0
  show _ = credit.toBitVec.toInt
  split_ifs at hcond with hhalf
  · exact hcond.symm
  · omega

end Credit

section Keep

variable {init : Int}

theorem Inv.exact (h : c.Inv init maxDataFrame sid data) : c.Exact maxDataFrame sid data where
  fits := h.fits
  payloads := ⟨c.lost ++ c.call.remaining, by rw [← List.append_assoc, h.parts]⟩
  credit := h.nonneg
  complete hpc hopen := by
    have hlost : c.lost = [] := by
      by_contra hne
      rw [h.closed hne] at hopen
      cases hopen
    rw [← h.parts, hlost, h.done hpc, List.append_nil, List.append_nil]

/-- Steps that touch neither credit nor data, and stay where they are or do not get to a
chunk. -/
theorem Inv.quiet (h : c.Inv init maxDataFrame sid data) {call : WriteCall} {before : Int64}
    (hcredit : call.credit = c.call.credit) (hremaining : call.remaining = c.call.remaining)
    (hlink : c.call.linkClosed = true → call.linkClosed = true)
    (hpc : call.pc.neutral = true ∨ call.pc = c.call.pc ∧ before = c.before) :
    Inv init maxDataFrame sid data { c with call, before } := by
  obtain ⟨credit, signal, state, linkClosed, adding, pc, remaining, accepted⟩ := call
  obtain rfl : credit = _ := hcredit
  obtain rfl : remaining = _ := hremaining
  refine ⟨h.nonneg, h.bounded, h.fits, h.parts, fun hne => hlink (h.closed hne), h.testing,
    fun hchan => hlink (h.chan hchan), ?_, ?_, ?_⟩
  · rintro n (rfl : pc = _)
    obtain ⟨hsame, -⟩ := hpc.resolve_left Bool.false_ne_true
    exact h.taking n hsame.symm
  · rintro n (rfl : pc = _)
    obtain ⟨hsame, rfl⟩ := hpc.resolve_left Bool.false_ne_true
    exact h.sending n hsame.symm
  · rintro (rfl : pc = _)
    obtain ⟨hsame, -⟩ := hpc.resolve_left Bool.false_ne_true
    exact h.done hsame.symm

/-- A frame is dropped on a closed link. -/
theorem Inv.drop (h : c.Inv init maxDataFrame sid data) (hlink : c.call.linkClosed = true)
    (n : Nat) : (c.drop n).Inv init maxDataFrame sid data where
  nonneg := h.nonneg
  bounded := h.bounded
  fits := h.fits
  parts := by
    rw [← h.parts]
    show c.payloads ++ (c.lost ++ c.call.remaining.take n) ++ c.call.remaining.drop n = _
    rw [← List.append_assoc, List.append_assoc, List.take_append_drop]
  closed _ := hlink
  testing hphase := absurd rfl hphase
  chan _ := hlink
  taking n heq := by cases heq
  sending n heq := by cases heq
  done heq := by cases heq

/-- The channel takes a frame. -/
theorem Inv.accept (h : c.Inv init maxDataFrame sid data) {n : Nat}
    (hn : Chunk c.call.remaining maxDataFrame n c.before) (hlost : c.lost = []) :
    (c.accept sid n).Inv init maxDataFrame sid data where
  nonneg := h.nonneg
  bounded := h.bounded
  fits f hf := by
    rcases List.mem_append.mp hf with hf | hf
    · exact h.fits f hf
    obtain rfl := List.mem_singleton.mp hf
    have hlen : (c.call.remaining.take n).length = n := List.length_take_of_le hn.remaining
    refine ⟨rfl, ?_, ?_, ?_⟩
    · exact List.ne_nil_of_length_pos (by rw [hlen]; exact hn.pos)
    · exact hlen.symm ▸ hn.size
    · exact hlen.symm ▸ hn.credit
  parts := by
    rw [← h.parts]
    show ((c.frames ++ [_]).map SentData.payload).flatten ++ c.lost ++ c.call.remaining.drop n = _
    simp [payloads, hlost]
  closed hne := absurd hlost hne
  testing _ := hlost
  chan := h.chan
  taking n heq := by cases heq
  sending n heq := by cases heq
  done heq := by cases heq

theorem Inv.enqueueFrame (h : c.Inv init maxDataFrame sid data) {n : Nat}
    (hstep : c.enqueueFrame n = some c') :
    c'.Inv init maxDataFrame sid data := by
  unfold ChunkedWrite.enqueueFrame at hstep
  cases hphase : c.phase with
  | idle =>
    simp only [hphase, Option.some.injEq] at hstep
    subst hstep
    by_cases hlink : c.call.linkClosed = true
    · rw [if_pos hlink]
      exact h.drop hlink n
    · rw [if_neg hlink]
      have hlost : c.lost = [] := by
        by_contra hne
        exact hlink (h.closed hne)
      exact { h with testing := fun _ => hlost }
  | tested =>
    simp only [hphase, Option.some.injEq] at hstep
    subst hstep
    by_cases hchan : c.chanClosed = true
    · rw [if_pos hchan]
      exact h.drop (h.chan hchan) n
    · rw [if_neg hchan]
      have hlost : c.lost = [] := h.testing (by rw [hphase]; rintro ⟨⟩)
      exact { h with testing := fun _ => hlost }
  | offered =>
    simp only [hphase] at hstep
    cases hstep

/-- `send_credit_.load`, for the chunk. -/
theorem Inv.loadChunk (h : c.Inv init maxDataFrame sid data)
    (hchunk : c.call.chunk maxDataFrame ≠ 0) :
    Inv init maxDataFrame sid data
      { c with
        call := c.call.goto (.takeCredit (c.call.chunk maxDataFrame))
        before := c.call.credit } := by
  have hcredit := toNat_credit h.nonneg
  have hall : Chunk c.call.remaining maxDataFrame (c.call.chunk maxDataFrame) c.call.credit := by
    unfold WriteCall.chunk at hchunk ⊢
    exact ⟨by omega, by omega, by omega, by omega⟩
  refine ⟨h.nonneg, h.bounded, h.fits, h.parts, h.closed, h.testing, h.chan, ?_, ?_, ?_⟩
  · rintro n ⟨⟩
    exact hall
  · rintro n ⟨⟩
  · rintro ⟨⟩

/-- `send_credit_.fetch_sub`. -/
theorem Inv.takeCredit (h : c.Inv init maxDataFrame sid data) {n : Nat}
    (hpc : c.call.pc = .takeCredit n) :
    Inv init maxDataFrame sid data
      { c with
        call := { c.call with credit := c.call.credit - Int64.ofNat n, pc := .enqueue n }
        before := c.call.credit } := by
  have hchunk := h.taking n hpc
  have hcredit := toInt_sub_chunk hchunk.credit
  have hle := hchunk.credit
  have hbounded := h.bounded
  refine ⟨?_, ?_, h.fits, h.parts, h.closed, h.testing, h.chan, ?_, ?_, ?_⟩
  · show 0 ≤ (c.call.credit - Int64.ofNat n).toInt
    omega
  · show (c.call.credit - Int64.ofNat n).toInt ≤ init + c.granted
    omega
  · rintro m ⟨⟩
  · rintro m ⟨⟩
    exact hchunk
  · rintro ⟨⟩

theorem asyncReceive_quiet (w : WriteCall) :
    w.asyncReceive.credit = w.credit ∧ w.asyncReceive.remaining = w.remaining ∧
      w.asyncReceive.linkClosed = w.linkClosed ∧ w.asyncReceive.pc.neutral = true := by
  unfold WriteCall.asyncReceive
  cases w.signal.receive with
  | some r => exact ⟨rfl, rfl, rfl, rfl⟩
  | none => cases w.signal.closed <;> exact ⟨rfl, rfl, rfl, rfl⟩

theorem Inv.own (h : c.Inv init maxDataFrame sid data) (hstep : c.own maxDataFrame = some c') :
    c'.Inv init maxDataFrame sid data := by
  unfold ChunkedWrite.own at hstep
  cases hpc : c.call.pc with
  | enqueue n =>
    simp only [hpc] at hstep
    exact h.enqueueFrame hstep
  | takeCredit n =>
    simp only [hpc, WriteCall.own, Option.map_some, Option.some.injEq] at hstep
    subst hstep
    exact h.takeCredit hpc
  | loadChunk =>
    simp only [hpc, WriteCall.own, Option.map_some, Option.some.injEq] at hstep
    subst hstep
    by_cases hchunk : c.call.chunk maxDataFrame = 0
    · rw [if_pos hchunk]
      exact h.quiet rfl rfl id (Or.inl rfl)
    · rw [if_neg hchunk]
      exact h.loadChunk hchunk
  | loop =>
    simp only [hpc, WriteCall.own, Option.map_some, Option.some.injEq] at hstep
    subst hstep
    by_cases hremaining : c.call.remaining = []
    · rw [if_pos hremaining]
      refine ⟨h.nonneg, h.bounded, h.fits, h.parts, h.closed, h.testing, h.chan, ?_, ?_,
        fun _ => hremaining⟩
      · rintro n ⟨⟩
      · rintro n ⟨⟩
    · rw [if_neg hremaining]
      exact h.quiet rfl rfl id (Or.inl rfl)
  | receive =>
    simp only [hpc, WriteCall.own, Option.map_some, Option.some.injEq] at hstep
    subst hstep
    obtain ⟨hcredit, hremaining, hlink, hneutral⟩ := asyncReceive_quiet c.call
    exact h.quiet hcredit hremaining (fun hclosed => hlink.trans hclosed) (Or.inl hneutral)
  | suspended | returned status =>
    simp only [hpc, WriteCall.own] at hstep
    cases hstep
  | checkLink | checkState | loadCredit | woken =>
    simp only [hpc, WriteCall.own, Option.map_some, Option.some.injEq] at hstep
    subst hstep
    split_ifs
    · exact h.quiet rfl rfl id (Or.inl rfl)
    · exact h.quiet rfl rfl id (Or.inl rfl)

/-- `onWindow` adds to `send_credit_`. -/
theorem Inv.addCredit (h : c.Inv init maxDataFrame sid data) {delta : UInt32} {adding : Nat}
    (hlt : init + (c.granted + delta.toNat) < 2 ^ 63) :
    Inv init maxDataFrame sid data
      { c with
        call := { c.call with credit := c.call.credit + delta.toUInt64.toInt64, adding }
        granted := c.granted + delta.toNat } := by
  have hnonneg := h.nonneg
  have hbounded := h.bounded
  have hcredit : (c.call.credit + delta.toUInt64.toInt64).toInt = _ :=
    toInt_add_grant hnonneg (by omega)
  refine ⟨?_, ?_, h.fits, h.parts, h.closed, h.testing, h.chan, ?_, h.sending, h.done⟩
  · show 0 ≤ (c.call.credit + delta.toUInt64.toInt64).toInt
    omega
  · show (c.call.credit + delta.toUInt64.toInt64).toInt ≤ init + (c.granted + delta.toNat : Nat)
    omega
  · intro n hpc
    have hchunk := h.taking n hpc
    have hle := hchunk.credit
    refine ⟨hchunk.pos, hchunk.remaining, hchunk.size, ?_⟩
    show (n : Int) ≤ (c.call.credit + delta.toUInt64.toInt64).toInt
    omega

/-- Signals, and what closes the session or the link. -/
theorem Inv.other (h : c.Inv init maxDataFrame sid data) {e : WriteCall.Event} {w : WriteCall}
    (hwrite : e ≠ .write) (hgrant : ∀ delta, e ≠ .addCredit delta)
    (hstep : c.call.step maxDataFrame e = some w) :
    Inv init maxDataFrame sid data { c with call := w } := by
  cases e with
  | write => exact absurd rfl hwrite
  | addCredit delta => exact absurd rfl (hgrant delta)
  | signal =>
    simp only [WriteCall.step] at hstep
    split_ifs at hstep
    cases hstep
    unfold WriteCall.trySend
    split_ifs
    · exact h.quiet rfl rfl id (Or.inr ⟨rfl, rfl⟩)
    · exact h.quiet rfl rfl id (Or.inl rfl)
    · exact h.quiet rfl rfl id (Or.inr ⟨rfl, rfl⟩)
  | setState state =>
    cases hstep
    exact h.quiet rfl rfl id (Or.inr ⟨rfl, rfl⟩)
  | closeSignal =>
    cases hstep
    unfold WriteCall.closeSignal
    by_cases hpc : c.call.pc = .suspended
    · rw [if_pos hpc]
      exact h.quiet rfl rfl id (Or.inl rfl)
    · rw [if_neg hpc]
      exact h.quiet rfl rfl id (Or.inr ⟨rfl, rfl⟩)
  | closeLink =>
    cases hstep
    exact h.quiet rfl rfl (fun _ => rfl) (Or.inr ⟨rfl, rfl⟩)

theorem of_offer {n : Nat} (h : c.offer = some n) :
    c.phase = .offered ∧ c.call.pc = .enqueue n := by
  unfold offer at h
  split at h
  · next hphase hpc =>
    cases h
    exact ⟨hphase, hpc⟩
  · cases h

/-- The steps beside `write` are those of the call. -/
theorem step_call {e : WriteCall.Event} (he : e ≠ .write) :
    c.step maxDataFrame sid (.call e) = (c.call.step maxDataFrame e).map fun call =>
      { c with call, granted := c.granted + e.grant } := by
  cases e with
  | write => exact absurd rfl he
  | addCredit delta | signal | setState state | closeSignal | closeLink => rfl

theorem granted_own (h : c.own maxDataFrame = some c') : c'.granted = c.granted := by
  unfold ChunkedWrite.own at h
  split at h
  · unfold ChunkedWrite.enqueueFrame at h
    split at h
    · cases h
      split_ifs <;> rfl
    · cases h
      split_ifs <;> rfl
    · cases h
  · obtain ⟨w, -, rfl⟩ := Option.map_eq_some_iff.mp h
    rfl

/-- What `onWindow` has added only grows. -/
theorem granted_le {e : Event} (h : c.step maxDataFrame sid e = some c') :
    c.granted ≤ c'.granted := by
  cases e with
  | call e =>
    by_cases he : e = .write
    · subst he
      exact Nat.le_of_eq (granted_own h).symm
    · rw [step_call he] at h
      obtain ⟨w, -, rfl⟩ := Option.map_eq_some_iff.mp h
      exact Nat.le_add_right _ _
  | sent =>
    obtain ⟨n, -, rfl⟩ := Option.map_eq_some_iff.mp h
    exact Nat.le_refl _
  | refused =>
    simp only [ChunkedWrite.step] at h
    split_ifs at h
    obtain ⟨n, -, rfl⟩ := Option.map_eq_some_iff.mp h
    exact Nat.le_refl _
  | closeChan =>
    simp only [ChunkedWrite.step] at h
    split_ifs at h
    cases h
    exact Nat.le_refl _

theorem Inv.call (h : c.Inv init maxDataFrame sid data) {e : WriteCall.Event}
    (hstep : c.step maxDataFrame sid (.call e) = some c') (hlt : init + c'.granted < 2 ^ 63) :
    c'.Inv init maxDataFrame sid data := by
  cases e with
  | write => exact h.own hstep
  | addCredit delta =>
    cases hstep
    exact h.addCredit hlt
  | signal | setState state | closeSignal | closeLink =>
    rw [step_call (by rintro ⟨⟩)] at hstep
    obtain ⟨w, hw, rfl⟩ := Option.map_eq_some_iff.mp hstep
    exact h.other (by rintro ⟨⟩) (by rintro delta ⟨⟩) hw

theorem Inv.step (h : c.Inv init maxDataFrame sid data) {e : Event}
    (hstep : c.step maxDataFrame sid e = some c') (hlt : init + c'.granted < 2 ^ 63) :
    c'.Inv init maxDataFrame sid data := by
  cases e with
  | call e => exact h.call hstep hlt
  | sent =>
    obtain ⟨n, hoffer, rfl⟩ := Option.map_eq_some_iff.mp hstep
    obtain ⟨hphase, hpc⟩ := of_offer hoffer
    exact h.accept (h.sending n hpc) (h.testing (by rw [hphase]; rintro ⟨⟩))
  | refused =>
    simp only [ChunkedWrite.step] at hstep
    split_ifs at hstep with hchan
    obtain ⟨n, -, rfl⟩ := Option.map_eq_some_iff.mp hstep
    exact h.drop (h.chan hchan) n
  | closeChan =>
    simp only [ChunkedWrite.step] at hstep
    split_ifs at hstep with hlink
    cases hstep
    exact { h with chan := fun _ => hlink }

/-- All that is reached before `send_credit_` overflows is exact. -/
theorem Inv.reach {w : WriteCall} (hpc : w.pc = .checkLink) (hnonneg : 0 ≤ w.credit.toInt)
    (hreach : (system maxDataFrame sid).Reach Lts.Free (start w) c)
    (hlt : w.credit.toInt + c.granted < 2 ^ 63) :
    c.Inv w.credit.toInt maxDataFrame sid w.remaining := by
  induction hreach with
  | refl =>
    refine ⟨hnonneg, by simp [start], by simp [start], by simp [start, ChunkedWrite.payloads],
      fun hne => absurd rfl hne, fun _ => rfl, by rintro ⟨⟩, ?_, ?_, ?_⟩
    · intro n heq
      cases hpc.symm.trans heq
    · intro n heq
      cases hpc.symm.trans heq
    · intro heq
      cases hpc.symm.trans heq
  | tail hreach _ hstep ih =>
    have hgranted := granted_le hstep
    exact (ih (by omega)).step hstep hlt

end Keep

/-! ## Overflow -/

section Overflow

variable {w : WriteCall}

/-- A call of `onWindow` that adds one. -/
theorem reach_addOne (h : (system maxDataFrame sid).Reach Lts.Free (start w) c) :
    (system maxDataFrame sid).Reach Lts.Free (start w)
      { c with
        call := { c.call with credit := c.call.credit + 1, adding := c.call.adding + 1 }
        granted := c.granted + 1 } :=
  h.tail (e := .call (.addCredit 1)) trivial rfl

/-- As many of them as do not overflow. -/
theorem exists_granted (maxDataFrame : Nat) (sid : UInt64) (hnonneg : 0 ≤ w.credit.toInt)
    (n : Nat) (hlt : w.credit.toInt + n < 2 ^ 63) :
    ∃ c, (system maxDataFrame sid).Reach Lts.Free (start w) c ∧ c.granted = n ∧
      c.call.credit.toInt = w.credit.toInt + n := by
  induction n with
  | zero => exact ⟨_, .refl, rfl, by simp [start]⟩
  | succ n ih =>
    obtain ⟨c, hreach, hgranted, hcredit⟩ := ih (by omega)
    refine ⟨_, reach_addOne hreach, congrArg (· + 1) hgranted, ?_⟩
    show (c.call.credit + 1).toInt = _
    rw [Int64.toInt_add, Int.bmod_eq_of_le] <;> simp <;> omega

/-- One more, and `send_credit_` is negative. -/
theorem exists_negative (maxDataFrame : Nat) (sid : UInt64) (hnonneg : 0 ≤ w.credit.toInt)
    {total : Nat} (htotal : 2 ^ 63 ≤ w.credit.toInt + total) :
    ∃ c, (system maxDataFrame sid).Reach Lts.Free (start w) c ∧ c.granted ≤ total ∧
      c.call.credit.toInt < 0 := by
  have hlt := w.credit.toInt_lt
  obtain ⟨c, hreach, hgranted, hcredit⟩ := exists_granted maxDataFrame sid hnonneg
    (2 ^ 63 - 1 - w.credit.toInt).toNat (by omega)
  refine ⟨_, reach_addOne hreach, ?_, ?_⟩
  · show c.granted + 1 ≤ total
    omega
  · have hmax : c.call.credit.toInt = 2 ^ 63 - 1 := by omega
    show (c.call.credit + 1).toInt < 0
    rw [Int64.toInt_add, hmax]
    decide

end Overflow

/-- **A write sends exactly its data, however it is interleaved with grants and with the end of
the link, as long as the credit and what is granted fit an `i64`.** -/
theorem chunked_write_exact_iff (maxDataFrame : Nat) (sid : UInt64) (w : WriteCall)
    (hpc : w.pc = .checkLink) (total : Nat) :
    (∀ c, (system maxDataFrame sid).Reach Lts.Free (start w) c → c.granted ≤ total →
        c.Exact maxDataFrame sid w.remaining)
      ↔ 0 ≤ w.credit.toInt ∧ w.credit.toInt + total < 2 ^ 63 := by
  constructor
  · intro hall
    have hnonneg : 0 ≤ w.credit.toInt := (hall _ .refl (Nat.zero_le _)).credit
    refine ⟨hnonneg, ?_⟩
    by_contra hover
    obtain ⟨c, hreach, hgranted, hneg⟩ := exists_negative maxDataFrame sid hnonneg
      (Int.not_lt.mp hover)
    have hcredit := (hall c hreach hgranted).credit
    omega
  · rintro ⟨hnonneg, hlt⟩ c hreach hgranted
    exact (Inv.reach hpc hnonneg hreach (by omega)).exact

/-- Credit for three bytes, sent in frames of at most two. -/
def sampleEvents : List Event :=
  .call (.addCredit 3) :: List.replicate 8 (.call .write) ++ [.sent]
    ++ List.replicate 6 (.call .write) ++ [.sent, .call .write]

theorem chunked_write_exact_iff_three_bytes :
    ∃ c, (system 2 7).Reach Lts.Free (start .sample) c ∧
      c.frames.map SentData.payload = [[1, 2], [3]] ∧ c.Exact 2 7 [1, 2, 3] := by
  have hrun : ((system 2 7).exec Lts.Free (start .sample) sampleEvents).isSome = true := by decide
  have hframes : ∀ c, (system 2 7).exec Lts.Free (start .sample) sampleEvents = some c →
      c.frames.map SentData.payload = [[1, 2], [3]] ∧ c.granted = 3 := by decide
  obtain ⟨c, hc⟩ := Option.isSome_iff_exists.mp hrun
  obtain ⟨hpayloads, hgranted⟩ := hframes c hc
  have hreach := Lts.reach_of_exec _ hc
  refine ⟨c, hreach, hpayloads, ?_⟩
  exact (chunked_write_exact_iff 2 7 .sample rfl 3).mpr ⟨by decide, by decide⟩ c hreach
    (Nat.le_of_eq hgranted)

/-- Enough calls of `onWindow` make `send_credit_` negative. -/
theorem credit_turns_negative :
    ¬ ∀ (maxDataFrame : Nat) (sid : UInt64) (w : WriteCall), w.pc = .checkLink →
      0 ≤ w.credit.toInt → ∀ c, (system maxDataFrame sid).Reach Lts.Free (start w) c →
        c.Exact maxDataFrame sid w.remaining := by
  intro hall
  have hover : 2 ^ 63 ≤ WriteCall.sample.credit.toInt + (2 ^ 63 : Nat) := by decide
  obtain ⟨c, hreach, -, hneg⟩ := exists_negative 2 7 (by decide) hover
  have hcredit := (hall 2 7 .sample rfl (by decide) c hreach).credit
  omega

end ChunkedWrite

end Shine
