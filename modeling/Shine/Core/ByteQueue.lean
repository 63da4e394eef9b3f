import Shine.Core.Buffer
import Shine.Lib.Lts

/-!
# `ReadBuffer` over whole runs (`core/buffer.hpp`)

Any sequence of `ensure_writable`, writing with `committed`, and `consume`, on a buffer of
any initial capacity. Sizes are of type `size_t` here: the capacity that `ensure_writable`
asks for is computed modulo 2⁶⁴, and a vector that would get too long throws.

- The buffer is a queue (`byte_queue`): whatever is compacted and grown in between, the
  readable bytes are those that have been written, without those that have been consumed.
- `ensure_writable` computes the capacity as if the readable bytes were at the front of the
  vector. They are not after a `consume` that stays in its first half, and then the room can
  fall short of what was asked for (`promise_kept_iff`).
-/

namespace Shine

namespace ReadBuffer

/-- `std::vector<u8>::max_size()`. -/
def maxSize : Nat := 2 ^ 63 - 1

/-- `buf_.resize(cap)`, which throws `std::length_error` beyond the maximal size. -/
def tryResize (rb : ReadBuffer) (cap : Nat) : Option ReadBuffer :=
  if cap ≤ maxSize then some (rb.resize cap) else none

/-- The first part of `ensure_writable`. -/
def compact (rb : ReadBuffer) : ReadBuffer := if rb.head > 0 then rb.consume 0 else rb

/-- `ensure_writable(n)`, in the arithmetic of `size_t`; none where `resize` throws. -/
def ensureWritableSizeT (rb : ReadBuffer) (n : UInt64) : Option ReadBuffer :=
  if rb.writableSize ≥ n.toNat then some rb
  else if rb.compact.writableSize ≥ n.toNat then some rb.compact
  else
    let need := (rb.compact.size - rb.compact.head + n.toNat) % 2 ^ 64
    rb.compact.tryResize (max (rb.compact.buf.length * 2 % 2 ^ 64) need)

/-- The calls. -/
inductive Op where
  | ensureWritable (n : UInt64)
  /-- Write to `writable_ptr()`, and `committed`. -/
  | write (bs : Bytes)
  | consume (m : Nat)
  deriving DecidableEq

/-- The bytes that a call adds to the queue. -/
def Op.bytes : Op → Bytes
  | .write bs => bs
  | _ => []

/-- How many bytes it takes from it. -/
def Op.count : Op → Nat
  | .consume m => m
  | _ => 0

/-- A call that respects `writable_size()` and `size()`. -/
def step (rb : ReadBuffer) : Op → Option ReadBuffer
  | .ensureWritable n => rb.ensureWritableSizeT n
  | .write bs => if h : bs.length ≤ rb.writableSize then some (rb.committed bs h) else none
  | .consume m => if m ≤ rb.size - rb.head then some (rb.consume m) else none

/-- All sequences of calls. -/
def calls : Lts ReadBuffer Op := ⟨step⟩

section Queue

variable {rb rb' : ReadBuffer} {n : UInt64}

@[simp] theorem view_compact (rb : ReadBuffer) : rb.compact.view = rb.view := by
  rw [compact]
  split_ifs <;> simp

theorem view_tryResize {cap : Nat} (h : rb.tryResize cap = some rb') : rb'.view = rb.view := by
  rw [tryResize] at h
  split_ifs at h
  cases h
  exact view_resize rb cap

theorem view_ensureWritableSizeT (h : rb.ensureWritableSizeT n = some rb') :
    rb'.view = rb.view := by
  rw [ensureWritableSizeT] at h
  split_ifs at h
  · cases h
    rfl
  · cases h
    exact view_compact rb
  · exact (view_tryResize h).trans (view_compact rb)

/-- One call: its bytes come in behind, and what it consumes leaves in front. -/
theorem view_step {op : Op} (h : rb.step op = some rb') :
    op.count ≤ (rb.view ++ op.bytes).length ∧
      rb'.view = (rb.view ++ op.bytes).drop op.count := by
  cases op with
  | ensureWritable n =>
    refine ⟨Nat.zero_le _, ?_⟩
    rw [view_ensureWritableSizeT h]
    simp [Op.bytes, Op.count]
  | write bs =>
    simp only [step] at h
    split_ifs at h with hfit
    cases h
    exact ⟨Nat.zero_le _, view_committed rb bs hfit⟩
  | consume m =>
    simp only [step] at h
    split_ifs at h with hm
    cases h
    rw [← length_view] at hm
    simp only [Op.bytes, Op.count, List.append_nil]
    exact ⟨hm, view_consume rb hm⟩

/-- A sequence of calls. -/
theorem view_exec {ops : List Op} (h : calls.exec Lts.Free rb ops = some rb') :
    rb'.view = (rb.view ++ (ops.map Op.bytes).flatten).drop (ops.map Op.count).sum := by
  induction ops generalizing rb with
  | nil =>
    cases h
    simp
  | cons op ops ih =>
    rw [Lts.exec, if_pos (show Lts.Free rb op from trivial)] at h
    obtain ⟨next, hstep, hrest⟩ := Option.bind_eq_some_iff.mp h
    obtain ⟨hcount, hview⟩ := view_step hstep
    rw [ih hrest, hview, ← List.drop_append_of_le_length hcount, List.drop_drop]
    simp only [List.map_cons, List.flatten_cons, List.sum_cons, List.append_assoc]

end Queue

/-- **The buffer is a queue of bytes.** -/
theorem byte_queue (initial : Nat) (ops : List Op) (rb : ReadBuffer)
    (h : calls.exec Lts.Free (new initial) ops = some rb) :
    rb.head ≤ rb.size ∧ rb.size ≤ rb.buf.length ∧
      rb.view = (ops.map Op.bytes).flatten.drop (ops.map Op.count).sum := by
  refine ⟨rb.head_le, rb.size_le, ?_⟩
  rw [view_exec h, view_new, List.nil_append]

/-- A run in which the vector is compacted and grown. -/
def sampleOps : List Op := [.write [1, 2, 3, 4], .consume 3, .ensureWritable 5, .write [5, 6]]

theorem byte_queue_six_bytes :
    ∃ rb, calls.exec Lts.Free (new 4) sampleOps = some rb ∧ rb.view = [4, 5, 6] := by
  have hrun : (calls.exec Lts.Free (new 4) sampleOps).isSome = true := by decide
  obtain ⟨rb, hrb⟩ := Option.isSome_iff_exists.mp hrun
  exact ⟨rb, hrb, (byte_queue 4 sampleOps rb hrb).2.2⟩

/-! ## What `ensure_writable` promises -/

/-- The readable bytes are at the front of the vector, or will be when it is compacted. -/
def Compactable (rb : ReadBuffer) : Prop :=
  rb.head = 0 ∨ rb.head = rb.size ∨ rb.buf.length / 2 < rb.head

section Promise

variable {rb rb' : ReadBuffer} {n : UInt64}

theorem length_consume (rb : ReadBuffer) (m : Nat) :
    (rb.consume m).buf.length = rb.buf.length := by
  have := rb.size_le
  rw [consume]
  split_ifs
  · rfl
  · simp only [List.length_append, List.length_take, List.length_drop]
    omega
  · rfl

@[simp] theorem length_compact (rb : ReadBuffer) : rb.compact.buf.length = rb.buf.length := by
  rw [compact]
  split_ifs
  · exact length_consume rb 0
  · rfl

/-- The offsets after compaction. -/
theorem offsets_compact (rb : ReadBuffer) :
    (rb.Compactable ∧ rb.compact.head = 0 ∧ rb.compact.size = rb.size - rb.head) ∨
      (¬ rb.Compactable ∧ rb.compact.head = rb.head ∧ rb.compact.size = rb.size) := by
  have := rb.head_le
  unfold compact Compactable
  by_cases hhead : rb.head > 0
  · rw [if_pos hhead, consume]
    split_ifs with hempty hhalf
    · refine .inl ⟨.inr (.inl (by omega)), rfl, ?_⟩
      show 0 = rb.size - rb.head
      omega
    · exact .inl ⟨.inr (.inr hhalf), rfl, rfl⟩
    · refine .inr ⟨by omega, rfl, rfl⟩
  · rw [if_neg hhead]
    exact .inl ⟨.inl (by omega), by omega, by omega⟩

theorem length_resize (rb : ReadBuffer) (cap : Nat) :
    (rb.resize cap).buf.length = max rb.buf.length cap := by
  simp only [resize, List.length_append, List.length_replicate]
  omega

/-- A call never leaves the range of `size_t`. -/
theorem length_step {op : Op} (hrb : rb.buf.length ≤ maxSize) (h : rb.step op = some rb') :
    rb'.buf.length ≤ maxSize := by
  cases op with
  | ensureWritable n =>
    simp only [step, ensureWritableSizeT, tryResize] at h
    split_ifs at h with _ _ hcap
    · cases h
      exact hrb
    · cases h
      rwa [length_compact]
    · cases h
      rw [length_resize]
      exact max_le (by rwa [length_compact]) hcap
  | write bs =>
    simp only [step] at h
    split_ifs at h with hfit
    cases h
    have := rb.size_le
    rw [writableSize] at hfit
    simp only [committed, List.length_append, List.length_take, List.length_drop]
    omega
  | consume m =>
    simp only [step] at h
    split_ifs at h
    cases h
    rwa [length_consume]

theorem length_reach {initial : Nat} (hinitial : initial ≤ maxSize)
    (h : calls.Reach Lts.Free (new initial) rb) : rb.buf.length ≤ maxSize := by
  refine h.invariant (P := fun rb => rb.buf.length ≤ maxSize) ?_
    fun _ _ _ hs _ hstep => length_step hs hstep
  rwa [new, List.length_replicate]

/-- The room in a vector that has been grown. -/
theorem room_grown {len head size n : Nat} (hlen : len ≤ maxSize) (hn : n < 2 ^ 64)
    (hhead : head ≤ size) (hsize : size ≤ len) (hroom : ¬ n ≤ len - size) :
    n ≤ max len (max (len * 2 % 2 ^ 64) ((size - head + n) % 2 ^ 64)) - size
      ↔ size + n ≤ 2 * len ∨ (head = 0 ∧ size + n < 2 ^ 64) := by
  rw [maxSize] at hlen
  rw [Nat.mod_eq_of_lt (show len * 2 < 2 ^ 64 by omega)]
  by_cases hwrap : size - head + n < 2 ^ 64
  · rw [Nat.mod_eq_of_lt hwrap]
    omega
  · have hmod : (size - head + n) % 2 ^ 64 = size - head + n - 2 ^ 64 := by omega
    rw [hmod]
    omega

theorem writableSize_ensureWritableSizeT (hlen : rb.buf.length ≤ maxSize)
    (h : rb.ensureWritableSizeT n = some rb') :
    n.toNat ≤ rb'.writableSize ↔
      rb.size + n.toNat ≤ 2 * rb.buf.length ∨
        (rb.Compactable ∧ rb.size - rb.head + n.toNat < 2 ^ 64) := by
  have hhead := rb.head_le
  have hsize := rb.size_le
  have hn := n.toNat_lt
  have hmax : maxSize = 2 ^ 63 - 1 := rfl
  rw [ensureWritableSizeT] at h
  split_ifs at h with hroom hroom'
  · cases h
    refine iff_of_true hroom (.inl ?_)
    rw [writableSize] at hroom
    omega
  · cases h
    refine iff_of_true hroom' ?_
    rw [writableSize, length_compact] at hroom'
    rw [writableSize] at hroom
    rcases rb.offsets_compact with ⟨hc, -, hs⟩ | ⟨-, -, hs⟩
    · exact .inr ⟨hc, by omega⟩
    · rw [hs] at hroom'
      exact absurd hroom' hroom
  · rw [tryResize] at h
    split_ifs at h
    cases h
    have hgrown := room_grown (rb.length_compact.trans_le hlen) hn rb.compact.head_le
      rb.compact.size_le hroom'
    rw [writableSize, length_resize]
    refine hgrown.trans ?_
    rw [length_compact]
    rcases rb.offsets_compact with ⟨hc, hh, hs⟩ | ⟨hc, hh, hs⟩
    · rw [hh, hs]
      simp only [hc, true_and]
      omega
    · have hpos : rb.head ≠ 0 := fun h0 => hc (.inl h0)
      rw [hh, hs]
      simp only [hc, hpos, false_and]

/-- For sizes that occur, `ensure_writable` computes with natural numbers. -/
theorem ensureWritableSizeT_eq (hlen : rb.buf.length ≤ maxSize)
    (hn : rb.size + n.toNat < 2 ^ 64) (h : rb.ensureWritableSizeT n = some rb') :
    rb' = rb.ensureWritable n.toNat := by
  have hhead := rb.head_le
  have hnat : rb.ensureWritable n.toNat
      = if rb.writableSize ≥ n.toNat then rb else rb.compact.growFor n.toNat := by
    unfold ensureWritable compact
    split_ifs <;> rfl
  rw [hnat]
  rw [ensureWritableSizeT] at h
  split_ifs at h ⊢ with hroom hroom'
  · cases h
    rfl
  · cases h
    rw [growFor, if_pos hroom']
  · rw [tryResize] at h
    split_ifs at h
    cases h
    have hneed : rb.compact.size - rb.compact.head + n.toNat < 2 ^ 64 := by
      rcases rb.offsets_compact with ⟨-, hh, hs⟩ | ⟨-, hh, hs⟩
      · omega
      · omega
    have hdouble : rb.compact.buf.length * 2 < 2 ^ 64 := by
      rw [length_compact]
      rw [maxSize] at hlen
      omega
    rw [growFor, if_neg hroom', Nat.mod_eq_of_lt hneed, Nat.mod_eq_of_lt hdouble]

end Promise

/-- **The room after `ensure_writable(n)` is at least `n` exactly if the readable bytes could
be moved to the front, or twice the capacity is enough without that.** -/
theorem promise_kept_iff (initial : Nat) (hinitial : initial ≤ maxSize) (rb rb' : ReadBuffer)
    (hreach : calls.Reach Lts.Free (new initial) rb) (n : UInt64)
    (h : rb.ensureWritableSizeT n = some rb') :
    n.toNat ≤ rb'.writableSize ↔
      rb.size + n.toNat ≤ 2 * rb.buf.length ∨
        (rb.Compactable ∧ rb.size - rb.head + n.toNat < 2 ^ 64) :=
  writableSize_ensureWritableSizeT (length_reach hinitial hreach) h

/-- Half of a full vector has been consumed. -/
def sampleHalf : ReadBuffer where
  buf := [1, 2, 3, 4]
  head := 2
  size := 4
  head_le := by decide
  size_le := by decide

theorem reach_sampleHalf : calls.Reach Lts.Free (new 4) sampleHalf :=
  Lts.reach_of_exec [.write [1, 2, 3, 4], .consume 2] rfl

/-- There is room for four more bytes. -/
theorem promise_kept_iff_four_bytes :
    ∃ rb', sampleHalf.ensureWritableSizeT 4 = some rb' ∧ 4 ≤ rb'.writableSize :=
  ⟨_, rfl, (promise_kept_iff 4 (by decide) sampleHalf _ reach_sampleHalf 4 rfl).mpr
    (.inl (by decide))⟩

/-- There is not for five. -/
theorem promise_broken_on_half_consumed :
    ¬ ∀ initial ≤ maxSize, ∀ rb rb', calls.Reach Lts.Free (new initial) rb →
      ∀ n, rb.ensureWritableSizeT n = some rb' → n.toNat ≤ rb'.writableSize := by
  intro hall
  have hfive := hall 4 (by decide) sampleHalf _ reach_sampleHalf 5 rfl
  exact absurd hfive (by decide)

end ReadBuffer

end Shine
