import Shine.Core.Common

/-!
# `ReadBuffer` (`core/buffer.hpp`)

The growable parser input buffer: one vector `buf_`, a read offset `head_` and a
write offset `size_`. Consuming moves `head_`; the readable bytes are moved to
the front of the vector once `head_` passes its middle, and `ensure_writable`
grows the vector.

The model keeps the whole vector, stale bytes included: a bulk string handed out
by the parser is a pointer into `buf_`, and the handshake reads it after
`consume`, so what lies at that place matters. `view` is the readable part
`data()[0..size())`; the lemmas at the end say that every operation acts on it
as on a byte queue.
-/

namespace Shine

/-- `class ReadBuffer`, with the order of its offsets as fields. -/
structure ReadBuffer where
  buf : Bytes
  head : Nat
  size : Nat
  head_le : head ≤ size
  size_le : size ≤ buf.length

namespace ReadBuffer

/-- `ReadBuffer(initial)`; the links use the default of 16 KiB. -/
def new (initial : Nat) : ReadBuffer where
  buf := List.replicate initial 0
  head := 0
  size := 0
  head_le := Nat.le_refl 0
  size_le := Nat.zero_le _

/-- The capacity `ReadBuffer` starts with unless told otherwise. -/
def defaultInitial : Nat := 16 * 1024

/-- `writable_size()`. -/
def writableSize (rb : ReadBuffer) : Nat := rb.buf.length - rb.size

/-- The readable bytes `data()[0..size())`. -/
def view (rb : ReadBuffer) : Bytes := (rb.buf.drop rb.head).take (rb.size - rb.head)

/-- `consume(n)`: drop `n` readable bytes; rewind when nothing is left, move the
rest to the front when the offset has passed the middle of the vector. -/
def consume (rb : ReadBuffer) (n : Nat) : ReadBuffer :=
  if h : rb.head + n ≥ rb.size then
    { rb with head := 0, size := 0, head_le := Nat.le_refl 0, size_le := Nat.zero_le _ }
  else if rb.head + n > rb.buf.length / 2 then
    { buf := (rb.buf.drop (rb.head + n)).take (rb.size - (rb.head + n))
        ++ rb.buf.drop (rb.size - (rb.head + n))
      head := 0
      size := rb.size - (rb.head + n)
      head_le := Nat.zero_le _
      size_le := by
        have := rb.size_le
        simp only [List.length_append, List.length_take, List.length_drop]
        omega }
  else
    { rb with head := rb.head + n, head_le := by omega }

/-- `buf_.resize(cap)` with `cap` at least the present size: zero-filled. -/
def resize (rb : ReadBuffer) (cap : Nat) : ReadBuffer :=
  { rb with
    buf := rb.buf ++ List.replicate (cap - rb.buf.length) 0
    size_le := by
      have := rb.size_le
      simp only [List.length_append]
      omega }

/-- The growing half of `ensure_writable`, after the attempt to compact. -/
def growFor (rb : ReadBuffer) (n : Nat) : ReadBuffer :=
  if rb.writableSize ≥ n then rb
  else rb.resize (max (rb.buf.length * 2) (rb.size - rb.head + n))

/-- `ensure_writable(n)`. -/
def ensureWritable (rb : ReadBuffer) (n : Nat) : ReadBuffer :=
  if rb.writableSize ≥ n then rb
  else if rb.head > 0 then (rb.consume 0).growFor n
  else rb.growFor n

/-- Copy `bs` to `writable_ptr()` and call `committed(bs.size())`; the caller
must stay within `writable_size()`. -/
def committed (rb : ReadBuffer) (bs : Bytes) (h : bs.length ≤ rb.writableSize) :
    ReadBuffer where
  buf := rb.buf.take rb.size ++ bs ++ rb.buf.drop (rb.size + bs.length)
  head := rb.head
  size := rb.size + bs.length
  head_le := Nat.le_trans rb.head_le (Nat.le_add_right ..)
  size_le := by
    have := rb.size_le
    unfold writableSize at h
    simp only [List.length_append, List.length_take, List.length_drop]
    omega

/-- What one `async_read_some` into the writable area makes of the bytes waiting
in the socket: at most `writable_size()` of them are taken. -/
def readSome (rb : ReadBuffer) (want : Nat) (incoming : Bytes) : ReadBuffer × Bytes :=
  let rb := rb.ensureWritable want
  (rb.committed (incoming.take rb.writableSize) (List.length_take_le ..),
    incoming.drop rb.writableSize)

/-! ## The readable view is a byte queue -/

@[simp] theorem length_view (rb : ReadBuffer) : rb.view.length = rb.size - rb.head := by
  have := rb.size_le
  simp only [view, List.length_take, List.length_drop]
  omega

@[simp] theorem view_new (initial : Nat) : (new initial).view = [] := by
  simp [view, new]

/-- Consuming what is there drops it from the front of the view. -/
theorem view_consume (rb : ReadBuffer) {n : Nat} (h : n ≤ rb.view.length) :
    (rb.consume n).view = rb.view.drop n := by
  have hle := rb.head_le
  have hsz := rb.size_le
  rw [length_view] at h
  unfold consume
  split_ifs with h₁ h₂
  · have hn : rb.size - rb.head - n = 0 := by omega
    simp only [view, List.drop_take, List.drop_drop, hn, Nat.sub_self, List.take_zero]
  · have hlen : (List.take (rb.size - (rb.head + n)) (List.drop (rb.head + n) rb.buf)).length
        = rb.size - (rb.head + n) := by
      rw [List.length_take, List.length_drop]
      omega
    simp only [view, List.drop_zero, Nat.sub_zero]
    rw [List.take_append_of_le_length (Nat.le_of_eq hlen.symm), List.take_of_length_le
      (Nat.le_of_eq hlen), List.drop_take, List.drop_drop, Nat.sub_sub]
  · simp only [view, List.drop_take, List.drop_drop, Nat.sub_sub]

@[simp] theorem view_consume_zero (rb : ReadBuffer) : (rb.consume 0).view = rb.view := by
  rw [view_consume rb (Nat.zero_le _), List.drop_zero]

@[simp] theorem view_resize (rb : ReadBuffer) (cap : Nat) :
    (rb.resize cap).view = rb.view := by
  have hle := rb.head_le
  have hsz := rb.size_le
  simp only [view, resize]
  rw [List.drop_append_of_le_length (by omega), List.take_append_of_le_length]
  rw [List.length_drop]
  omega

@[simp] theorem view_ensureWritable (rb : ReadBuffer) (n : Nat) :
    (rb.ensureWritable n).view = rb.view := by
  unfold ensureWritable growFor
  split_ifs <;> simp

/-- Committed bytes appear behind the view. -/
@[simp] theorem view_committed (rb : ReadBuffer) (bs : Bytes)
    (h : bs.length ≤ rb.writableSize) :
    (rb.committed bs h).view = rb.view ++ bs := by
  have hle := rb.head_le
  have hsz := rb.size_le
  have htake : (rb.buf.take rb.size).length = rb.size := by
    rw [List.length_take]
    omega
  have hmid : (List.drop rb.head (rb.buf.take rb.size) ++ bs).length
      = rb.size + bs.length - rb.head := by
    rw [List.length_append, List.length_drop, htake]
    omega
  simp only [view, committed]
  rw [List.drop_append_of_le_length (by rw [List.length_append, htake]; omega),
    List.drop_append_of_le_length (by rw [htake]; exact hle),
    List.take_append_of_le_length (Nat.le_of_eq hmid.symm),
    List.take_of_length_le (Nat.le_of_eq hmid), List.drop_take]

theorem writableSize_growFor_pos (rb : ReadBuffer) {n : Nat} (hn : 0 < n) :
    0 < (rb.growFor n).writableSize := by
  have hsz := rb.size_le
  have hle := rb.head_le
  unfold growFor
  split_ifs with h
  · omega
  · simp only [writableSize, resize, List.length_append, List.length_replicate]
    omega

/-- A read makes room for at least one byte, so it never looks like end of
stream while bytes are waiting. -/
theorem writableSize_ensureWritable_pos (rb : ReadBuffer) {n : Nat} (hn : 0 < n) :
    0 < (rb.ensureWritable n).writableSize := by
  unfold ensureWritable
  split_ifs with h
  · omega
  · exact writableSize_growFor_pos _ hn
  · exact writableSize_growFor_pos _ hn

/-- A read moves bytes from the socket to the view and loses none. -/
theorem readSome_append (rb : ReadBuffer) (want : Nat) (incoming : Bytes) :
    (rb.readSome want incoming).1.view ++ (rb.readSome want incoming).2
      = rb.view ++ incoming := by
  simp only [readSome, view_committed, view_ensureWritable, List.append_assoc,
    List.take_append_drop]

/-- With bytes waiting, a read takes at least one of them. -/
theorem readSome_shrinks (rb : ReadBuffer) {want : Nat} {incoming : Bytes}
    (hw : 0 < want) (hi : incoming ≠ []) :
    (rb.readSome want incoming).2.length < incoming.length := by
  have := rb.writableSize_ensureWritable_pos hw
  have := List.length_pos_of_ne_nil hi
  simp only [readSome, List.length_drop]
  omega

/-- A new buffer takes a segment that fits whole. -/
theorem readSome_new {initial want : Nat} (hwant : want ≤ initial) {incoming : Bytes}
    (hfit : incoming.length ≤ initial) :
    ((new initial).readSome want incoming).2 = [] ∧
      ((new initial).readSome want incoming).1.view = incoming := by
  have hsize : ((new initial).ensureWritable want).writableSize = initial := by
    rw [ensureWritable, if_pos] <;> simp [writableSize, new, hwant]
  have hrest : ((new initial).readSome want incoming).2 = [] := by
    show incoming.drop ((new initial).ensureWritable want).writableSize = []
    rw [hsize, List.drop_eq_nil_iff]
    exact hfit
  refine ⟨hrest, ?_⟩
  have hmove := (new initial).readSome_append want incoming
  rwa [hrest, List.append_nil, view_new, List.nil_append] at hmove

end ReadBuffer

end Shine
