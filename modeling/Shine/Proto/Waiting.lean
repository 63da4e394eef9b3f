import Shine.Core.ByteQueue
import Shine.Proto.Resp2Checked

/-!
# Waiting for a value (`proto/resp2_parser.cpp`, `transport/link.cpp`)

A link reads while the parser returns `Ok(0)`. The parser compares a length with its limit
when the header of the value has ended; a header that does not end is never refused, and
neither is one of any length that does. A peer can so make the buffer of a link grow without
having sent a password.

Everything else that the parser waits for is limited: at most 1024 elements and for each of
them `max_bulk` bytes. So waiting is bounded exactly if the headers are
(`waiting_bounded_iff`).
-/

namespace Shine

namespace Resp2

variable {maxBulk : Nat}

/-- The header of a bulk string, as far as it is there. -/
def BulkStart.headers : BulkStart maxBulk → List Bytes
  | .nothing => []
  | .inHeader header _ => [header]
  | .inBody header _ _ _ _ _ _ => [header]

/-- The headers of a value, as far as they are there. -/
def Start.headers : Start maxBulk → List Bytes
  | .bulk s => s.headers
  | .inHeader header _ => [header]
  | .inElements header elements s _ _ _ _ _ => header :: (elements.map Bulk.header ++ s.headers)

/-- The bytes are the beginning of a value, and one of its headers is longer than `limit`. -/
def LongHeader (maxBulk limit : Nat) (b : Bytes) : Prop :=
  ∃ s : Start maxBulk, b = s.text ∧ ∃ header ∈ s.headers, limit < header.length

/-! ## How long a beginning is -/

section Length

variable {limit : Nat}

theorem BulkStart.length_text_le {s : BulkStart maxBulk}
    (h : ∀ header ∈ s.headers, header.length ≤ limit) :
    s.text.length ≤ limit + maxBulk + 5 := by
  cases s with
  | nothing => exact Nat.zero_le _
  | inHeader header hno =>
    have hheader := h header List.mem_cons_self
    simp only [text, List.length_cons]
    omega
  | inBody header tail hno len hlen hfits hshort =>
    have hheader := h header List.mem_cons_self
    simp only [text, crlf, List.length_cons, List.length_append, List.length_nil]
    omega

theorem length_elements_le {elements : List (Bulk maxBulk)}
    (h : ∀ b ∈ elements, b.header.length ≤ limit) :
    (elements.flatMap Bulk.text).length ≤ elements.length * (limit + maxBulk + 5) := by
  rw [List.length_flatMap, ← List.length_map fun b => (Bulk.text b).length, ← smul_eq_mul]
  refine List.sum_le_card_nsmul _ _ fun n hn => ?_
  obtain ⟨b, hb, rfl⟩ := List.mem_map.mp hn
  have hheader := h b hb
  have hfits := b.fits
  rw [b.length_text]
  omega

theorem Start.length_text_le {s : Start maxBulk}
    (h : ∀ header ∈ s.headers, header.length ≤ limit) :
    s.text.length ≤ limit + 3 + 1024 * (limit + maxBulk + 5) := by
  cases s with
  | bulk s =>
    have hs : s.text.length ≤ limit + maxBulk + 5 := BulkStart.length_text_le h
    simp only [text]
    omega
  | inHeader header hno =>
    have hheader := h header List.mem_cons_self
    simp only [text, List.length_cons]
    omega
  | inElements header elements s hno len hlen hle hshort =>
    have hheader := h header List.mem_cons_self
    have helements : (elements.flatMap Bulk.text).length
        ≤ elements.length * (limit + maxBulk + 5) :=
      length_elements_le fun b hb => h b.header
        (List.mem_cons_of_mem _ (List.mem_append_left _ (List.mem_map_of_mem hb)))
    have hs : s.text.length ≤ limit + maxBulk + 5 := BulkStart.length_text_le fun header hmem =>
      h header (List.mem_cons_of_mem _ (List.mem_append_right _ hmem))
    have hcount : elements.length * (limit + maxBulk + 5) ≤ 1023 * (limit + maxBulk + 5) :=
      Nat.mul_le_mul_right _ (by omega)
    simp only [text, crlf, List.length_cons, List.length_append, List.length_nil]
    omega

theorem BulkStart.length_header_le {s : BulkStart maxBulk} {header : Bytes}
    (h : header ∈ s.headers) : header.length ≤ s.text.length := by
  cases s with
  | nothing => cases h
  | inHeader header' hno =>
    obtain rfl := List.mem_singleton.mp h
    exact Nat.le_succ _
  | inBody header' tail hno len hlen hfits hshort =>
    obtain rfl := List.mem_singleton.mp h
    simp only [text, List.length_cons, List.length_append]
    omega

/-- A header is a part of the bytes. -/
theorem Start.length_header_le {s : Start maxBulk} {header : Bytes} (h : header ∈ s.headers) :
    header.length ≤ s.text.length := by
  cases s with
  | bulk s => exact BulkStart.length_header_le (s := s) h
  | inHeader header' hno =>
    obtain rfl := List.mem_singleton.mp h
    exact Nat.le_succ _
  | inElements header' elements s hno len hlen hle hshort =>
    simp only [text, List.length_cons, List.length_append]
    rcases List.mem_cons.mp h with rfl | h
    · omega
    rcases List.mem_append.mp h with h | h
    · obtain ⟨b, hb, rfl⟩ := List.mem_map.mp h
      have htext : b.text.length ≤ (elements.flatMap Bulk.text).length := by
        rw [List.length_flatMap]
        exact List.single_le_sum (fun _ _ => Nat.zero_le _) _ (List.mem_map_of_mem hb)
      rw [b.length_text] at htext
      omega
    · have hs := BulkStart.length_header_le h
      omega

end Length

end Resp2

open Resp2

/-! ## How far the vector grows -/

namespace ReadBuffer

variable {rb : ReadBuffer} {n : Nat}

theorem length_committed (bs : Bytes) (h : bs.length ≤ rb.writableSize) :
    (rb.committed bs h).buf.length = rb.buf.length := by
  have hsize := rb.size_le
  rw [writableSize] at h
  simp only [committed, List.length_append, List.length_take, List.length_drop]
  omega

/-- The vector is only grown while its second half is in use. -/
theorem length_growFor_le (hhead : rb.head ≤ rb.buf.length / 2) :
    (rb.growFor n).buf.length ≤ max rb.buf.length (4 * (rb.view.length + n) + 2) := by
  have hsize := rb.size_le
  rw [growFor, length_view]
  split_ifs with hroom
  · omega
  · rw [writableSize] at hroom
    simp only [resize, List.length_append, List.length_replicate]
    omega

/-- Behind an offset in the second half nothing is left after compaction. -/
theorem head_consume_zero_le (rb : ReadBuffer) :
    (rb.consume 0).head ≤ (rb.consume 0).buf.length / 2 := by
  rw [length_consume, consume]
  split_ifs with hempty hhalf
  · exact Nat.zero_le _
  · exact Nat.zero_le _
  · exact Nat.le_of_not_lt hhalf

theorem length_ensureWritable_le :
    (rb.ensureWritable n).buf.length ≤ max rb.buf.length (4 * (rb.view.length + n) + 2) := by
  rw [ensureWritable]
  split_ifs with hroom hhead
  · exact Nat.le_max_left _ _
  · have hgrow := length_growFor_le (n := n) (head_consume_zero_le rb)
    rwa [length_consume, view_consume_zero] at hgrow
  · exact length_growFor_le (by omega)

theorem length_readSome_le (incoming : Bytes) :
    (rb.readSome n incoming).1.buf.length
      ≤ max rb.buf.length (4 * (rb.view.length + n) + 2) := by
  simp only [readSome, length_committed]
  exact length_ensureWritable_le

end ReadBuffer

/-! ## The wait -/

/-- `tryParse` returns `Ok(0)`. -/
def Waiting (maxBulk : Nat) (rb : ReadBuffer) : Prop := ∃ f, tryParse maxBulk rb = .ok (0, f)

/-- What may have been received of one of the streams. -/
def HasReceived (streams : Set Bytes) (b : Bytes) : Prop := ∃ s ∈ streams, b <+: s

/-- A round of the loop in `handshakeServer` and `handshakeClient`, or of `readerLoop`, that
ends with another read. -/
inductive ReadsMore (maxBulk : Nat) (streams : Set Bytes) : ReadBuffer → ReadBuffer → Prop
  | read (rb : ReadBuffer) (want : Nat) (incoming : Bytes)
      (hwant : want = 8192 ∨ want = 16 * 1024) (hwait : Waiting maxBulk rb)
      (hreceived : HasReceived streams (rb.view ++ incoming)) :
      ReadsMore maxBulk streams rb (rb.readSome want incoming).1

/-- Beyond some size the parser does not wait. -/
def ParserDecides (maxBulk : Nat) (streams : Set Bytes) : Prop :=
  ∃ bound, ∀ rb : ReadBuffer, HasReceived streams rb.view → bound ≤ rb.view.length →
    ¬ Waiting maxBulk rb

/-- The vector does not grow beyond some size while a link waits for one value. -/
def BufferBounded (maxBulk : Nat) (streams : Set Bytes) : Prop :=
  ∃ cap, ∀ rb₀ rb : ReadBuffer, HasReceived streams rb₀.view →
    Relation.ReflTransGen (ReadsMore maxBulk streams) rb₀ rb →
      rb.buf.length ≤ max rb₀.buf.length cap

/-- The headers do not get longer than some limit while the rest of the value is missing. -/
def HeadersBounded (maxBulk : Nat) (streams : Set Bytes) : Prop :=
  ∃ limit, ∀ b, HasReceived streams b → ¬ LongHeader maxBulk limit b

section Wait

variable {maxBulk : Nat} {streams : Set Bytes} {rb rb' : ReadBuffer} {b : Bytes}

/-- The parser waits at the beginning of a value. -/
theorem parse_zero_iff :
    parse maxBulk b = .ok (0, .monostate) ↔ ∃ s : Start maxBulk, b = s.text := by
  constructor
  · intro h
    rcases value_or_start_or_error b maxBulk with ⟨v, hv⟩ | hs | ⟨e, he⟩
    · have hlen : 0 = v.text.length :=
        congrArg Prod.fst (Except.ok.inj (h.symm.trans (parse_of_text hv)))
      exact absurd v.length_text_pos (by omega)
    · exact hs
    · cases h.symm.trans he
  · rintro ⟨s, hs⟩
    exact parse_of_start hs

theorem waiting_iff : Waiting maxBulk rb ↔ ∃ s : Start maxBulk, rb.view = s.text := by
  rw [← parse_zero_iff]
  constructor
  · rintro ⟨g, hg⟩
    obtain ⟨f, hf, -⟩ := tryParse_eq_ok.mp hg
    rcases parse_ok_bounds hf with ⟨-, rfl⟩ | ⟨hpos, -⟩
    · exact hf
    · cases hpos
  · intro h
    exact ⟨_, tryParse_eq_ok.mpr ⟨_, h, rfl⟩⟩

theorem HasReceived.mono {b' : Bytes} (h : HasReceived streams b) (hb : b' <+: b) :
    HasReceived streams b' := by
  obtain ⟨s, hs, hpre⟩ := h
  exact ⟨s, hs, hb.trans hpre⟩

/-- The bytes in a full buffer. -/
def fullBuffer (b : Bytes) : ReadBuffer := ⟨b, 0, b.length, Nat.zero_le _, Nat.le_refl _⟩

theorem view_fullBuffer (b : Bytes) : (fullBuffer b).view = b := List.take_length

/-- How much a link has read that waits. -/
theorem length_view_le {limit : Nat} (hwait : Waiting maxBulk rb)
    (hshort : ¬ LongHeader maxBulk limit rb.view) :
    rb.view.length ≤ limit + 3 + 1024 * (limit + maxBulk + 5) := by
  obtain ⟨s, hs⟩ := waiting_iff.mp hwait
  rw [hs]
  refine Start.length_text_le fun header hheader => ?_
  by_contra hlong
  exact hshort ⟨s, hs, header, hheader, Nat.lt_of_not_le hlong⟩

theorem parserDecides_iff : ParserDecides maxBulk streams ↔ HeadersBounded maxBulk streams := by
  constructor
  · rintro ⟨bound, hbound⟩
    refine ⟨bound, fun b hreceived => ?_⟩
    rintro ⟨s, rfl, header, hheader, hlong⟩
    rw [← view_fullBuffer s.text] at hreceived
    refine hbound _ hreceived ?_ (waiting_iff.mpr ⟨s, view_fullBuffer _⟩)
    have hle := Start.length_header_le hheader
    rw [view_fullBuffer]
    omega
  · rintro ⟨limit, hlimit⟩
    refine ⟨limit + 3 + 1024 * (limit + maxBulk + 5) + 1, fun rb hreceived hbound hwait => ?_⟩
    have hle := length_view_le hwait (hlimit _ hreceived)
    omega

/-- One round keeps the vector within what the limit allows. -/
theorem ReadsMore.length_le {limit : Nat} (h : ReadsMore maxBulk streams rb rb')
    (hlimit : ∀ b, HasReceived streams b → ¬ LongHeader maxBulk limit b) :
    rb'.buf.length ≤ max rb.buf.length
      (4 * (limit + 3 + 1024 * (limit + maxBulk + 5) + 16 * 1024) + 2) := by
  cases h with
  | read want incoming hwant hwait hreceived =>
    have hview := length_view_le hwait (hlimit _ (hreceived.mono (List.prefix_append _ _)))
    have hgrow := rb.length_readSome_le (n := want) incoming
    omega

/-- The parser has waited all the time. -/
theorem parse_zero_of_append {x : Bytes} (h : parse maxBulk (b ++ x) = .ok (0, .monostate)) :
    parse maxBulk b = .ok (0, .monostate) := by
  by_contra hr
  exact hr ((parse_append x rfl hr).symm.trans h)

/-- What a link waits with can be received byte after byte. -/
theorem exists_run (hreceived : HasReceived streams b)
    (hwait : parse maxBulk b = .ok (0, .monostate)) :
    ∃ rb, Relation.ReflTransGen (ReadsMore maxBulk streams)
      (ReadBuffer.new ReadBuffer.defaultInitial) rb ∧ rb.view = b := by
  induction b using List.reverseRecOn with
  | nil => exact ⟨_, .refl, ReadBuffer.view_new _⟩
  | append_singleton b c ih =>
    have hbefore := parse_zero_of_append hwait
    obtain ⟨rb, hrun, rfl⟩ := ih (hreceived.mono (List.prefix_append _ _)) hbefore
    have hrest : (rb.readSome 8192 [c]).2 = [] := by
      have hshrinks : (rb.readSome 8192 [c]).2.length < [c].length :=
        rb.readSome_shrinks (by decide) (List.cons_ne_nil c [])
      exact List.eq_nil_of_length_eq_zero (Nat.lt_one_iff.mp hshrinks)
    have hview := rb.readSome_append 8192 [c]
    rw [hrest, List.append_nil] at hview
    refine ⟨_, hrun.tail (.read rb 8192 [c] (Or.inl rfl) ?_ hreceived), hview⟩
    exact waiting_iff.mpr (parse_zero_iff.mp hbefore)

theorem bufferBounded_iff : BufferBounded maxBulk streams ↔ HeadersBounded maxBulk streams := by
  constructor
  · rintro ⟨cap, hcap⟩
    refine ⟨max ReadBuffer.defaultInitial cap, fun b hreceived => ?_⟩
    rintro ⟨s, rfl, header, hheader, hlong⟩
    obtain ⟨rb, hrun, hview⟩ := exists_run hreceived (parse_of_start rfl)
    have hempty : HasReceived streams (ReadBuffer.new ReadBuffer.defaultInitial).view := by
      rw [ReadBuffer.view_new]
      exact hreceived.mono List.nil_prefix
    have hle := hcap _ rb hempty hrun
    have hheader_le := Start.length_header_le hheader
    have hsize := rb.size_le
    rw [ReadBuffer.new, List.length_replicate] at hle
    rw [← hview, ReadBuffer.length_view] at hheader_le
    omega
  · rintro ⟨limit, hlimit⟩
    refine ⟨4 * (limit + 3 + 1024 * (limit + maxBulk + 5) + 16 * 1024) + 2,
      fun rb₀ rb _ hrun => ?_⟩
    induction hrun with
    | refl => exact Nat.le_max_left _ _
    | tail hrun hstep ih =>
      have hle := hstep.length_le hlimit
      omega

end Wait

/-- **Waiting is bounded exactly if the headers are**, both for the parser and for the buffer
of a link. -/
theorem waiting_bounded_iff (maxBulk : Nat) (streams : Set Bytes) :
    (ParserDecides maxBulk streams ↔ HeadersBounded maxBulk streams) ∧
      (BufferBounded maxBulk streams ↔ HeadersBounded maxBulk streams) :=
  ⟨parserDecides_iff, bufferBounded_iff⟩

/-- After `$` nothing but zeros comes. -/
theorem waiting_unbounded :
    (∀ maxBulk n, Waiting maxBulk (fullBuffer (bulkMarker :: List.replicate n 48))) ∧
      ¬ ∀ maxBulk, ParserDecides maxBulk Set.univ ∧ BufferBounded maxBulk Set.univ := by
  have hwait (maxBulk n : Nat) :
      Waiting maxBulk (fullBuffer (bulkMarker :: List.replicate n 48)) := by
    have hno : ¬ crlf <:+: List.replicate n (48 : UInt8) := fun hin =>
      absurd (List.eq_of_mem_replicate (hin.subset List.mem_cons_self)) (by decide)
    exact waiting_iff.mpr ⟨.bulk (.inHeader _ hno), view_fullBuffer _⟩
  refine ⟨hwait, fun hall => ?_⟩
  obtain ⟨bound, hbound⟩ := (hall 0).1
  refine hbound _ ⟨_, Set.mem_univ _, List.prefix_refl _⟩ ?_ (hwait 0 bound)
  rw [view_fullBuffer, List.length_cons, List.length_replicate]
  omega

end Shine
