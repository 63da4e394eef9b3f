import Shine.Proto.Resp2Grammar

/-!
# The RESP2 emitters (`proto/resp2_writer.cpp`) and how they parse

`Resp2Writer` appends to a string; here each emitter is the bytes it appends.
The parser reads every emitted bulk string and array back exactly when their
lengths are within its limit (`BulkFits`), whatever follows them, and refuses
them otherwise: nothing emitted is ever misread.
-/

namespace Shine

open Resp2

/-- `Resp2Writer::writeBulkHeader`. -/
def writeBulkHeader (payloadLen : Nat) : Bytes := bulkMarker :: (strDec payloadLen ++ crlf)

/-- `Resp2Writer::writeBulk`. -/
def writeBulk (payload : Bytes) : Bytes :=
  writeBulkHeader payload.length ++ (payload ++ crlf)

/-- `Resp2Writer::writeArray`. -/
def writeArray (parts : List Bytes) : Bytes :=
  arrayMarker :: (strDec parts.length ++ crlf) ++ (parts.map writeBulk).flatten

/-- A bulk string the parser accepts: within `max_bulk`, and with a length that
an `i64` holds — as the length of every `std::string` does. -/
def BulkFits (maxBulk : Nat) (payload : Bytes) : Prop :=
  payload.length ≤ maxBulk ∧ payload.length < 2 ^ 63

instance (maxBulk : Nat) (payload : Bytes) : Decidable (BulkFits maxBulk payload) :=
  inferInstanceAs (Decidable (_ ∧ _))

theorem cr_not_mem_strDec (n : Nat) : cr ∉ strDec n :=
  fun h => (isDigit_other (isDigit_of_mem_strDec h)).1 rfl

@[simp] theorem length_writeBulkHeader (n : Nat) :
    (writeBulkHeader n).length = (strDec n).length + 3 := by
  simp [writeBulkHeader, crlf]

@[simp] theorem length_writeBulk (p : Bytes) :
    (writeBulk p).length = (strDec p.length).length + 3 + (p.length + 2) := by
  simp [writeBulk, crlf]

/-! ## What is emitted is a value -/

theorem noCrlf_strDec (n : Nat) : ¬ crlf <:+: strDec n :=
  fun hin => cr_not_mem_strDec n (hin.subset List.mem_cons_self)

theorem parseInt64_strDec (n : Nat) :
    parseInt64 (strDec n) = if n < 2 ^ 63 then some (n : Int) else none := by
  rw [parseInt64, simpleAtoi_strDec, i64Min, i64Max]
  split_ifs <;> first | rfl | omega

section Emitted

variable {maxBulk : Nat} {p : Bytes} {parts : List Bytes}

/-- An emitted bulk string that fits, with its parts. -/
def emittedBulk (p : Bytes) (h : BulkFits maxBulk p) : Bulk maxBulk where
  header := strDec p.length
  body := p
  noCrlf := noCrlf_strDec _
  len := by rw [parseInt64_strDec, if_pos h.2]
  fits := h.1

theorem text_emittedBulk (h : BulkFits maxBulk p) : (emittedBulk p h).text = writeBulk p := by
  simp [Bulk.text, emittedBulk, writeBulk, writeBulkHeader]

theorem exists_elements (h : ∀ p ∈ parts, BulkFits maxBulk p) :
    ∃ elements : List (Bulk maxBulk), elements.flatMap Bulk.text = (parts.map writeBulk).flatten ∧
      elements.map Bulk.body = parts := by
  induction parts with
  | nil => exact ⟨[], rfl, rfl⟩
  | cons p parts ih =>
    have hp : BulkFits maxBulk p := h p List.mem_cons_self
    obtain ⟨elements, htext, hbody⟩ := ih fun q hq => h q (List.mem_cons_of_mem _ hq)
    refine ⟨emittedBulk p hp :: elements, ?_, ?_⟩
    · rw [List.flatMap_cons, htext, text_emittedBulk]
      rfl
    · rw [List.map_cons, hbody]
      rfl

/-- The bytes of an emitted bulk string, at the place the parser reports. -/
theorem slice_writeBulk (pre p x : Bytes) :
    slice (pre ++ (writeBulk p ++ x)) (pre.length + (writeBulkHeader p.length).length)
      p.length = p := by
  rw [show pre ++ (writeBulk p ++ x)
      = (pre ++ writeBulkHeader p.length) ++ (p ++ (crlf ++ x)) by simp [writeBulk],
    slice, List.drop_append, List.drop_eq_nil_of_le (by simp), List.nil_append,
    List.length_append, Nat.sub_self, List.drop_zero, List.take_left]

/-! ## What is not read back -/

/-- A bulk string beyond the limit is refused as soon as its header is there. -/
theorem parseBulkString_writeBulk_error {data x : Bytes} {off : Nat}
    (hdata : data.drop off = writeBulk p ++ x) (h : ¬ BulkFits maxBulk p) :
    ∃ e, parseBulkString data off maxBulk = .error e := by
  have hheader : data.drop off = bulkMarker :: (strDec p.length ++ crlf ++ (p ++ (crlf ++ x))) := by
    rw [hdata]
    simp [writeBulk, writeBulkHeader]
  by_cases hi : p.length < 2 ^ 63
  · have hmax : p.length > maxBulk := Nat.lt_of_not_le fun hle => h ⟨hle, hi⟩
    have hlen : parseInt64 (strDec p.length) = some (p.length : Int) := by
      rw [parseInt64_strDec, if_pos hi]
    rw [parseBulkString_body hheader (noCrlf_strDec _) hlen, if_neg (by omega),
      Int.toNat_natCast, if_pos hmax]
    exact ⟨_, rfl⟩
  · have hlen : parseInt64 (strDec p.length) = none := by rw [parseInt64_strDec, if_neg hi]
    exact ⟨_, parseBulkString_unreadable hheader (noCrlf_strDec _) hlen⟩

/-- One element beyond the limit makes the loop fail. -/
theorem parseElements_writeBulk_error {data x : Bytes} {off : Nat} (acc : List Bytes)
    (hdata : data.drop off = (parts.map writeBulk).flatten ++ x)
    (h : ¬ ∀ p ∈ parts, BulkFits maxBulk p) :
    ∃ e, parseElements data maxBulk parts.length off acc = .error e := by
  induction parts generalizing off acc with
  | nil => exact absurd (by simp) h
  | cons p parts ih =>
    rw [List.map_cons, List.flatten_cons, List.append_assoc] at hdata
    by_cases hp : BulkFits maxBulk p
    · rw [← text_emittedBulk hp] at hdata
      have hparts : ¬ ∀ q ∈ parts, BulkFits maxBulk q := fun hall =>
        h (List.forall_mem_cons.mpr ⟨hp, hall⟩)
      rw [List.length_cons, parseElements_cons ⟨_, hdata.symm⟩]
      exact ih _ (drop_text hdata) hparts
    · obtain ⟨e, he⟩ := parseBulkString_writeBulk_error hdata hp
      rw [List.length_cons, parseElements, he]
      exact ⟨e, rfl⟩

/-! ## The parser on what is emitted -/

/-- **An emitted bulk string parses to itself**, whatever follows it. -/
theorem parse_writeBulk (x : Bytes) (h : BulkFits maxBulk p) :
    parse maxBulk (writeBulk p ++ x)
      = .ok ((writeBulk p).length, .bulk (writeBulkHeader p.length).length p.length) := by
  have htext : (emittedBulk p h).text <+: (writeBulk p ++ x).drop 0 := by
    rw [text_emittedBulk]
    exact List.prefix_append _ _
  rw [parse_bulk (show writeBulk p ++ x = bulkMarker :: _ from rfl),
    parseBulkString_of_text htext, Bulk.pos, text_emittedBulk]
  simp [Except.map, bulkFrame, emittedBulk]

theorem parse_writeBulk_error (x : Bytes) (h : ¬ BulkFits maxBulk p) :
    ∃ e, parse maxBulk (writeBulk p ++ x) = .error e := by
  have hdata : (writeBulk p ++ x).drop 0 = writeBulk p ++ x := rfl
  obtain ⟨e, he⟩ := parseBulkString_writeBulk_error hdata h
  rw [parse_bulk (show writeBulk p ++ x = bulkMarker :: _ from rfl), he]
  exact ⟨e, rfl⟩

/-- The array header: what is left to do is the element loop. -/
theorem parse_writeArray_header (maxBulk : Nat) (x : Bytes) (hn : parts.length ≤ 1024) :
    ((writeArray parts ++ x).drop ((strDec parts.length).length + 3)
        = (parts.map writeBulk).flatten ++ x) ∧
      parse maxBulk (writeArray parts ++ x)
        = (parseElements (writeArray parts ++ x) maxBulk parts.length
            ((strDec parts.length).length + 3) []).map arrayFrame := by
  have hdata : writeArray parts ++ x
      = arrayMarker :: (strDec parts.length ++ crlf ++ ((parts.map writeBulk).flatten ++ x)) := by
    simp [writeArray]
  have hlen : parseInt64 (strDec parts.length) = some (parts.length : Int) := by
    rw [parseInt64_strDec, if_pos (by omega)]
  refine ⟨drop_header hdata, ?_⟩
  rw [parse_elements hdata (noCrlf_strDec _) hlen, if_neg (by omega), Int.toNat_natCast]

/-- **An emitted array parses to its elements**, whatever follows it. -/
theorem parse_writeArray (x : Bytes) (hn : parts.length ≤ 1024)
    (h : ∀ p ∈ parts, BulkFits maxBulk p) :
    parse maxBulk (writeArray parts ++ x)
      = .ok ((writeArray parts).length, .array parts) := by
  obtain ⟨elements, htext, hbody⟩ := exists_elements h
  obtain ⟨hdrop, hparse⟩ := parse_writeArray_header maxBulk x hn
  have hcount : elements.length = parts.length := by rw [← hbody, List.length_map]
  have hprefix : elements.flatMap Bulk.text
      <+: (writeArray parts ++ x).drop ((strDec parts.length).length + 3) := by
    rw [hdrop, htext]
    exact List.prefix_append _ _
  have hloop := parseElements_of_text [] hprefix
  rw [hcount, htext, hbody] at hloop
  have hlength : (strDec parts.length).length + 3 + (parts.map writeBulk).flatten.length
      = (writeArray parts).length := by
    simp only [writeArray, crlf, List.length_append, List.length_cons, List.length_nil]
  rw [hparse, hloop, hlength]
  rfl

theorem parse_writeArray_error (x : Bytes) (hn : parts.length ≤ 1024)
    (h : ¬ ∀ p ∈ parts, BulkFits maxBulk p) :
    ∃ e, parse maxBulk (writeArray parts ++ x) = .error e := by
  obtain ⟨hdrop, hparse⟩ := parse_writeArray_header maxBulk x hn
  obtain ⟨e, he⟩ := parseElements_writeBulk_error [] hdrop h
  rw [hparse, he]
  exact ⟨e, rfl⟩

end Emitted

end Shine
