import Shine.Proto.Resp2Parser

/-!
# The values of RESP2 (`proto/resp2_parser.cpp`)

A value is a bulk string, `'$' header CRLF body CRLF`, or an array, `'*' header CRLF` and
the elements, which are bulk strings. A header is anything without CRLF that
`absl::SimpleAtoi` reads as the length of what follows.

A buffer starts with a value, is the beginning of one as far as the parser can tell, or is
refused (`value_or_start_or_error`). From this follow the facts that every reader of the
stream rests on:

- **exactness** (`parse_value_iff`): the parser takes values and nothing else;
- **waiting** (`parse_of_start`, `parse_part`): it waits at the beginning of one;
- **bounds** (`parse_ok_bounds`): a parsed value lies within the bytes given;
- **stability** (`parse_append`): what it decides is not changed by bytes that follow.
-/

namespace Shine

namespace Resp2

/-- `'$' header CRLF body CRLF`. -/
structure Bulk (maxBulk : Nat) where
  header : Bytes
  body : Bytes
  noCrlf : ¬ crlf <:+: header
  len : parseInt64 header = some (body.length : Int)
  fits : body.length ≤ maxBulk

/-- A bulk string, or `'*' header CRLF` and the elements. -/
inductive Value (maxBulk : Nat) where
  | bulk (b : Bulk maxBulk)
  | array (header : Bytes) (elements : List (Bulk maxBulk)) (noCrlf : ¬ crlf <:+: header)
      (len : parseInt64 header = some (elements.length : Int)) (le : elements.length ≤ 1024)

variable {maxBulk : Nat}

/-- The bytes of a bulk string. -/
def Bulk.text (b : Bulk maxBulk) : Bytes :=
  bulkMarker :: (b.header ++ crlf ++ (b.body ++ crlf))

/-- The bytes of a value. -/
def Value.text : Value maxBulk → Bytes
  | .bulk b => b.text
  | .array header elements _ _ _ => arrayMarker :: (header ++ crlf ++ elements.flatMap Bulk.text)

/-- What a value says. -/
def Value.contents : Value maxBulk → Bytes ⊕ List Bytes
  | .bulk b => .inl b.body
  | .array _ elements _ _ _ => .inr (elements.map Bulk.body)

/-- The frame that is made of a value at the start of the data. -/
def Value.frame : Value maxBulk → Resp2Frame
  | .bulk b => .bulk (b.header.length + 3) b.body.length
  | .array _ elements _ _ _ => .array (elements.map Bulk.body)

/-- Where the body of a bulk string is that starts at `off`. -/
def Bulk.pos (b : Bulk maxBulk) (off : Nat) : BulkPos :=
  ⟨off + (b.header.length + 3), b.body.length, off + b.text.length⟩

/-- A bulk string of which there is only the beginning. -/
inductive BulkStart (maxBulk : Nat) where
  | nothing
  | inHeader (header : Bytes) (noCrlf : ¬ crlf <:+: header)
  | inBody (header tail : Bytes) (noCrlf : ¬ crlf <:+: header) (len : Nat)
      (hlen : parseInt64 header = some (len : Int)) (fits : len ≤ maxBulk)
      (short : tail.length < len + 2)

/-- A value of which there is only the beginning. -/
inductive Start (maxBulk : Nat) where
  | bulk (s : BulkStart maxBulk)
  | inHeader (header : Bytes) (noCrlf : ¬ crlf <:+: header)
  | inElements (header : Bytes) (elements : List (Bulk maxBulk)) (s : BulkStart maxBulk)
      (noCrlf : ¬ crlf <:+: header) (len : Nat) (hlen : parseInt64 header = some (len : Int))
      (le : len ≤ 1024) (short : elements.length < len)

/-- The bytes that are there. -/
def BulkStart.text : BulkStart maxBulk → Bytes
  | .nothing => []
  | .inHeader header _ => bulkMarker :: header
  | .inBody header tail _ _ _ _ _ => bulkMarker :: (header ++ crlf ++ tail)

/-- The bytes that are there. -/
def Start.text : Start maxBulk → Bytes
  | .bulk s => s.text
  | .inHeader header _ => arrayMarker :: header
  | .inElements header elements s _ _ _ _ _ =>
    arrayMarker :: (header ++ crlf ++ (elements.flatMap Bulk.text ++ s.text))

theorem Bulk.length_text (b : Bulk maxBulk) :
    b.text.length = b.header.length + b.body.length + 5 := by
  simp only [Bulk.text, crlf, List.length_cons, List.length_append, List.length_nil]
  omega

theorem Value.length_text_pos (v : Value maxBulk) : 0 < v.text.length := by
  cases v with
  | bulk b => exact Nat.succ_pos _
  | array header elements _ _ _ => exact Nat.succ_pos _

end Resp2

open Resp2

/-! ## One bulk string

In all of this the bytes from `off` on are given. -/

section Bulk

variable {data : Bytes} {off maxBulk : Nat} {c : UInt8} {rest header tail : Bytes}

theorem getElem?_of_drop (h : data.drop off = c :: rest) : data[off]? = some c := by
  rw [← List.head?_drop, h]
  rfl

theorem drop_behind (h : data.drop off = c :: rest) : data.drop (off + 1) = rest := by
  rw [← List.drop_drop, h]
  rfl

/-- The byte at `off` is not the marker, or there is none. -/
theorem parseBulkString_unmarked (h : data.drop off = c :: rest) (hc : c ≠ bulkMarker) :
    parseBulkString data off maxBulk
      = .error (.invalidArgument (ascii "expected '$' bulk marker")) := by
  unfold parseBulkString
  rw [getElem?_of_drop h]
  exact if_pos hc

theorem parseBulkString_nil (h : data.drop off = []) :
    parseBulkString data off maxBulk = .ok none := by
  unfold parseBulkString
  rw [← List.head?_drop, h]
  rfl

/-- The header does not end. -/
theorem parseBulkString_endless (h : data.drop off = bulkMarker :: rest) (hno : ¬ crlf <:+: rest) :
    parseBulkString data off maxBulk = .ok none := by
  unfold parseBulkString findCrlf
  rw [getElem?_of_drop h, drop_behind h, crlfAt_none hno]
  exact if_neg (not_not_intro rfl)

/-- The header ends, and `parseInt64` gets it. -/
theorem findCrlf_header (h : data.drop off = header ++ crlf ++ tail) (hno : ¬ crlf <:+: header) :
    findCrlf data off = some (off + header.length) ∧ slice data off header.length = header := by
  rw [findCrlf, slice, h, crlfAt_header _ _ hno]
  refine ⟨rfl, ?_⟩
  rw [List.append_assoc, List.take_left]

theorem parseBulkString_unreadable (h : data.drop off = bulkMarker :: (header ++ crlf ++ tail))
    (hno : ¬ crlf <:+: header) (hlen : parseInt64 header = none) :
    parseBulkString data off maxBulk = .error (.invalidArgument (ascii "bad bulk length")) := by
  obtain ⟨hfind, hslice⟩ := findCrlf_header (drop_behind h) hno
  unfold parseBulkString
  rw [getElem?_of_drop h]
  simp only [hfind, ne_eq, not_true_eq_false, if_false]
  rw [show off + 1 + header.length - off - 1 = header.length by omega, hslice, hlen]

/-- What is done behind a readable header. -/
theorem parseBulkString_body (h : data.drop off = bulkMarker :: (header ++ crlf ++ tail))
    (hno : ¬ crlf <:+: header) {len : Int} (hlen : parseInt64 header = some len) :
    parseBulkString data off maxBulk =
      if len < 0 then .error (.invalidArgument (ascii "null bulk not supported"))
      else if len.toNat > maxBulk then
        .error (.resourceExhausted (ascii "bulk length " ++ strDec len.toNat
          ++ ascii " exceeds max " ++ strDec maxBulk))
      else if tail.length < len.toNat + 2 then .ok none
      else if tail[len.toNat]? ≠ some cr ∨ tail[len.toNat + 1]? ≠ some lf then
        .error (.invalidArgument (ascii "missing CRLF after bulk body"))
      else .ok (some ⟨off + (header.length + 3), len.toNat,
        off + (header.length + len.toNat + 5)⟩) := by
  obtain ⟨hfind, hslice⟩ := findCrlf_header (drop_behind h) hno
  have hsize := congrArg List.length h
  simp only [crlf, List.length_drop, List.length_cons, List.length_append, List.length_nil]
    at hsize
  have htail : ∀ i, data[off + 1 + header.length + 2 + i]? = tail[i]? := by
    intro i
    rw [show off + 1 + header.length + 2 + i = off + (header.length + 2 + 1 + i) by omega,
      ← List.getElem?_drop, h, Nat.add_right_comm, List.getElem?_cons_succ,
      List.getElem?_append_right (by simp [crlf])]
    congr 1
    simp [crlf]
  unfold parseBulkString
  rw [getElem?_of_drop h]
  simp only [hfind, ne_eq, not_true_eq_false, if_false]
  rw [show off + 1 + header.length - off - 1 = header.length by omega, hslice, hlen]
  simp only [Nat.add_assoc _ len.toNat 1, htail]
  congr 3
  · simp only [eq_iff_iff]
    omega
  · rw [show off + 1 + header.length + 2 = off + (header.length + 3) by omega,
      show off + (header.length + 3) + len.toNat + 2 = off + (header.length + len.toNat + 5) by
        omega]

/-- The bytes behind the body are read one by one. -/
theorem exists_body {n : Nat} (hcr : tail[n]? = some cr) (hlf : tail[n + 1]? = some lf) :
    ∃ body x, body.length = n ∧ tail = body ++ crlf ++ x := by
  obtain ⟨hn, hget⟩ := List.getElem?_eq_some_iff.mp hcr
  obtain ⟨hn', hget'⟩ := List.getElem?_eq_some_iff.mp hlf
  refine ⟨tail.take n, tail.drop (n + 2), List.length_take_of_le (by omega), ?_⟩
  conv_lhs =>
    rw [← List.take_append_drop n tail, List.drop_eq_getElem_cons hn,
      List.drop_eq_getElem_cons hn', hget, hget']
  rw [List.append_assoc]
  rfl

/-- A bulk string is taken. -/
theorem parseBulkString_of_text {b : Bulk maxBulk} (h : b.text <+: data.drop off) :
    parseBulkString data off maxBulk = .ok (some (b.pos off)) := by
  obtain ⟨x, hx⟩ := h
  have hdata : data.drop off
      = bulkMarker :: (b.header ++ crlf ++ (b.body ++ crlf ++ x)) := by
    rw [← hx, Bulk.text, List.cons_append, List.append_assoc]
  have hfits := b.fits
  have hcr : (b.body ++ crlf ++ x)[b.body.length]? = some cr := by simp [crlf]
  have hlf : (b.body ++ crlf ++ x)[b.body.length + 1]? = some lf := by simp [crlf]
  rw [parseBulkString_body hdata b.noCrlf b.len, Int.toNat_natCast, if_neg (by omega),
    if_neg (by omega), if_neg (by simp [crlf]),
    if_neg (not_or.mpr ⟨not_not_intro hcr, not_not_intro hlf⟩), Bulk.pos, b.length_text]

/-- The beginning of one makes the parser wait. -/
theorem parseBulkString_of_start {s : BulkStart maxBulk} (h : data.drop off = s.text) :
    parseBulkString data off maxBulk = .ok none := by
  cases s with
  | nothing => exact parseBulkString_nil h
  | inHeader header hno => exact parseBulkString_endless h hno
  | inBody header tail hno len hlen hfits hshort =>
    rw [parseBulkString_body h hno hlen, Int.toNat_natCast, if_neg (by omega), if_neg (by omega),
      if_pos hshort]

/-- Anything else is refused. -/
theorem bulk_or_start_or_error (data : Bytes) (off maxBulk : Nat) :
    (∃ b : Bulk maxBulk, b.text <+: data.drop off) ∨
      (∃ s : BulkStart maxBulk, data.drop off = s.text) ∨
      ∃ e, parseBulkString data off maxBulk = .error e := by
  cases hdata : data.drop off with
  | nil => exact Or.inr (Or.inl ⟨.nothing, rfl⟩)
  | cons c rest =>
    by_cases hc : c = bulkMarker
    · subst hc
      rcases cut_at_crlf rest with hno | ⟨header, tail, hno, rfl⟩
      · exact Or.inr (Or.inl ⟨.inHeader rest hno, rfl⟩)
      · cases hlen : parseInt64 header with
        | none => exact Or.inr (Or.inr ⟨_, parseBulkString_unreadable hdata hno hlen⟩)
        | some len =>
          rw [parseBulkString_body hdata hno hlen]
          split_ifs with hneg hmax hshort hcrlf
          · exact Or.inr (Or.inr ⟨_, rfl⟩)
          · exact Or.inr (Or.inr ⟨_, rfl⟩)
          · have hnat : parseInt64 header = some (len.toNat : Int) := by
              rw [hlen, Int.toNat_of_nonneg (by omega)]
            exact Or.inr (Or.inl ⟨.inBody header tail hno len.toNat hnat (by omega) hshort, rfl⟩)
          · exact Or.inr (Or.inr ⟨_, rfl⟩)
          · obtain ⟨hcr, hlf⟩ := not_or.mp hcrlf
            obtain ⟨body, x, hbody, rfl⟩ := exists_body (not_not.mp hcr) (not_not.mp hlf)
            have hnat : parseInt64 header = some (body.length : Int) := by
              rw [hlen, hbody, Int.toNat_of_nonneg (by omega)]
            refine Or.inl ⟨⟨header, body, hno, hnat, by omega⟩, x, ?_⟩
            rw [Bulk.text, List.cons_append, List.append_assoc]
    · exact Or.inr (Or.inr ⟨_, parseBulkString_unmarked hdata hc⟩)

/-- A parsed bulk string: its body lies in the data, behind `off`, and is followed by the two
bytes that end it. -/
theorem parseBulkString_bounds {p : BulkPos}
    (h : parseBulkString data off maxBulk = .ok (some p)) :
    off < p.valueOff ∧ p.valueOff + p.valueLen + 2 = p.endOff ∧
      p.endOff ≤ data.length ∧ p.valueLen ≤ maxBulk := by
  rcases bulk_or_start_or_error data off maxBulk with ⟨b, hb⟩ | ⟨s, hs⟩ | ⟨e, he⟩
  · cases h.symm.trans (parseBulkString_of_text hb)
    have hlength := hb.length_le
    rw [List.length_drop] at hlength
    have htext := b.length_text
    simp only [Bulk.pos]
    exact ⟨by omega, by omega, by omega, b.fits⟩
  · cases h.symm.trans (parseBulkString_of_start hs)
  · cases h.symm.trans he

theorem slice_pos {b : Bulk maxBulk} (h : b.text <+: data.drop off) :
    slice data (b.pos off).valueOff (b.pos off).valueLen = b.body := by
  obtain ⟨x, hx⟩ := h
  rw [Bulk.pos, slice, ← List.drop_drop, ← hx, Bulk.text]
  simp [crlf]

end Bulk

/-! ## The elements of an array -/

section Elements

variable {data : Bytes} {maxBulk : Nat} {b : Bulk maxBulk} {off : Nat}

theorem drop_text {rest : Bytes} (h : data.drop off = b.text ++ rest) :
    data.drop (off + b.text.length) = rest := by
  rw [← List.drop_drop, h, List.drop_left]

theorem parseElements_cons (h : b.text <+: data.drop off) (k : Nat) (acc : List Bytes) :
    parseElements data maxBulk (k + 1) off acc
      = parseElements data maxBulk k (off + b.text.length) (acc ++ [b.body]) := by
  rw [parseElements, parseBulkString_of_text h]
  show parseElements data maxBulk k (off + b.text.length)
    (acc ++ [slice data (b.pos off).valueOff (b.pos off).valueLen]) = _
  rw [slice_pos h]

theorem parseElements_of_text {elements : List (Bulk maxBulk)} (acc : List Bytes)
    (h : elements.flatMap Bulk.text <+: data.drop off) :
    parseElements data maxBulk elements.length off acc
      = .ok (some (off + (elements.flatMap Bulk.text).length, acc ++ elements.map Bulk.body)) := by
  induction elements generalizing off acc with
  | nil => simp [parseElements]
  | cons b rest ih =>
    obtain ⟨x, hx⟩ := h
    rw [List.flatMap_cons, List.append_assoc] at hx
    have hrest : rest.flatMap Bulk.text <+: data.drop (off + b.text.length) := by
      rw [drop_text hx.symm]
      exact List.prefix_append _ _
    rw [List.length_cons, parseElements_cons ⟨_, hx⟩, ih _ hrest]
    simp [Nat.add_assoc]

theorem parseElements_of_start {elements : List (Bulk maxBulk)} {s : BulkStart maxBulk} {k : Nat}
    (acc : List Bytes) (hk : elements.length < k)
    (h : data.drop off = elements.flatMap Bulk.text ++ s.text) :
    parseElements data maxBulk k off acc = .ok none := by
  induction elements generalizing off acc k with
  | nil =>
    obtain ⟨k, rfl⟩ := Nat.exists_eq_add_one_of_ne_zero (Nat.ne_zero_of_lt hk)
    rw [parseElements, parseBulkString_of_start h]
  | cons b rest ih =>
    obtain ⟨k, rfl⟩ := Nat.exists_eq_add_one_of_ne_zero (Nat.ne_zero_of_lt hk)
    rw [List.flatMap_cons, List.append_assoc] at h
    rw [parseElements_cons ⟨_, h.symm⟩]
    exact ih _ (Nat.lt_of_succ_lt_succ hk) (drop_text h)

theorem elements_or_start_or_error (data : Bytes) (maxBulk k off : Nat) (acc : List Bytes) :
    (∃ elements : List (Bulk maxBulk), elements.length = k ∧
      elements.flatMap Bulk.text <+: data.drop off) ∨
    (∃ (elements : List (Bulk maxBulk)) (s : BulkStart maxBulk), elements.length < k ∧
      data.drop off = elements.flatMap Bulk.text ++ s.text) ∨
    ∃ e, parseElements data maxBulk k off acc = .error e := by
  induction k generalizing off acc with
  | zero => exact Or.inl ⟨[], rfl, List.nil_prefix⟩
  | succ k ih =>
    rcases bulk_or_start_or_error data off maxBulk with ⟨b, x, hx⟩ | ⟨s, hs⟩ | ⟨e, he⟩
    · rw [parseElements_cons ⟨x, hx⟩, ← hx]
      rw [← drop_text hx.symm]
      rcases ih (off + b.text.length) (acc ++ [b.body])
        with ⟨elements, hlen, y, hy⟩ | ⟨elements, s, hlen, hs⟩ | herr
      · refine Or.inl ⟨b :: elements, congrArg (· + 1) hlen, y, ?_⟩
        rw [← hy, List.flatMap_cons, List.append_assoc]
      · refine Or.inr (Or.inl ⟨b :: elements, s, Nat.succ_lt_succ hlen, ?_⟩)
        rw [hs, List.flatMap_cons, List.append_assoc]
      · exact Or.inr (Or.inr herr)
    · exact Or.inr (Or.inl ⟨[], s, Nat.succ_pos k, hs⟩)
    · rw [parseElements, he]
      exact Or.inr (Or.inr ⟨e, rfl⟩)

end Elements

/-! ## Values -/

/-- What `tryParse` makes of a bulk string. -/
def bulkFrame : Option BulkPos → Nat × Resp2Frame
  | none => (0, .monostate)
  | some p => (p.endOff, .bulk p.valueOff p.valueLen)

/-- What `tryParse` makes of the elements. -/
def arrayFrame : Option (Nat × List Bytes) → Nat × Resp2Frame
  | none => (0, .monostate)
  | some (off, elements) => (off, .array elements)

section Values

variable {data : Bytes} {maxBulk : Nat} {rest header tail : Bytes}

theorem parse_bulk (h : data = bulkMarker :: rest) :
    parse maxBulk data = (parseBulkString data 0 maxBulk).map bulkFrame := by
  unfold parse
  rw [getElem?_of_drop (show data.drop 0 = _ from h)]
  simp only [if_true]
  cases parseBulkString data 0 maxBulk with
  | error e => rfl
  | ok o => cases o <;> rfl

theorem parse_unmarked {c : UInt8} (h : data = c :: rest) (hbulk : c ≠ bulkMarker)
    (harray : c ≠ arrayMarker) :
    parse maxBulk data
      = .error (.invalidArgument (ascii "unexpected RESP2 type byte 0x" ++ hexPad2 c)) := by
  unfold parse
  rw [getElem?_of_drop (show data.drop 0 = _ from h)]
  simp only [if_neg hbulk, if_neg harray]

theorem parse_endless (h : data = arrayMarker :: rest) (hno : ¬ crlf <:+: rest) :
    parse maxBulk data = .ok (0, .monostate) := by
  have hdrop : data.drop 0 = arrayMarker :: rest := h
  unfold parse findCrlf
  rw [getElem?_of_drop hdrop, drop_behind hdrop, crlfAt_none hno]
  rfl

theorem parse_unreadable (h : data = arrayMarker :: (header ++ crlf ++ tail))
    (hno : ¬ crlf <:+: header) (hlen : parseInt64 header = none) :
    parse maxBulk data = .error (.invalidArgument (ascii "bad array length")) := by
  have hdrop : data.drop 0 = _ := h
  have hbehind : data.drop 1 = header ++ crlf ++ tail := drop_behind hdrop
  obtain ⟨hfind, hslice⟩ := findCrlf_header hbehind hno
  unfold parse
  rw [getElem?_of_drop hdrop]
  simp only [if_neg (show arrayMarker ≠ bulkMarker by decide), if_true, hfind]
  rw [Nat.add_sub_cancel_left, hslice, hlen]

theorem parse_elements (h : data = arrayMarker :: (header ++ crlf ++ tail))
    (hno : ¬ crlf <:+: header) {len : Int} (hlen : parseInt64 header = some len) :
    parse maxBulk data =
      if len < 0 ∨ len > 1024 then .error (.invalidArgument (ascii "array length out of range"))
      else (parseElements data maxBulk len.toNat (header.length + 3) []).map arrayFrame := by
  have hdrop : data.drop 0 = _ := h
  have hbehind : data.drop 1 = header ++ crlf ++ tail := drop_behind hdrop
  obtain ⟨hfind, hslice⟩ := findCrlf_header hbehind hno
  unfold parse
  rw [getElem?_of_drop hdrop]
  simp only [if_neg (show arrayMarker ≠ bulkMarker by decide), if_true, hfind]
  rw [Nat.add_sub_cancel_left, hslice, hlen,
    show 1 + header.length + 2 = header.length + 3 by omega]
  refine if_congr Iff.rfl rfl ?_
  cases parseElements data maxBulk len.toNat (header.length + 3) [] with
  | error e => rfl
  | ok o => cases o <;> rfl

theorem drop_header (h : data = arrayMarker :: (header ++ crlf ++ tail)) :
    data.drop (header.length + 3) = tail := by
  rw [h]
  simp [crlf]

/-- A value is taken. -/
theorem parse_of_text {v : Value maxBulk} (h : v.text <+: data) :
    parse maxBulk data = .ok (v.text.length, v.frame) := by
  cases v with
  | bulk b =>
    have hb : b.text <+: data.drop 0 := h
    obtain ⟨x, hx⟩ := h
    rw [parse_bulk hx.symm, parseBulkString_of_text hb, Bulk.pos, Nat.zero_add, Nat.zero_add]
    rfl
  | array header elements hno hlen hle =>
    obtain ⟨x, hx⟩ := h
    rw [Value.text, List.cons_append, List.append_assoc] at hx
    have helements : elements.flatMap Bulk.text <+: data.drop (header.length + 3) := by
      rw [drop_header hx.symm]
      exact List.prefix_append _ _
    have hlength : header.length + 3 + (elements.flatMap Bulk.text).length
        = (Value.array header elements hno hlen hle).text.length := by
      simp only [Value.text, crlf, List.length_cons, List.length_append, List.length_nil]
      omega
    rw [parse_elements hx.symm hno hlen, if_neg (by omega), Int.toNat_natCast,
      parseElements_of_text [] helements, hlength]
    rfl

/-- The frame says what is in the value. -/
theorem contents_frame {v : Value maxBulk} (h : v.text <+: data) :
    v.frame.contents data = some v.contents := by
  cases v with
  | bulk b =>
    have hslice := slice_pos (show b.text <+: data.drop 0 from h)
    rw [Bulk.pos, Nat.zero_add] at hslice
    exact congrArg (some ∘ Sum.inl) hslice
  | array header elements hno hlen hle => rfl

/-- The beginning of one makes the parser wait. -/
theorem parse_of_start {s : Start maxBulk} (h : data = s.text) :
    parse maxBulk data = .ok (0, .monostate) := by
  cases s with
  | bulk s =>
    have hwait : parseBulkString data 0 maxBulk = .ok none := parseBulkString_of_start h
    cases s with
    | nothing =>
      rw [show data = [] from h]
      rfl
    | inHeader header hno =>
      rw [parse_bulk h, hwait]
      rfl
    | inBody header tail hno len hlen hfits hshort =>
      rw [parse_bulk h, hwait]
      rfl
  | inHeader header hno => exact parse_endless h hno
  | inElements header elements s hno len hlen hle hshort =>
    rw [parse_elements h hno hlen, if_neg (by omega), Int.toNat_natCast,
      parseElements_of_start [] hshort (drop_header h)]
    rfl

theorem array_or_start_or_error (h : data = arrayMarker :: (header ++ crlf ++ tail))
    (hno : ¬ crlf <:+: header) :
    (∃ v : Value maxBulk, v.text <+: data) ∨ (∃ s : Start maxBulk, data = s.text) ∨
      ∃ e, parse maxBulk data = .error e := by
  cases hlen : parseInt64 header with
  | none => exact Or.inr (Or.inr ⟨_, parse_unreadable h hno hlen⟩)
  | some len =>
    by_cases hrange : len < 0 ∨ len > 1024
    · rw [parse_elements h hno hlen, if_pos hrange]
      exact Or.inr (Or.inr ⟨_, rfl⟩)
    · obtain ⟨k, rfl⟩ := Int.eq_ofNat_of_zero_le (show 0 ≤ len by omega)
      rcases elements_or_start_or_error data maxBulk k (header.length + 3) []
        with ⟨elements, rfl, x, hx⟩ | ⟨elements, s, hk, hs⟩ | ⟨e, he⟩
      · rw [drop_header h] at hx
        refine Or.inl ⟨.array header elements hno hlen (by omega), x, ?_⟩
        rw [h, ← hx, Value.text, List.cons_append, List.append_assoc]
      · rw [drop_header h] at hs
        refine Or.inr (Or.inl ⟨.inElements header elements s hno k hlen (by omega) hk, ?_⟩)
        rw [h, hs, Start.text]
      · rw [parse_elements h hno hlen, if_neg hrange, Int.toNat_natCast, he]
        exact Or.inr (Or.inr ⟨e, rfl⟩)

/-- Anything else is refused. -/
theorem value_or_start_or_error (data : Bytes) (maxBulk : Nat) :
    (∃ v : Value maxBulk, v.text <+: data) ∨ (∃ s : Start maxBulk, data = s.text) ∨
      ∃ e, parse maxBulk data = .error e := by
  cases hdata : data with
  | nil => exact Or.inr (Or.inl ⟨.bulk .nothing, rfl⟩)
  | cons c rest =>
    by_cases hbulk : c = bulkMarker
    · rw [hbulk] at hdata ⊢
      rw [← hdata]
      rcases bulk_or_start_or_error data 0 maxBulk with ⟨b, hb⟩ | ⟨s, hs⟩ | ⟨e, he⟩
      · exact Or.inl ⟨.bulk b, hb⟩
      · exact Or.inr (Or.inl ⟨.bulk s, hs⟩)
      · rw [parse_bulk hdata, he]
        exact Or.inr (Or.inr ⟨e, rfl⟩)
    · by_cases harray : c = arrayMarker
      · rw [harray] at hdata ⊢
        rcases cut_at_crlf rest with hno | ⟨header, tail, hno, rfl⟩
        · exact Or.inr (Or.inl ⟨.inHeader rest hno, rfl⟩)
        · rw [← hdata]
          exact array_or_start_or_error hdata hno
      · rw [← hdata]
        exact Or.inr (Or.inr ⟨_, parse_unmarked hdata hbulk harray⟩)

/-- The parser takes values, and says what is in them. -/
theorem parse_value_iff {n : Nat} {c : Bytes ⊕ List Bytes} :
    (∃ f, parse maxBulk data = .ok (n, f) ∧ 0 < n ∧ f.contents data = some c)
      ↔ ∃ v : Value maxBulk, data.take n = v.text ∧ n ≤ data.length ∧ v.contents = c := by
  constructor
  · rintro ⟨f, hf, hn, hc⟩
    rcases value_or_start_or_error data maxBulk with ⟨v, hv⟩ | ⟨s, hs⟩ | ⟨e, he⟩
    · cases hf.symm.trans (parse_of_text hv)
      rw [contents_frame hv, Option.some.injEq] at hc
      exact ⟨v, (List.prefix_iff_eq_take.mp hv).symm, hv.length_le, hc⟩
    · cases hf.symm.trans (parse_of_start hs)
      exact absurd hn (Nat.lt_irrefl 0)
    · cases hf.symm.trans he
  · rintro ⟨v, htake, hn, rfl⟩
    have hv : v.text <+: data := by
      rw [← htake]
      exact List.take_prefix n data
    have hlen : v.text.length = n := by
      rw [← htake, List.length_take_of_le hn]
    have hparse := parse_of_text hv
    rw [hlen] at hparse
    exact ⟨_, hparse, hlen ▸ v.length_text_pos, contents_frame hv⟩

/-- **Bounds**: a successful attempt either is incomplete or has found a value whose bytes are
all there. -/
theorem parse_ok_bounds {n : Nat} {f : Resp2Frame} (h : parse maxBulk data = .ok (n, f)) :
    (n = 0 ∧ f = .monostate) ∨
      (0 < n ∧ n ≤ data.length ∧
        ((∃ off len, f = .bulk off len ∧ off + len ≤ n) ∨ ∃ els, f = .array els)) := by
  rcases value_or_start_or_error data maxBulk with ⟨v, hv⟩ | ⟨s, hs⟩ | ⟨e, he⟩
  · cases h.symm.trans (parse_of_text hv)
    refine Or.inr ⟨v.length_text_pos, hv.length_le, ?_⟩
    cases v with
    | bulk b =>
      refine Or.inl ⟨_, _, rfl, ?_⟩
      rw [Value.text, b.length_text]
      omega
    | array header elements hno hlen hle => exact Or.inr ⟨_, rfl⟩
  · cases h.symm.trans (parse_of_start hs)
    exact Or.inl ⟨rfl, rfl⟩
  · cases h.symm.trans he

end Values

/-! ## Stability

A decision — value or error — taken from some bytes is taken again, unchanged, when more
bytes follow them. -/

section Stability

variable {data : Bytes} {off maxBulk : Nat}

theorem drop_append_of_cons {c : UInt8} {rest : Bytes} (x : Bytes)
    (h : data.drop off = c :: rest) : (data ++ x).drop off = c :: (rest ++ x) := by
  have hlt : off < data.length := by
    by_contra hge
    rw [List.drop_eq_nil_of_le (by omega)] at h
    cases h
  rw [List.drop_append_of_le_length (by omega), h]
  rfl

/-- Behind a header, the body is complete or it is not. -/
theorem parseBulkString_append {r : StatusOr (Option BulkPos)} (x : Bytes)
    (h : parseBulkString data off maxBulk = r) (hr : r ≠ .ok none) :
    parseBulkString (data ++ x) off maxBulk = r := by
  subst h
  cases hdata : data.drop off with
  | nil => exact absurd (parseBulkString_nil hdata) hr
  | cons c rest =>
    have happend := drop_append_of_cons x hdata
    by_cases hc : c = bulkMarker
    · subst hc
      rcases cut_at_crlf rest with hno | ⟨header, tail, hno, rfl⟩
      · exact absurd (parseBulkString_endless hdata hno) hr
      · rw [List.append_assoc] at happend
        cases hlen : parseInt64 header with
        | none =>
          rw [parseBulkString_unreadable hdata hno hlen,
            parseBulkString_unreadable happend hno hlen]
        | some len =>
          rw [parseBulkString_body hdata hno hlen] at hr ⊢
          rw [parseBulkString_body happend hno hlen]
          split_ifs at hr with hneg hmax hshort
          · rw [if_pos hneg, if_pos hneg]
          · rw [if_neg hneg, if_neg hneg, if_pos hmax, if_pos hmax]
          · exact absurd rfl hr
          all_goals
            rw [if_neg hneg, if_neg hneg, if_neg hmax, if_neg hmax, if_neg hshort,
              if_neg (by rw [List.length_append]; omega), List.getElem?_append_left (by omega),
              List.getElem?_append_left (by omega)]
    · rw [parseBulkString_unmarked hdata hc, parseBulkString_unmarked happend hc]

theorem parseElements_append (x : Bytes) {k : Nat} {acc : List Bytes}
    {r : StatusOr (Option (Nat × List Bytes))} (h : parseElements data maxBulk k off acc = r)
    (hr : r ≠ .ok none) : parseElements (data ++ x) maxBulk k off acc = r := by
  induction k generalizing off acc with
  | zero => exact h
  | succ k ih =>
    rw [parseElements] at h ⊢
    cases hp : parseBulkString data off maxBulk with
    | error e =>
      rw [parseBulkString_append x hp (by rintro ⟨⟩)]
      rwa [hp] at h
    | ok o =>
      rw [hp] at h
      cases o with
      | none => exact absurd h.symm hr
      | some p =>
        have hbounds := parseBulkString_bounds hp
        rw [parseBulkString_append x hp (by rintro ⟨⟩)]
        dsimp only at h ⊢
        rw [slice_append x (by omega)]
        exact ih h

theorem parse_array_append {header tail : Bytes} (x : Bytes)
    (hdata : data = arrayMarker :: (header ++ crlf ++ tail))
    (happend : data ++ x = arrayMarker :: (header ++ crlf ++ (tail ++ x)))
    (hno : ¬ crlf <:+: header) (hr : parse maxBulk data ≠ .ok (0, .monostate)) :
    parse maxBulk (data ++ x) = parse maxBulk data := by
  cases hlen : parseInt64 header with
  | none => rw [parse_unreadable hdata hno hlen, parse_unreadable happend hno hlen]
  | some len =>
    rw [parse_elements hdata hno hlen] at hr ⊢
    rw [parse_elements happend hno hlen]
    by_cases hrange : len < 0 ∨ len > 1024
    · rw [if_pos hrange, if_pos hrange]
    · rw [if_neg hrange] at hr ⊢
      rw [if_neg hrange]
      by_cases hnone : parseElements data maxBulk len.toNat (header.length + 3) [] = .ok none
      · rw [hnone] at hr
        exact absurd rfl hr
      · rw [parseElements_append x rfl hnone]

/-- **Stability of the parser**: unless it is `Ok(0)`, the outcome of an attempt
is the outcome on every extension of the data. -/
theorem parse_append {r : StatusOr (Nat × Resp2Frame)} (x : Bytes) (h : parse maxBulk data = r)
    (hr : r ≠ .ok (0, .monostate)) : parse maxBulk (data ++ x) = r := by
  subst h
  cases hdata : data with
  | nil =>
    rw [hdata] at hr
    exact absurd rfl hr
  | cons c rest =>
    have happend : data ++ x = c :: (rest ++ x) := by
      rw [hdata]
      rfl
    rw [← hdata]
    by_cases hbulk : c = bulkMarker
    · subst hbulk
      rw [parse_bulk hdata] at hr ⊢
      rw [parse_bulk happend]
      by_cases hnone : parseBulkString data 0 maxBulk = .ok none
      · rw [hnone] at hr
        exact absurd rfl hr
      · rw [parseBulkString_append x rfl hnone]
    by_cases harray : c = arrayMarker
    · subst harray
      rcases cut_at_crlf rest with hno | ⟨header, tail, hno, rfl⟩
      · exact absurd (parse_endless hdata hno) hr
      · rw [List.append_assoc] at happend
        exact parse_array_append x hdata happend hno hr
    · rw [parse_unmarked hdata hbulk harray, parse_unmarked happend hbulk harray]

/-- The parser waits for the rest of a value. -/
theorem parse_part {v : Value maxBulk} (hpart : data <+: v.text) (hne : data ≠ v.text) :
    parse maxBulk data = .ok (0, .monostate) := by
  obtain ⟨x, hx⟩ := hpart
  by_contra hr
  have hparse := parse_append x rfl hr
  rw [hx, parse_of_text (List.prefix_refl v.text)] at hparse
  have hpos := v.length_text_pos
  have hlen := congrArg List.length hx
  rw [List.length_append] at hlen
  -- all of the value would be in the part
  obtain ⟨h0, -⟩ | ⟨-, hle, -⟩ := parse_ok_bounds hparse.symm
  · omega
  · obtain rfl := List.eq_nil_of_length_eq_zero (show x.length = 0 by omega)
    exact hne (by rw [← hx, List.append_nil])

end Stability

end Shine
