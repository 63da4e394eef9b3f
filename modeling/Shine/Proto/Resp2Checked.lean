import Shine.Proto.Resp2Grammar

/-!
# The reads of the RESP2 parser (`proto/resp2_parser.cpp`)

The parser once more, with every read, every view and every `size_t` operation checked. The
checks never fail on buffers of less than 2^62 bytes: a length that is taken from the input
is below 2^63, so its sum with an offset does not wrap, and it is compared with the size
before anything is read there.
-/

namespace Shine

open Resp2

/-- `a + b` of type `size_t`; none where it wraps. -/
def addSize (a b : Nat) : Option Nat := if a + b < 2 ^ 64 then some (a + b) else none

/-- `a - b` of type `size_t`; none where it wraps. -/
def subSize (a b : Nat) : Option Nat := if b ≤ a then some (a - b) else none

/-- The `string_view` of `len` bytes at `off`; none where it ends behind the data. -/
def viewAt (data : Bytes) (off len : Nat) : Option Bytes :=
  if off + len ≤ data.length then some (slice data off len) else none

/-- The loop of `findCrlf`, from `i` on. -/
def scanCrlf (data : Bytes) : Nat → Nat → Option (Option Nat)
  | 0, _ => none
  | fuel + 1, i => do
    let next ← addSize i 1
    if next < data.length then
      let c ← data[i]?
      if c = cr then
        let d ← data[next]?
        if d = lf then return some i
        else scanCrlf data fuel next
      else scanCrlf data fuel next
    else return none

/-- `findCrlf`. There are fewer rounds than bytes. -/
def findCrlfChecked (data : Bytes) (start : Nat) : Option (Option Nat) :=
  if data.length < 2 then some none else scanCrlf data (data.length + 1) start

/-- `parseBulkString`. -/
def parseBulkStringChecked (data : Bytes) (off maxBulk : Nat) :
    Option (StatusOr (Option BulkPos)) :=
  if off ≥ data.length then some (.ok none)
  else do
    let c ← data[off]?
    if c ≠ bulkMarker then
      return .error (.invalidArgument (ascii "expected '$' bulk marker"))
    else
      let start ← addSize off 1
      let found ← findCrlfChecked data start
      match found with
      | none => return .ok none
      | some hdrEnd =>
        let behind ← subSize hdrEnd off
        let hdrLen ← subSize behind 1
        let hdr ← viewAt data start hdrLen
        match parseInt64 hdr with
        | none => return .error (.invalidArgument (ascii "bad bulk length"))
        | some len =>
          if len < 0 then
            return .error (.invalidArgument (ascii "null bulk not supported"))
          else if len.toNat > maxBulk then
            return .error (.resourceExhausted (ascii "bulk length " ++ strDec len.toNat
              ++ ascii " exceeds max " ++ strDec maxBulk))
          else
            let bodyStart ← addSize hdrEnd 2
            let bodyEnd ← addSize bodyStart len.toNat
            let endOff ← addSize bodyEnd 2
            if endOff > data.length then return .ok none
            else
              let c ← data[bodyEnd]?
              if c ≠ cr then
                return .error (.invalidArgument (ascii "missing CRLF after bulk body"))
              else
                let next ← addSize bodyEnd 1
                let d ← data[next]?
                if d ≠ lf then
                  return .error (.invalidArgument (ascii "missing CRLF after bulk body"))
                else return .ok (some ⟨bodyStart, len.toNat, endOff⟩)

/-- The element loop of `tryParse`. -/
def parseElementsChecked (data : Bytes) (maxBulk : Nat) :
    Nat → Nat → List Bytes → Option (StatusOr (Option (Nat × List Bytes)))
  | 0, off, elements => some (.ok (some (off, elements)))
  | k + 1, off, elements => do
    let r ← parseBulkStringChecked data off maxBulk
    match r with
    | .error e => return .error e
    | .ok none => return .ok none
    | .ok (some p) =>
      let element ← viewAt data p.valueOff p.valueLen
      parseElementsChecked data maxBulk k p.endOff (elements ++ [element])

/-- `tryParse` on the readable bytes. -/
def parseChecked (maxBulk : Nat) (data : Bytes) : Option (StatusOr (Nat × Resp2Frame)) :=
  if data.length = 0 then some (.ok (0, .monostate))
  else do
    let type ← data[0]?
    if type = bulkMarker then
      let r ← parseBulkStringChecked data 0 maxBulk
      return r.map bulkFrame
    else if type = arrayMarker then
      let found ← findCrlfChecked data 1
      match found with
      | none => return .ok (0, .monostate)
      | some hdrEnd =>
        let hdrLen ← subSize hdrEnd 1
        let hdr ← viewAt data 1 hdrLen
        match parseInt64 hdr with
        | none => return .error (.invalidArgument (ascii "bad array length"))
        | some n =>
          if n < 0 ∨ n > 1024 then
            return .error (.invalidArgument (ascii "array length out of range"))
          else
            let off ← addSize hdrEnd 2
            let r ← parseElementsChecked data maxBulk n.toNat off []
            return r.map arrayFrame
    else
      return .error (.invalidArgument (ascii "unexpected RESP2 type byte 0x" ++ hexPad2 type))

/-- `Resp2Parser::tryParse(rb, out)`. -/
def tryParseChecked (maxBulk : Nat) (rb : ReadBuffer) : Option (StatusOr (Nat × Resp2Frame)) :=
  (parseChecked maxBulk rb.view).map fun r => r.map fun r => (r.1, r.2.rebase rb.head)

/-! ## The checks pass -/

section Checks

variable {a b : Nat} {data : Bytes} {off maxBulk : Nat}

theorem addSize_eq (h : a + b < 2 ^ 64) : addSize a b = some (a + b) := if_pos h

theorem subSize_eq (h : b ≤ a) : subSize a b = some (a - b) := if_pos h

theorem viewAt_eq {len : Nat} (h : off + len ≤ data.length) :
    viewAt data off len = some (slice data off len) := if_pos h

theorem parseInt64_lt {s : Bytes} {v : Int} (h : parseInt64 s = some v) : v < 2 ^ 63 := by
  have hrange := (Option.filter_eq_some_iff.mp h).2
  rw [Bool.and_eq_true, decide_eq_true_iff, decide_eq_true_iff] at hrange
  exact Int.lt_of_le_of_lt hrange.2 (by decide)

theorem findCrlf_short (h : data.length ≤ off + 1) : findCrlf data off = none := by
  cases hfind : findCrlf data off with
  | none => rfl
  | some i =>
    have hbounds := findCrlf_bounds hfind
    omega

/-- One round of the loop. -/
theorem findCrlf_round {c d : UInt8} {rest : Bytes} (h : data.drop off = c :: d :: rest) :
    findCrlf data off = if c = cr ∧ d = lf then some off else findCrlf data (off + 1) := by
  rw [findCrlf, findCrlf, drop_behind h, h, crlfAt]
  simp only [List.head?_cons, Option.some.injEq]
  split_ifs with hc
  · rfl
  · rw [Option.map_map]
    congr 1
    funext i
    simp only [Function.comp_apply]
    omega

theorem scanCrlf_eq (hsize : data.length < 2 ^ 62) {fuel i : Nat} (hfuel : data.length < fuel + i)
    (hi : i ≤ data.length) : scanCrlf data fuel i = some (findCrlf data i) := by
  induction fuel generalizing i with
  | zero => omega
  | succ fuel ih =>
    rw [scanCrlf, addSize_eq (by omega)]
    by_cases hnext : i + 1 < data.length
    · obtain ⟨c, d, rest, hdata⟩ : ∃ c d rest, data.drop i = c :: d :: rest :=
        ⟨_, _, _, by rw [List.drop_eq_getElem_cons (by omega), List.drop_eq_getElem_cons hnext]⟩
      have hc := getElem?_of_drop hdata
      have hd := getElem?_of_drop (drop_behind hdata)
      have hrest := ih (i := i + 1) (by omega) (by omega)
      rw [findCrlf_round hdata]
      simp only [Option.bind_eq_bind, Option.bind_some, if_pos hnext, hc, hd, hrest]
      by_cases hcr : c = cr
      · by_cases hlf : d = lf
        · rw [if_pos hcr, if_pos hlf, if_pos ⟨hcr, hlf⟩]
          rfl
        · rw [if_pos hcr, if_neg hlf, if_neg fun h => hlf h.2]
      · rw [if_neg hcr, if_neg fun h => hcr h.1]
    · rw [findCrlf_short (by omega)]
      exact if_neg hnext

theorem findCrlfChecked_eq (hsize : data.length < 2 ^ 62) (hoff : off ≤ data.length) :
    findCrlfChecked data off = some (findCrlf data off) := by
  by_cases htwo : data.length < 2
  · rw [findCrlfChecked, if_pos htwo, findCrlf_short (by omega)]
  · rw [findCrlfChecked, if_neg htwo, scanCrlf_eq hsize (by omega) hoff]

/-- The two bytes behind the body, read one after the other. -/
theorem readCrlf_eq {α : Type} {n : Nat} (h : n + 1 < data.length) (bad good : α) :
    (data[n]?.bind fun c => if c ≠ cr then some bad else
        data[n + 1]?.bind fun d => if d ≠ lf then some bad else some good)
      = some (if data[n]? ≠ some cr ∨ data[n + 1]? ≠ some lf then bad else good) := by
  rw [List.getElem?_eq_getElem (by omega), List.getElem?_eq_getElem h, Option.bind_some,
    Option.bind_some]
  simp only [ne_eq, Option.some.injEq]
  by_cases hcr : data[n] = cr
  · by_cases hlf : data[n + 1] = lf <;> simp [hcr, hlf]
  · simp [hcr]

theorem parseBulkStringChecked_eq (hsize : data.length < 2 ^ 62) :
    parseBulkStringChecked data off maxBulk = some (parseBulkString data off maxBulk) := by
  by_cases hoff : off ≥ data.length
  · rw [parseBulkStringChecked, if_pos hoff,
      parseBulkString_nil (List.drop_eq_nil_of_le hoff)]
  · rw [parseBulkStringChecked, if_neg hoff, parseBulkString,
      List.getElem?_eq_getElem (by omega), Option.bind_eq_bind, Option.bind_some,
      addSize_eq (by omega), Option.bind_eq_bind, Option.bind_some,
      findCrlfChecked_eq hsize (by omega)]
    by_cases hc : data[off] ≠ bulkMarker
    · simp only [if_pos hc]
      rfl
    · simp only [if_neg hc, Option.bind_eq_bind, Option.bind_some]
      cases hfind : findCrlf data (off + 1) with
      | none => rfl
      | some hdrEnd =>
        have hbounds := findCrlf_bounds hfind
        simp only [subSize_eq (show off ≤ hdrEnd by omega),
          subSize_eq (show 1 ≤ hdrEnd - off by omega),
          viewAt_eq (show off + 1 + (hdrEnd - off - 1) ≤ data.length by omega),
          Option.bind_some]
        cases hlen : parseInt64 (slice data (off + 1) (hdrEnd - off - 1)) with
        | none => rfl
        | some len =>
          have hlt := parseInt64_lt hlen
          simp only [addSize_eq (show hdrEnd + 2 < 2 ^ 64 by omega),
            addSize_eq (show hdrEnd + 2 + len.toNat < 2 ^ 64 by omega),
            addSize_eq (show hdrEnd + 2 + len.toNat + 2 < 2 ^ 64 by omega),
            addSize_eq (show hdrEnd + 2 + len.toNat + 1 < 2 ^ 64 by omega), Option.bind_some]
          by_cases hneg : len < 0
          · rw [if_pos hneg, if_pos hneg]
            rfl
          rw [if_neg hneg, if_neg hneg]
          by_cases hmax : len.toNat > maxBulk
          · rw [if_pos hmax, if_pos hmax]
            rfl
          rw [if_neg hmax, if_neg hmax]
          by_cases hshort : hdrEnd + 2 + len.toNat + 2 > data.length
          · rw [if_pos hshort, if_pos hshort]
            rfl
          rw [if_neg hshort, if_neg hshort]
          exact readCrlf_eq (by omega) _ _

theorem parseElementsChecked_eq (hsize : data.length < 2 ^ 62) (k : Nat) (acc : List Bytes) :
    parseElementsChecked data maxBulk k off acc = some (parseElements data maxBulk k off acc) := by
  induction k generalizing off acc with
  | zero => rfl
  | succ k ih =>
    rw [parseElementsChecked, parseElements, parseBulkStringChecked_eq hsize]
    cases hbulk : parseBulkString data off maxBulk with
    | error e => rfl
    | ok o =>
      cases o with
      | none => rfl
      | some p =>
        have hbounds := parseBulkString_bounds hbulk
        simp only [Option.bind_eq_bind, Option.bind_some,
          viewAt_eq (show p.valueOff + p.valueLen ≤ data.length by omega)]
        exact ih _

theorem parseChecked_eq (hsize : data.length < 2 ^ 62) :
    parseChecked maxBulk data = some (parse maxBulk data) := by
  cases hdata : data with
  | nil => rfl
  | cons type rest =>
    rw [← hdata, parseChecked, if_neg (by simp [hdata]),
      getElem?_of_drop (show data.drop 0 = type :: rest from hdata)]
    simp only [Option.bind_eq_bind, Option.bind_some]
    by_cases hbulk : type = bulkMarker
    · rw [if_pos hbulk, parseBulkStringChecked_eq hsize, parse_bulk (by rw [hdata, hbulk])]
      rfl
    rw [if_neg hbulk]
    by_cases harray : type = arrayMarker
    · rw [if_pos harray, findCrlfChecked_eq hsize (by simp [hdata])]
      rw [harray] at hdata
      rcases cut_at_crlf rest with hno | ⟨header, tail, hno, rfl⟩
      · rw [parse_endless hdata hno, findCrlf, drop_behind (show data.drop 0 = _ from hdata),
          crlfAt_none hno]
        rfl
      · have hlength := congrArg List.length hdata
        simp only [crlf, List.length_cons, List.length_append, List.length_nil] at hlength
        have hbehind : data.drop 1 = header ++ crlf ++ tail :=
          drop_behind (show data.drop 0 = _ from hdata)
        obtain ⟨hfind, hslice⟩ := findCrlf_header hbehind hno
        rw [hfind]
        simp only [Option.bind_some, subSize_eq (show 1 ≤ 1 + header.length by omega),
          Nat.add_sub_cancel_left, viewAt_eq (show 1 + header.length ≤ data.length by omega),
          hslice]
        cases hlen : parseInt64 header with
        | none =>
          rw [parse_unreadable hdata hno hlen]
          rfl
        | some n =>
          rw [parse_elements hdata hno hlen]
          dsimp only
          by_cases hrange : n < 0 ∨ n > 1024
          · rw [if_pos hrange, if_pos hrange]
            rfl
          · rw [if_neg hrange, if_neg hrange, addSize_eq (by omega), Option.bind_some,
              parseElementsChecked_eq hsize, Option.bind_some,
              show 1 + header.length + 2 = header.length + 3 by omega]
            rfl
    · rw [if_neg harray, parse_unmarked hdata hbulk harray]
      rfl

end Checks

section Exact

variable {maxBulk : Nat} {rb : ReadBuffer}

/-- A frame says the same in the vector as in the readable bytes. -/
theorem contents_rebase {n : Nat} {f : Resp2Frame} (h : parse maxBulk rb.view = .ok (n, f)) :
    (f.rebase rb.head).contents rb.buf = f.contents rb.view := by
  rcases parse_ok_bounds h with ⟨-, rfl⟩ | ⟨-, hn, ⟨off, len, rfl, hle⟩ | ⟨els, rfl⟩⟩
  · rfl
  · exact congrArg (some ∘ Sum.inl) (slice_view rb (by omega)).symm
  · rfl

theorem tryParse_eq_ok {n : Nat} {g : Resp2Frame} :
    tryParse maxBulk rb = .ok (n, g)
      ↔ ∃ f, parse maxBulk rb.view = .ok (n, f) ∧ f.rebase rb.head = g := by
  rw [tryParse]
  cases parse maxBulk rb.view with
  | error e => exact iff_of_false (by rintro ⟨⟩) (by rintro ⟨f, ⟨⟩, -⟩)
  | ok r =>
    simp only [Except.map, Except.ok.injEq, Prod.mk.injEq]
    constructor
    · rintro ⟨rfl, rfl⟩
      exact ⟨r.2, rfl, rfl⟩
    · rintro ⟨f, rfl, rfl⟩
      exact ⟨rfl, rfl⟩

theorem tryParse_value_iff {n : Nat} {c : Bytes ⊕ List Bytes} :
    (∃ g, tryParse maxBulk rb = .ok (n, g) ∧ 0 < n ∧ g.contents rb.buf = some c)
      ↔ ∃ f, parse maxBulk rb.view = .ok (n, f) ∧ 0 < n ∧ f.contents rb.view = some c := by
  constructor
  · rintro ⟨g, hg, hn, hc⟩
    obtain ⟨f, hf, rfl⟩ := tryParse_eq_ok.mp hg
    exact ⟨f, hf, hn, contents_rebase hf ▸ hc⟩
  · rintro ⟨f, hf, hn, hc⟩
    exact ⟨_, tryParse_eq_ok.mpr ⟨f, hf, rfl⟩, hn, (contents_rebase hf).trans hc⟩

theorem tryParse_le {n : Nat} {g : Resp2Frame} (h : tryParse maxBulk rb = .ok (n, g)) :
    n ≤ rb.view.length := by
  obtain ⟨f, hf, -⟩ := tryParse_eq_ok.mp h
  rcases parse_ok_bounds hf with ⟨rfl, -⟩ | ⟨-, hle, -⟩
  · exact Nat.zero_le _
  · exact hle

end Exact

/-- **The parser is exact**: it takes the values and says what is in them, it waits while there
is a part of one, and no read is outside the buffer and no size wraps. -/
theorem tryParse_exact (maxBulk : Nat) (rb : ReadBuffer) (hsize : rb.view.length < 2 ^ 62) :
    (∀ n c, (∃ f, tryParse maxBulk rb = .ok (n, f) ∧ 0 < n ∧ f.contents rb.buf = some c)
      ↔ ∃ v : Value maxBulk, rb.view.take n = v.text ∧ n ≤ rb.view.length ∧ v.contents = c) ∧
    (∀ v : Value maxBulk, rb.view <+: v.text → rb.view ≠ v.text →
      tryParse maxBulk rb = .ok (0, .monostate)) ∧
    (∀ n f, tryParse maxBulk rb = .ok (n, f) → n ≤ rb.view.length) ∧
    tryParseChecked maxBulk rb = some (tryParse maxBulk rb) := by
  refine ⟨fun n c => ?_, fun v hpart hne => ?_, fun n f => tryParse_le, ?_⟩
  · rw [tryParse_value_iff, parse_value_iff]
  · exact tryParse_eq_ok.mpr ⟨_, parse_part hpart hne, rfl⟩
  · rw [tryParseChecked, parseChecked_eq hsize]
    rfl

/-- A buffer with the bulk string `ab` behind a byte that was consumed. -/
def sampleBuffer : ReadBuffer :=
  ⟨42 :: ascii "$2" ++ crlf ++ ascii "ab" ++ crlf, 1, 9, by decide, by decide⟩

theorem tryParse_exact_ab :
    tryParse 16 sampleBuffer = .ok (8, .bulk 5 2) ∧
      ∃ v : Value 16, sampleBuffer.view.take 8 = v.text ∧ v.contents = .inl (ascii "ab") := by
  have hparse : tryParse 16 sampleBuffer = .ok (8, .bulk 5 2) := by decide
  obtain ⟨v, htext, -, hcontents⟩ := ((tryParse_exact 16 sampleBuffer (by decide)).1 8 _).mp
    ⟨_, hparse, by decide, rfl⟩
  exact ⟨hparse, v, htext, hcontents⟩

end Shine
