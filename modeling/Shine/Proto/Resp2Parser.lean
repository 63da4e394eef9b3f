import Shine.Core.Buffer

/-!
# The RESP2 parser (`proto/resp2_parser.cpp`)

`Resp2Parser::tryParse` looks at the readable part of a `ReadBuffer` and returns
`Ok(n > 0)` with one complete top-level value, `Ok(0)` when the value is
incomplete, or an error. Each attempt starts from scratch.

The file embeds the parser; what it makes of its input is the subject of
`Resp2Grammar`.
-/

namespace Shine

/-- `Resp2Frame`: `std::variant<std::monostate, Resp2BulkFrame, Resp2ArrayFrame>`.
A bulk frame is a view, so it is kept as the place of its bytes in memory; array
elements are copied out by the parser. -/
inductive Resp2Frame where
  | monostate
  | bulk (off len : Nat)
  | array (elements : List Bytes)
  deriving DecidableEq, Repr

/-- `len` bytes of `data` from `off` on. -/
def slice (data : Bytes) (off len : Nat) : Bytes := (data.drop off).take len

/-- Position of the first CRLF. -/
def crlfAt : Bytes → Option Nat
  | [] => none
  | c :: rest =>
    if c = cr ∧ rest.head? = some lf then some 0 else (crlfAt rest).map (· + 1)

/-- `findCrlf`: position of the first CRLF at or after `start`, `npos` as `none`. -/
def findCrlf (data : Bytes) (start : Nat) : Option Nat :=
  (crlfAt (data.drop start)).map (start + ·)

/-- `parseInt64`. -/
def parseInt64 (s : Bytes) : Option Int := simpleAtoi i64Min i64Max s

/-- What `parseBulkString` writes to its output arguments on success. -/
structure BulkPos where
  valueOff : Nat
  valueLen : Nat
  endOff : Nat
  deriving DecidableEq, Repr

/-- The byte `'$'`. -/
def bulkMarker : UInt8 := 36

/-- The byte `'*'`. -/
def arrayMarker : UInt8 := 42

/-- `parseBulkString`: one bulk string starting at `off`; `none` is the
`incomplete` flag. -/
def parseBulkString (data : Bytes) (off maxBulk : Nat) : StatusOr (Option BulkPos) :=
  match data[off]? with
  | none => .ok none
  | some c =>
    if c ≠ bulkMarker then
      .error (.invalidArgument (ascii "expected '$' bulk marker"))
    else
      match findCrlf data (off + 1) with
      | none => .ok none
      | some hdrEnd =>
        match parseInt64 (slice data (off + 1) (hdrEnd - off - 1)) with
        | none => .error (.invalidArgument (ascii "bad bulk length"))
        | some len =>
          if len < 0 then
            .error (.invalidArgument (ascii "null bulk not supported"))
          else if len.toNat > maxBulk then
            .error (.resourceExhausted (ascii "bulk length " ++ strDec len.toNat
              ++ ascii " exceeds max " ++ strDec maxBulk))
          else if hdrEnd + 2 + len.toNat + 2 > data.length then .ok none
          else if data[hdrEnd + 2 + len.toNat]? ≠ some cr
              ∨ data[hdrEnd + 2 + len.toNat + 1]? ≠ some lf then
            .error (.invalidArgument (ascii "missing CRLF after bulk body"))
          else
            .ok (some ⟨hdrEnd + 2, len.toNat, hdrEnd + 2 + len.toNat + 2⟩)

/-- The element loop of `tryParse`: `k` bulk strings from `off` on. -/
def parseElements (data : Bytes) (maxBulk : Nat) :
    Nat → Nat → List Bytes → StatusOr (Option (Nat × List Bytes))
  | 0, off, elements => .ok (some (off, elements))
  | k + 1, off, elements =>
    match parseBulkString data off maxBulk with
    | .error e => .error e
    | .ok none => .ok none
    | .ok (some p) =>
      parseElements data maxBulk k p.endOff
        (elements ++ [slice data p.valueOff p.valueLen])

/-- Two hexadecimal digits, as `absl::Hex(type, absl::kZeroPad2)` prints them. -/
def hexPad2 (b : UInt8) : Bytes :=
  (Nat.toDigits 16 (b.toNat / 16) ++ Nat.toDigits 16 (b.toNat % 16)).map
    fun c => c.toNat.toUInt8

/-- `tryParse` on the readable bytes. `Ok(0)` comes with an untouched frame; the
place of a bulk is relative to the first readable byte. -/
def parse (maxBulk : Nat) (data : Bytes) : StatusOr (Nat × Resp2Frame) :=
  match data[0]? with
  | none => .ok (0, .monostate)
  | some type =>
    if type = bulkMarker then
      match parseBulkString data 0 maxBulk with
      | .error e => .error e
      | .ok none => .ok (0, .monostate)
      | .ok (some p) => .ok (p.endOff, .bulk p.valueOff p.valueLen)
    else if type = arrayMarker then
      match findCrlf data 1 with
      | none => .ok (0, .monostate)
      | some hdrEnd =>
        match parseInt64 (slice data 1 (hdrEnd - 1)) with
        | none => .error (.invalidArgument (ascii "bad array length"))
        | some n =>
          if n < 0 ∨ n > 1024 then
            .error (.invalidArgument (ascii "array length out of range"))
          else
            match parseElements data maxBulk n.toNat (hdrEnd + 2) [] with
            | .error e => .error e
            | .ok none => .ok (0, .monostate)
            | .ok (some (off, elements)) => .ok (off, .array elements)
    else
      .error (.invalidArgument (ascii "unexpected RESP2 type byte 0x" ++ hexPad2 type))

/-- Turn the place of a bulk into one relative to `base`. -/
def Resp2Frame.rebase (base : Nat) : Resp2Frame → Resp2Frame
  | .bulk off len => .bulk (base + off) len
  | f => f

/-- `Resp2Parser::tryParse(rb, out)`; the place of a bulk is its offset in the
vector of `rb`, that is, the pointer `data + vo`. -/
def tryParse (maxBulk : Nat) (rb : ReadBuffer) : StatusOr (Nat × Resp2Frame) :=
  (parse maxBulk rb.view).map fun r => (r.1, r.2.rebase rb.head)

/-- What a parsed frame says, with a bulk read from the memory it points into. -/
def Resp2Frame.contents (mem : Bytes) : Resp2Frame → Option (Bytes ⊕ List Bytes)
  | .monostate => none
  | .bulk off len => some (.inl (slice mem off len))
  | .array elements => some (.inr elements)

/-- The readable bytes are those of the vector behind `head_`. -/
theorem slice_view (rb : ReadBuffer) {off len : Nat} (h : off + len ≤ rb.view.length) :
    slice rb.view off len = slice rb.buf (rb.head + off) len := by
  rw [ReadBuffer.length_view] at h
  rw [slice, slice, ReadBuffer.view, List.drop_take, List.drop_drop, List.take_take,
    Nat.min_eq_left (by omega)]

/-! ## Finding the header's CRLF -/

theorem crlfAt_le {b : Bytes} {i : Nat} (h : crlfAt b = some i) :
    i + 2 ≤ b.length := by
  induction b generalizing i with
  | nil => cases h
  | cons c rest ih =>
    rw [crlfAt] at h
    split_ifs at h with hc
    · cases rest with
      | nil => simp at hc
      | cons d r =>
        cases h
        simp
    · obtain ⟨j, hj, rfl⟩ := Option.map_eq_some_iff.mp h
      have := ih hj
      simp only [List.length_cons]
      omega

/-- A header ends at the CRLF behind it, even if its last byte is a carriage return. -/
theorem crlfAt_header (s x : Bytes) (h : ¬ crlf <:+: s) :
    crlfAt (s ++ crlf ++ x) = some s.length := by
  induction s with
  | nil => simp [crlf, crlfAt]
  | cons c rest ih =>
    have hrest : ¬ crlf <:+: rest := fun hin => h (List.infix_cons_iff.mpr (Or.inr hin))
    have hc : ¬ (c = cr ∧ (rest ++ crlf ++ x).head? = some lf) := by
      rintro ⟨rfl, hhead⟩
      cases rest with
      | nil => cases hhead
      | cons d r =>
        obtain rfl := Option.some.inj hhead
        exact h ⟨[], r, rfl⟩
    rw [List.cons_append, List.cons_append, crlfAt, if_neg hc, ih hrest]
    rfl

theorem crlfAt_none {b : Bytes} (h : ¬ crlf <:+: b) : crlfAt b = none := by
  induction b with
  | nil => rfl
  | cons c rest ih =>
    have hc : ¬ (c = cr ∧ rest.head? = some lf) := by
      rintro ⟨rfl, hhead⟩
      obtain ⟨r, rfl⟩ := List.head?_eq_some_iff.mp hhead
      exact h ⟨[], r, rfl⟩
    rw [crlfAt, if_neg hc, ih fun hin => h (List.infix_cons_iff.mpr (Or.inr hin))]
    rfl

/-- Bytes with a CRLF in them start with a header. -/
theorem cut_at_crlf (b : Bytes) :
    ¬ crlf <:+: b ∨ ∃ s x, ¬ crlf <:+: s ∧ b = s ++ crlf ++ x := by
  induction b with
  | nil => exact Or.inl (by simp [crlf])
  | cons c rest ih =>
    by_cases hc : crlf <+: c :: rest
    · obtain ⟨x, hx⟩ := hc
      exact Or.inr ⟨[], x, by simp [crlf], hx.symm⟩
    · rcases ih with hno | ⟨s, x, hno, rfl⟩
      · exact Or.inl fun hin => (List.infix_cons_iff.mp hin).elim hc hno
      · refine Or.inr ⟨c :: s, x, fun hin => ?_, rfl⟩
        refine (List.infix_cons_iff.mp hin).elim (fun hpre => hc ?_) hno
        rw [List.append_assoc, ← List.cons_append]
        exact hpre.trans (List.prefix_append _ _)

theorem findCrlf_bounds {data : Bytes} {start i : Nat} (h : findCrlf data start = some i) :
    start ≤ i ∧ i + 2 ≤ data.length := by
  obtain ⟨j, hj, rfl⟩ := Option.map_eq_some_iff.mp h
  have := crlfAt_le hj
  rw [List.length_drop] at this
  omega

theorem slice_append {data : Bytes} {off len : Nat} (x : Bytes)
    (h : off + len ≤ data.length) : slice (data ++ x) off len = slice data off len := by
  rw [slice, List.drop_append_of_le_length (by omega), List.take_append_of_le_length]
  · rfl
  · rw [List.length_drop]
    omega

end Shine
