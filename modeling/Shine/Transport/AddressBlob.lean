import Shine.Transport.Address

/-!
# The address blob (`transport/address.cpp`)

`Address::parseBinary` checks the announced length once and then reads at offsets that
depend on it. `parseBinaryChecked` is the same function with every read checked;
`parseBinary_exact` says that no read is refused, which blobs are accepted, and that an
accepted blob starts with the bytes that `toBinary` writes for the result.
-/

namespace Shine

namespace Address

/-- The types, each with the lengths that it may have. -/
def TypeLen (t : UInt8) (len : Nat) : Prop :=
  t = 1 ∧ len = 4 ∨ t = 2 ∧ len = 16 ∨ t = 3 ∧ 1 ≤ len ∧ len ≤ 255

/-- `<type:1B> <len:1B> <bytes:len> <port:2B>`, with anything behind it. -/
def StartsWithBlob (b : Bytes) : Prop :=
  ∃ t body port, TypeLen t body.length ∧ layout t body port <+: b

/-- `memcpy` of `n` bytes at `off`; none where that runs past the end. -/
def copyAt (blob : Bytes) (off n : Nat) : Option (ByteArrayN n) :=
  if h : (slice blob off n).length = n then some ⟨slice blob off n, h⟩ else none

/-- `Address::parseBinary`; none where it would read past the end of the blob. -/
def parseBinaryChecked (blob : Bytes) : Option (StatusOr Address) :=
  if blob.length < 4 then some (.error (.invalidArgument (ascii "addr blob too short")))
  else do
    let t ← blob[0]?
    let len := (← blob[1]?).toNat
    if blob.length < 2 + len + 2 then
      return .error (.invalidArgument (ascii "addr blob truncated"))
    else
      let hi ← blob[2 + len]?
      let lo ← blob[2 + len + 1]?
      let port := portOf hi lo
      if t = 1 then
        if len ≠ 4 then return .error (.invalidArgument (ascii "bad ipv4 len"))
        else
          let bytes ← copyAt blob 2 4
          return .ok (.ipv4 bytes port)
      else if t = 2 then
        if len ≠ 16 then return .error (.invalidArgument (ascii "bad ipv6 len"))
        else
          let bytes ← copyAt blob 2 16
          return .ok (.ipv6 bytes port)
      else if t = 3 then
        if len = 0 then return .error (.invalidArgument (ascii "empty domain"))
        else
          let d ← copyAt blob 2 len
          return .ok (.domain d.1 port)
      else return .error (.invalidArgument (ascii "unknown addr type"))

/-! ## Blobs that are long enough -/

theorem portBytes_portOf (hi lo : UInt8) : portBytes (portOf hi lo) = [hi, lo] := by
  have hlt : lo.toNat < 256 := lo.toNat_lt
  have hhi : ((portOf hi lo) >>> 8).toUInt8 = hi := by
    apply UInt8.toNat_inj.mp
    rw [toNat_port_hi, toNat_portOf]
    omega
  have hlo : ((portOf hi lo) &&& 0xff).toUInt8 = lo := by
    apply UInt8.toNat_inj.mp
    rw [toNat_port_lo, toNat_portOf]
    omega
  rw [portBytes, hhi, hlo]

theorem exists_cons_cons {l : Bytes} (h : 2 ≤ l.length) : ∃ x y tail, l = x :: y :: tail := by
  cases l with
  | nil => simp at h
  | cons x l =>
    cases l with
    | nil => simp at h
    | cons y tail => exact ⟨x, y, tail, rfl⟩

/-- A blob that passes both length checks is one of the forms, with something behind it. -/
theorem exists_layout {b : Bytes} (hfour : ¬ b.length < 4)
    (hlong : ¬ b.length < 2 + (b.getD 1 0).toNat + 2) :
    ∃ t body port rest, body.length ≤ 255 ∧ b = layout t body port ++ rest := by
  obtain ⟨t, len, tail, rfl⟩ := exists_cons_cons (l := b) (by omega)
  have hlt : len.toNat < 256 := len.toNat_lt
  have htail : len.toNat + 2 ≤ tail.length := by
    simp only [List.length_cons, List.getD_cons_succ, List.getD_cons_zero] at hlong
    omega
  have hbody : (tail.take len.toNat).length = len.toNat := by
    rw [List.length_take]
    omega
  -- the port is there as well
  obtain ⟨hi, lo, rest, hport⟩ := exists_cons_cons (l := tail.drop len.toNat) (by
    rw [List.length_drop]
    omega)
  refine ⟨t, tail.take len.toNat, portOf hi lo, rest, by omega, ?_⟩
  rw [layout_append, hbody, portBytes_portOf, Nat.toUInt8, UInt8.ofNat_toNat]
  show t :: len :: tail = t :: len :: (tail.take len.toNat ++ (hi :: lo :: rest))
  rw [← hport, List.take_append_drop]

section Parts

variable {t : UInt8} {body : Bytes} (port : UInt16) {a : Address}

/-- The parts make an address exactly if the type may have the length. -/
theorem ofParts_ok_iff (hlen : body.length ≤ 255) :
    (∃ a, ofParts t body port = .ok a) ↔ TypeLen t body.length := by
  unfold ofParts TypeLen
  constructor
  · rintro ⟨a, ha⟩
    split_ifs at ha with h1 h4 h2 h16 h3 h0
    · exact .inl ⟨h1, h4⟩
    · exact .inr (.inl ⟨h2, h16⟩)
    · exact .inr (.inr ⟨h3, by omega, hlen⟩)
  · rintro (⟨rfl, h4⟩ | ⟨rfl, h16⟩ | ⟨rfl, hpos, _⟩)
    · rw [if_pos rfl, dif_pos h4]
      exact ⟨_, rfl⟩
    · rw [if_neg (by decide), if_pos rfl, dif_pos h16]
      exact ⟨_, rfl⟩
    · rw [if_neg (by decide), if_neg (by decide), if_pos rfl, if_neg (by omega)]
      exact ⟨_, rfl⟩

/-- `toBinary` puts them together again. -/
theorem toBinary_of_ofParts (hlen : body.length ≤ 255) (h : ofParts t body port = .ok a) :
    a.toBinary = layout t body port := by
  unfold ofParts at h
  split_ifs at h with h1 h4 h2 h16 h3 h0
  · cases h
    rw [h1, toBinary_ipv4]
  · cases h
    rw [h2, toBinary_ipv6]
  · cases h
    rw [h3, toBinary_domain port hlen]

theorem copyAt_layout (rest : Bytes) {n : Nat} (h : body.length = n) :
    copyAt (layout t body port ++ rest) 2 n = some ⟨body, h⟩ := by
  subst h
  simp only [copyAt, slice_layout, dif_pos]

/-- Every read stays inside the blob. -/
theorem parseBinaryChecked_layout (rest : Bytes) (hlen : body.length ≤ 255) :
    parseBinaryChecked (layout t body port ++ rest) = some (ofParts t body port) := by
  have htype : (layout t body port ++ rest)[0]? = some t := rfl
  have hcount : (layout t body port ++ rest)[1]? = some body.length.toUInt8 := rfl
  have hhi : (layout t body port ++ rest)[2 + body.length]? = some (port >>> 8).toUInt8 := by
    rw [← Nat.add_zero (2 + body.length), getElem?_layout_port]
    rfl
  have hlo : (layout t body port ++ rest)[2 + body.length + 1]?
      = some (port &&& 0xff).toUInt8 := by
    rw [getElem?_layout_port]
    rfl
  have hlength := length_layout t body port rest
  rw [parseBinaryChecked, ofParts, if_neg (by omega)]
  simp only [htype, hcount, Option.bind_eq_bind, Option.bind_some, toNat_length_toUInt8 hlen]
  rw [if_neg (by omega)]
  simp only [hhi, hlo, Option.bind_some, portOf_portBytes]
  by_cases h1 : t = 1
  · rw [if_pos h1, if_pos h1]
    by_cases h4 : body.length = 4
    · rw [if_neg (not_not_intro h4), dif_pos h4, copyAt_layout port rest h4]
      rfl
    · rw [if_pos h4, dif_neg h4]
      rfl
  · rw [if_neg h1, if_neg h1]
    by_cases h2 : t = 2
    · rw [if_pos h2, if_pos h2]
      by_cases h16 : body.length = 16
      · rw [if_neg (not_not_intro h16), dif_pos h16, copyAt_layout port rest h16]
        rfl
      · rw [if_pos h16, dif_neg h16]
        rfl
    · rw [if_neg h2, if_neg h2]
      by_cases h3 : t = 3
      · rw [if_pos h3, if_pos h3]
        by_cases h0 : body.length = 0
        · rw [if_pos h0, if_pos h0]
          rfl
        · rw [if_neg h0, if_neg h0, copyAt_layout port rest (toNat_length_toUInt8 hlen).symm]
          rfl
      · rw [if_neg h3, if_neg h3]
        rfl

end Parts

/-! ## All blobs -/

/-- The blob ends before its port does. -/
def Truncated (b : Bytes) : Prop := b.length < 4 ∨ b.length < 2 + (b.getD 1 0).toNat + 2

theorem parseBinary_truncated {b : Bytes} (h : Truncated b) :
    ∃ e, parseBinary b = .error e ∧ parseBinaryChecked b = some (.error e) := by
  unfold parseBinary parseBinaryChecked
  by_cases hfour : b.length < 4
  · rw [if_pos hfour, if_pos hfour]
    exact ⟨_, rfl, rfl⟩
  · obtain ⟨t, len, tail, rfl⟩ := exists_cons_cons (l := b) (by omega)
    have hlong := h.resolve_left hfour
    rw [if_neg hfour, if_neg hfour]
    simp only [List.getElem?_cons_zero, List.getElem?_cons_succ, Option.bind_eq_bind,
      Option.bind_some]
    rw [if_pos hlong]
    exact ⟨_, rfl, if_pos hlong⟩

/-- A blob with one of the forms in front is not truncated. -/
theorem StartsWithBlob.not_truncated {b : Bytes} (h : StartsWithBlob b) : ¬ Truncated b := by
  obtain ⟨t, body, port, htype, rest, rfl⟩ := h
  have hlen : body.length ≤ 255 := by
    unfold TypeLen at htype
    omega
  have hcount : ((layout t body port ++ rest).getD 1 0).toNat = body.length :=
    toNat_length_toUInt8 hlen
  rw [Truncated, hcount, length_layout]
  omega

/-- Its form can be read off. -/
theorem startsWithBlob_layout_iff {t : UInt8} {body : Bytes} {port : UInt16} {rest : Bytes}
    (hlen : body.length ≤ 255) :
    StartsWithBlob (layout t body port ++ rest) ↔ TypeLen t body.length := by
  constructor
  · rintro ⟨t', body', port', htype, rest', heq⟩
    have hlen' : body'.length ≤ 255 := by
      unfold TypeLen at htype
      omega
    rw [layout_append, layout_append] at heq
    injection heq with ht heq
    injection heq with hcount _
    have hbody := congrArg UInt8.toNat hcount
    rw [toNat_length_toUInt8 hlen, toNat_length_toUInt8 hlen'] at hbody
    rwa [← ht, ← hbody]
  · intro htype
    exact ⟨t, body, port, htype, List.prefix_append _ _⟩

/-- **`parseBinary` is exact**: it reads nothing past the end of the blob, it accepts
the blobs that start with one of the forms, and these are what `toBinary` writes. -/
theorem parseBinary_exact (b : Bytes) :
    parseBinaryChecked b = some (parseBinary b)
      ∧ ((∃ a, parseBinary b = .ok a) ↔ StartsWithBlob b)
      ∧ ∀ a, parseBinary b = .ok a → a.toBinary = b.take (4 + (b.getD 1 0).toNat) := by
  by_cases htrunc : Truncated b
  · obtain ⟨e, herr, hchecked⟩ := parseBinary_truncated htrunc
    rw [hchecked, herr]
    refine ⟨rfl, ⟨?_, ?_⟩, ?_⟩
    · rintro ⟨a, ha⟩
      cases ha
    · intro hblob
      exact absurd htrunc hblob.not_truncated
    · intro a ha
      cases ha
  · obtain ⟨hfour, hlong⟩ := not_or.mp htrunc
    obtain ⟨t, body, port, rest, hlen, rfl⟩ := exists_layout hfour hlong
    have hcount : ((layout t body port ++ rest).getD 1 0).toNat = body.length :=
      toNat_length_toUInt8 hlen
    have hsize : (layout t body port).length = 4 + body.length := by
      have hall := length_layout t body port []
      rw [List.append_nil, List.length_nil] at hall
      omega
    rw [parseBinaryChecked_layout port rest hlen, parseBinary_layout t body port rest hlen, hcount,
      ← hsize, List.take_left, ofParts_ok_iff port hlen, startsWithBlob_layout_iff hlen]
    exact ⟨rfl, Iff.rfl, fun a ha => toBinary_of_ofParts port hlen ha⟩

/-- What `parseBinary` returns can be encoded. -/
theorem parseBinary_named {b : Bytes} {a : Address} (h : parseBinary b = .ok a) : a.Named := by
  by_cases htrunc : Truncated b
  · obtain ⟨e, herr, _⟩ := parseBinary_truncated htrunc
    rw [herr] at h
    cases h
  · obtain ⟨hfour, hlong⟩ := not_or.mp htrunc
    obtain ⟨t, body, port, rest, hlen, rfl⟩ := exists_layout hfour hlong
    rw [parseBinary_layout t body port rest hlen] at h
    unfold ofParts at h
    split_ifs at h with h1 h4 h2 h16 h3 h0
    · cases h
      trivial
    · cases h
      trivial
    · cases h
      exact ⟨by omega, hlen⟩

/-- **An address survives its blob exactly if the length of its name fits the length
byte and is not zero.** -/
theorem parseBinary_toBinary_iff (a : Address) : parseBinary a.toBinary = .ok a ↔ a.Named :=
  ⟨parseBinary_named, parseBinary_toBinary⟩

end Address

end Shine
