import Shine.Proto.Resp2Parser

/-!
# Target addresses (`transport/address.cpp`)

`Address` is a target — IPv4, IPv6 or a domain name — with a port, and its binary
form `<type:1B> <len:1B> <bytes:len> <port:2B BE>` travels in NEW and UDP_DATA
frames.
-/

namespace Shine

/-- `std::array<u8, n>`. -/
abbrev ByteArrayN (n : Nat) := { b : Bytes // b.length = n }

instance (n : Nat) : DecidableEq (ByteArrayN n) := inferInstanceAs (DecidableEq (Subtype _))

/-- `class Address`: the fields that its type makes meaningful. -/
inductive Address where
  | ipv4 (bytes : ByteArrayN 4) (port : UInt16)
  | ipv6 (bytes : ByteArrayN 16) (port : UInt16)
  | domain (name : Bytes) (port : UInt16)
  deriving DecidableEq

namespace Address

/-- `Address()`: a domain address without a name. -/
def default : Address := .domain [] 0

instance : Inhabited Address := ⟨default⟩

/-- Port bytes, big endian. -/
def portBytes (port : UInt16) : Bytes := [(port >>> 8).toUInt8, (port &&& 0xff).toUInt8]

/-- `Address::toBinary`; a domain longer than 255 bytes is cut. -/
def toBinary : Address → Bytes
  | .ipv4 bytes port => [1, 4] ++ bytes.1 ++ portBytes port
  | .ipv6 bytes port => [2, 16] ++ bytes.1 ++ portBytes port
  | .domain name port =>
    [3, (min name.length 255).toUInt8] ++ name.take (min name.length 255) ++ portBytes port

/-- The port two bytes denote. -/
def portOf (hi lo : UInt8) : UInt16 := (hi.toUInt16 <<< 8) ||| lo.toUInt16

/-- `(buf[off] << 8) | buf[off+1]`. -/
def portAt (buf : Bytes) (off : Nat) : UInt16 := portOf (buf.getD off 0) (buf.getD (off + 1) 0)

/-- The `n` bytes at `off` as an array; what is missing is zero. -/
def arrayAt (buf : Bytes) (off n : Nat) : ByteArrayN n :=
  ⟨(List.range n).map fun i => buf.getD (off + i) 0, by simp⟩

@[simp] theorem length_portBytes (port : UInt16) : (portBytes port).length = 2 := rfl

theorem toNat_port_hi (port : UInt16) : (port >>> 8).toUInt8.toNat = port.toNat / 256 := by
  have hlt : port.toNat < 65536 := port.toNat_lt
  rw [UInt16.toNat_toUInt8, UInt16.toNat_shiftRight, Nat.shiftRight_eq_div_pow]
  show port.toNat / 256 % 256 = _
  omega

theorem toNat_port_lo (port : UInt16) : (port &&& 0xff).toUInt8.toNat = port.toNat % 256 := by
  rw [UInt16.toNat_toUInt8, UInt16.toNat_and]
  show (port.toNat &&& (2 ^ 8 - 1)) % 256 = _
  rw [Nat.and_two_pow_sub_one_eq_mod]
  omega

theorem toNat_portOf (hi lo : UInt8) : (portOf hi lo).toNat = 256 * hi.toNat + lo.toNat := by
  have hhi : hi.toNat < 256 := hi.toNat_lt
  have hlo : lo.toNat < 2 ^ 8 := lo.toNat_lt
  have hshift : (hi.toUInt16 <<< 8).toNat = hi.toNat <<< 8 := by
    rw [UInt16.toNat_shiftLeft, UInt8.toNat_toUInt16]
    show (hi.toNat <<< 8) % 65536 = _
    rw [Nat.shiftLeft_eq]
    omega
  rw [portOf, UInt16.toNat_or, hshift, UInt8.toNat_toUInt16,
    ← Nat.shiftLeft_add_eq_or_of_lt hlo, Nat.shiftLeft_eq]
  omega

/-- The two bytes of a port denote it again. -/
@[simp] theorem portOf_portBytes (port : UInt16) :
    portOf (port >>> 8).toUInt8 (port &&& 0xff).toUInt8 = port := by
  apply UInt16.toNat_inj.mp
  rw [toNat_portOf, toNat_port_hi, toNat_port_lo]
  omega

/-- The port behind a field of a buffer. -/
theorem portAt_append (body rest : Bytes) (port : UInt16) :
    portAt (body ++ (portBytes port ++ rest)) body.length = port := by
  rw [portAt, List.getD_append_right _ _ _ _ (Nat.le_refl _),
    List.getD_append_right _ _ _ _ (Nat.le_add_right _ 1), Nat.sub_self, Nat.add_sub_cancel_left]
  exact portOf_portBytes port

/-- An array at the start of a buffer. -/
theorem arrayAt_append {n : Nat} (bytes : ByteArrayN n) (rest : Bytes) :
    arrayAt (bytes.1 ++ rest) 0 n = bytes := by
  obtain ⟨bytes, rfl⟩ := bytes
  apply Subtype.ext
  apply List.ext_getElem
  · simp [arrayAt]
  · intro i _ hi
    simp only [arrayAt, List.getElem_map, List.getElem_range, Nat.zero_add]
    rw [List.getD_append _ _ _ _ hi, List.getD_eq_getElem]

/-- `Address::parseBinary`. -/
def parseBinary (blob : Bytes) : StatusOr Address :=
  if blob.length < 4 then .error (.invalidArgument (ascii "addr blob too short"))
  else
    let t := blob.getD 0 0
    let len := (blob.getD 1 0).toNat
    if blob.length < 2 + len + 2 then
      .error (.invalidArgument (ascii "addr blob truncated"))
    else
      let port := portOf (blob.getD (2 + len) 0) (blob.getD (2 + len + 1) 0)
      if t = 1 then
        if h : len = 4 ∧ (slice blob 2 4).length = 4 then
          .ok (.ipv4 ⟨slice blob 2 4, h.2⟩ port)
        else .error (.invalidArgument (ascii "bad ipv4 len"))
      else if t = 2 then
        if h : len = 16 ∧ (slice blob 2 16).length = 16 then
          .ok (.ipv6 ⟨slice blob 2 16, h.2⟩ port)
        else .error (.invalidArgument (ascii "bad ipv6 len"))
      else if t = 3 then
        if len = 0 then .error (.invalidArgument (ascii "empty domain"))
        else .ok (.domain (slice blob 2 len) port)
      else .error (.invalidArgument (ascii "unknown addr type"))

/-! ## The binary form is read back -/

theorem toNat_length_toUInt8 {n : Nat} (h : n ≤ 255) : n.toUInt8.toNat = n := by
  simp only [Nat.toUInt8, UInt8.toNat_ofNat']
  omega

section Layout

variable (t : UInt8) (body : Bytes) (port : UInt16) (rest : Bytes)

/-- What the three forms have in common. -/
def layout : Bytes := [t, body.length.toUInt8] ++ body ++ portBytes port

/-- What `parseBinary` makes of the parts. -/
def ofParts : StatusOr Address :=
  if t = 1 then
    if h : body.length = 4 then .ok (.ipv4 ⟨body, h⟩ port)
    else .error (.invalidArgument (ascii "bad ipv4 len"))
  else if t = 2 then
    if h : body.length = 16 then .ok (.ipv6 ⟨body, h⟩ port)
    else .error (.invalidArgument (ascii "bad ipv6 len"))
  else if t = 3 then
    if body.length = 0 then .error (.invalidArgument (ascii "empty domain"))
    else .ok (.domain body port)
  else .error (.invalidArgument (ascii "unknown addr type"))

theorem layout_append :
    layout t body port ++ rest = t :: body.length.toUInt8 :: (body ++ (portBytes port ++ rest)) := by
  simp [layout]

theorem getElem?_layout_port (k : Nat) :
    (layout t body port ++ rest)[2 + body.length + k]? = (portBytes port ++ rest)[k]? := by
  have hoff : 2 + body.length + k = body.length + k + 1 + 1 := by omega
  rw [layout_append, hoff, List.getElem?_cons_succ, List.getElem?_cons_succ,
    List.getElem?_append_right (Nat.le_add_right _ _), Nat.add_sub_cancel_left]

theorem slice_layout : slice (layout t body port ++ rest) 2 body.length = body := by
  rw [slice, layout_append]
  exact List.take_left

theorem length_layout :
    (layout t body port ++ rest).length = 2 + body.length + 2 + rest.length := by
  simp only [layout, List.length_append, List.length_cons, List.length_nil, length_portBytes]

/-- `parseBinary` takes a form apart as it was put together, whatever follows it. -/
theorem parseBinary_layout (h : body.length ≤ 255) :
    parseBinary (layout t body port ++ rest) = ofParts t body port := by
  have htype : (layout t body port ++ rest).getD 0 0 = t := rfl
  have hcount : ((layout t body port ++ rest).getD 1 0).toNat = body.length :=
    toNat_length_toUInt8 h
  have hhi : (layout t body port ++ rest).getD (2 + body.length) 0 = (port >>> 8).toUInt8 := by
    rw [List.getD_eq_getElem?_getD, ← Nat.add_zero (2 + body.length), getElem?_layout_port]
    rfl
  have hlo : (layout t body port ++ rest).getD (2 + body.length + 1) 0
      = (port &&& 0xff).toUInt8 := by
    rw [List.getD_eq_getElem?_getD, getElem?_layout_port]
    rfl
  have hbody := slice_layout t body port rest
  have hlen := length_layout t body port rest
  rw [parseBinary, ofParts, if_neg (by omega)]
  simp only [htype, hcount, hhi, hlo, portOf_portBytes]
  rw [if_neg (by omega)]
  by_cases h4 : body.length = 4
  · rw [h4] at hbody
    simp [h4, hbody]
  · by_cases h16 : body.length = 16
    · rw [h16] at hbody
      simp [h16, hbody]
    · simp [h4, h16, hbody]

end Layout

/-- The length of a domain name fits its byte, and there is one. -/
def Named : Address → Prop
  | .domain name _ => 1 ≤ name.length ∧ name.length ≤ 255
  | _ => True

instance : DecidablePred Named := fun a =>
  match a with
  | .domain _ _ => inferInstanceAs (Decidable (_ ∧ _))
  | .ipv4 _ _ => .isTrue trivial
  | .ipv6 _ _ => .isTrue trivial

/-- What `toBinary` writes is one of the forms. -/
theorem toBinary_ipv4 (bytes : ByteArrayN 4) (port : UInt16) :
    toBinary (.ipv4 bytes port) = layout 1 bytes.1 port := by
  simp only [toBinary, layout, bytes.2]
  rfl

theorem toBinary_ipv6 (bytes : ByteArrayN 16) (port : UInt16) :
    toBinary (.ipv6 bytes port) = layout 2 bytes.1 port := by
  simp only [toBinary, layout, bytes.2]
  rfl

theorem toBinary_domain {name : Bytes} (port : UInt16) (h : name.length ≤ 255) :
    toBinary (.domain name port) = layout 3 name port := by
  simp only [toBinary, layout, Nat.min_eq_left h, List.take_length]

/-- What `toBinary` writes, `parseBinary` reads back. -/
theorem parseBinary_toBinary {a : Address} (h : a.Named) :
    parseBinary a.toBinary = .ok a := by
  rw [← List.append_nil a.toBinary]
  cases a with
  | ipv4 bytes port =>
    have hlen : bytes.1.length ≤ 255 := by rw [bytes.2]; decide
    rw [toBinary_ipv4, parseBinary_layout _ _ _ _ hlen, ofParts, if_pos rfl, dif_pos bytes.2]
  | ipv6 bytes port =>
    have hlen : bytes.1.length ≤ 255 := by rw [bytes.2]; decide
    rw [toBinary_ipv6, parseBinary_layout _ _ _ _ hlen, ofParts, if_neg (by decide), if_pos rfl,
      dif_pos bytes.2]
  | domain name port =>
    rw [toBinary_domain port h.2, parseBinary_layout _ _ _ _ h.2, ofParts, if_neg (by decide),
      if_neg (by decide), if_pos rfl, if_neg (by have := h.1; omega)]

end Address

end Shine
