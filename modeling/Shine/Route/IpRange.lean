import Shine.Lib.Words
import Shine.Transport.Endpoint

/-!
# Address ranges (`route/router.cpp`)

`IpRange` is a network in CIDR notation and `contains` compares addresses with it byte by
byte, the last byte through a mask. `bitsEqual_iff` gives the comparison its meaning: the
numbers that the bytes denote agree in their first bits.
-/

namespace Shine

open Address (arrayAt atoiInt)

/-- `ip::address`. -/
inductive IpAddr where
  | v4 (bytes : ByteArrayN 4)
  | v6 (bytes : ByteArrayN 16)
  deriving DecidableEq

namespace Address

/-- `bytes()`: an array of 16 bytes, of which an IPv4 address uses the first four. -/
def bytes : Address → ByteArrayN 16
  | .ipv4 bytes _ => arrayAt bytes.1 0 16
  | .ipv6 bytes _ => bytes
  | .domain _ _ => arrayAt [] 0 16

/-- `type() == Type::IPv6`. -/
def isV6 : Address → Bool
  | .ipv6 _ _ => true
  | _ => false

/-- `isDomain()`. -/
def isDomain : Address → Bool
  | .domain _ _ => true
  | _ => false

/-- `isIP()`. -/
def isIP (a : Address) : Bool := !a.isDomain

end Address

/-- `bitsEqual`: `memcmp` of the full bytes, then the rest of the bits through a mask. -/
def bitsEqual (a b : Bytes) (prefixLen : UInt8) : Bool :=
  let full := prefixLen.toNat / 8
  let rem := prefixLen.toNat % 8
  if a.take full ≠ b.take full then false
  else if rem = 0 then true
  else
    let mask : UInt8 := 0xFF <<< (8 - rem).toUInt8
    (a.getD full 0 ^^^ b.getD full 0) &&& mask = 0

/-- `IpRange`. -/
structure IpRange where
  net : ByteArrayN 16
  prefixLen : UInt8
  isV6 : Bool
  deriving DecidableEq

/-- `IpRange::contains`. -/
def IpRange.contains (r : IpRange) (addr : Bytes) (v6 : Bool) : Bool :=
  if v6 ≠ r.isV6 then false else bitsEqual r.net.1 addr r.prefixLen

/-- `parseCidr`; `makeAddress` is `ip::make_address`. -/
def parseCidr (makeAddress : Bytes → Option IpAddr) (s : Bytes) : StatusOr IpRange := do
  let host := s.takeWhile (· ≠ 47)
  let prefixLen : Int ←
    match s.dropWhile (· ≠ 47) with
    | [] => .ok (-1)
    | _ :: text =>
      match atoiInt text with
      | some v => .ok v
      | none => .error (.invalidArgument (ascii "bad cidr prefix"))
  match makeAddress host with
  | none => .error (.invalidArgument (ascii "bad ip: " ++ host))
  | some (.v4 bytes) =>
    let len : UInt8 := if prefixLen < 0 then 32 else prefixLen.toNat.toUInt8
    if len > 32 then .error (.invalidArgument (ascii "ipv4 prefix > 32"))
    else .ok ⟨arrayAt bytes.1 0 16, len, false⟩
  | some (.v6 bytes) =>
    let len : UInt8 := if prefixLen < 0 then 128 else prefixLen.toNat.toUInt8
    if len > 128 then .error (.invalidArgument (ascii "ipv6 prefix > 128"))
    else .ok ⟨bytes, len, true⟩

/-! ## The bits that are compared -/

theorem mask_eq {s : Nat} (hs : s < 8) : ((0xFF : UInt8) <<< s.toUInt8).toBitVec
    = BitVec.allOnes 8 <<< s := by
  interval_cases s <;> rfl

/-- Through the mask a difference shows in the high bits only. -/
theorem xor_and_mask_eq_zero_iff {s : Nat} (hs : s < 8) (x y : UInt8) :
    (x ^^^ y) &&& ((0xFF : UInt8) <<< s.toUInt8) = 0 ↔ x.toNat / 2 ^ s = y.toNat / 2 ^ s := by
  have hmask : ((x ^^^ y) &&& ((0xFF : UInt8) <<< s.toUInt8)).toNat
      = (x ^^^ y).toNat / 2 ^ s * 2 ^ s := by
    rw [← UInt8.toNat_toBitVec, UInt8.toBitVec_and, mask_eq hs, toNat_and_high,
      UInt8.toNat_toBitVec]
  have hxor : (x ^^^ y).toNat / 2 ^ s = (x.toNat / 2 ^ s) ^^^ (y.toNat / 2 ^ s) := by
    rw [UInt8.toNat_xor, ← Nat.shiftRight_eq_div_pow, Nat.shiftRight_xor_distrib,
      Nat.shiftRight_eq_div_pow, Nat.shiftRight_eq_div_pow]
  have hpos : 0 < 2 ^ s := by positivity
  rw [← UInt8.toNat_inj, hmask, hxor]
  show _ * _ = 0 ↔ _
  rw [Nat.mul_eq_zero, or_iff_left hpos.ne', Nat.xor_eq_zero_iff]

section Bits

variable {a b : Bytes} {n : Nat} {prefixLen : UInt8}

/-- The bits of the byte at `i`, down to position `s`. -/
theorem beNat_drop_div (ha : a.length = n) {i s : Nat} (hi : i < n) :
    beNat (a.drop i) / 2 ^ (8 * (n - i - 1) + s) = (a.getD i 0).toNat / 2 ^ s := by
  have hia : i < a.length := by omega
  rw [List.drop_eq_getElem_cons hia, List.getD_eq_getElem _ _ hia]
  have hlen : n - i - 1 = (a.drop (i + 1)).length := by
    rw [List.length_drop]
    omega
  rw [hlen, beNat_cons_div]

/-- **`bitsEqual` compares the first bits of two numbers.** -/
theorem bitsEqual_iff (ha : a.length = n) (hb : b.length = n) (hlen : prefixLen.toNat ≤ 8 * n) :
    bitsEqual a b prefixLen = true
      ↔ beNat a / 2 ^ (8 * n - prefixLen.toNat) = beNat b / 2 ^ (8 * n - prefixLen.toNat) := by
  unfold bitsEqual
  generalize prefixLen.toNat = len at hlen
  -- the full bytes, then the bits of the byte behind them
  rw [beNat_div_eq_iff (n := len / 8) (ha.trans hb.symm) (by omega)]
  by_cases hfull : a.take (len / 8) = b.take (len / 8)
  · by_cases hrem : len % 8 = 0
    · have hzero (c : Bytes) (hc : c.length = n) :
          beNat (c.drop (len / 8)) / 2 ^ (8 * n - len) = 0 := by
        have hbits : 8 * (c.drop (len / 8)).length = 8 * n - len := by
          rw [List.length_drop]
          omega
        rw [← hbits, Nat.div_eq_of_lt (beNat_lt _)]
      simp [hfull, hrem, hzero a ha, hzero b hb]
    · have hshift : 8 * n - len = 8 * (n - len / 8 - 1) + (8 - len % 8) := by omega
      have hmask := xor_and_mask_eq_zero_iff (s := 8 - len % 8) (by omega)
        (a.getD (len / 8) 0) (b.getD (len / 8) 0)
      rw [hshift, beNat_drop_div ha (by omega), beNat_drop_div hb (by omega), ← hmask]
      simp [hfull, hrem]
  · simp [hfull]

/-- It looks at no other bytes. -/
theorem bitsEqual_take (hlen : prefixLen.toNat ≤ 8 * n) :
    bitsEqual (a.take n) (b.take n) prefixLen = bitsEqual a b prefixLen := by
  unfold bitsEqual
  generalize prefixLen.toNat = len at hlen
  have hfull (c : Bytes) : (c.take n).take (len / 8) = c.take (len / 8) := by
    rw [List.take_take, Nat.min_eq_left (by omega)]
  by_cases hrem : len % 8 = 0
  · simp only [hfull, hrem, if_true]
  · have hnext (c : Bytes) : (c.take n).getD (len / 8) 0 = c.getD (len / 8) 0 := by
      rw [List.getD_eq_getElem?_getD, List.getElem?_take, if_pos (by omega),
        List.getD_eq_getElem?_getD]
    simp only [hfull, hnext]

end Bits

end Shine
