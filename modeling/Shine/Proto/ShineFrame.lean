import Shine.Proto.Resp2Writer

/-!
# Shine frames (`proto/shine_frame.cpp`)

The fourteen frame kinds, the decoder from parsed RESP2 values and the encoders.
Control frames travel as RESP2 arrays whose first element names the command; a
DATA frame is one RESP2 bulk string `magic ++ sid ++ payload` with a codec of
its own.

The main results connect the two directions:

- `decodeShineFrame_encode`: what a receiver decodes from an encoded frame is
  the frame, field for field;
- `attempt_encode` / `attempt_encode_error`: one parse-and-decode attempt on an
  encoded frame followed by anything yields that frame and its length, or — when
  an element exceeds the receiver's limit — an error; never another frame.
-/

namespace Shine

/-- `ShineFrame`, the variant of all frame structs. A DATA frame points into the
read buffer; it is kept as the bytes it points to when it is decoded. -/
inductive ShineFrame where
  | hello (version features : Bytes)
  | auth (password : Bytes)
  | ok
  | err (code message : Bytes)
  | new (sid : UInt64) (addrBlob : Bytes) (initWindow : UInt32)
  | ack (sid : UInt64)
  | close (sid : UInt64) (reason : Bytes)
  | reset (sid : UInt64)
  | window (sid : UInt64) (delta : UInt32)
  | ping (nonce : UInt64)
  | pong (nonce : UInt64)
  | data (sid : UInt64) (payload : Bytes)
  | newUdp (sid : UInt64)
  | udpData (sid : UInt64) (addrBlob payload : Bytes)
  deriving DecidableEq, Repr

/-- `kDataMagic`. -/
def dataMagic : UInt8 := 0xD1

/-! ## Big-endian integers -/

/-- `putU32BE`. -/
def putU32BE (v : UInt32) : Bytes :=
  ([24, 16, 8, 0] : List UInt32).map fun k => ((v >>> k) &&& 0xff).toUInt8

/-- `putU64BE`. -/
def putU64BE (v : UInt64) : Bytes :=
  ([56, 48, 40, 32, 24, 16, 8, 0] : List UInt64).map fun k => ((v >>> k) &&& 0xff).toUInt8

/-- `readU32BE`. -/
def readU32BE : Bytes → Option UInt32
  | [a, b, c, d] =>
    some ((a.toUInt32 <<< 24) ||| (b.toUInt32 <<< 16) ||| (c.toUInt32 <<< 8) ||| d.toUInt32)
  | _ => none

/-- One turn of the loop that reads a `u64`: `v = (v << 8) | byte`. -/
def shiftIn (v : UInt64) (b : UInt8) : UInt64 := (v <<< 8) ||| b.toUInt64

/-- `readU64BE`. -/
def readU64BE (s : Bytes) : Option UInt64 :=
  if s.length ≠ 8 then none else some (s.foldl shiftIn 0)

@[simp] theorem length_putU64BE (v : UInt64) : (putU64BE v).length = 8 := rfl

theorem toNat_shiftIn {v : UInt64} {b : UInt8} (h : v.toNat < 2 ^ 56) :
    (shiftIn v b).toNat = v.toNat * 256 + b.toNat := by
  have hb := b.toNat_lt
  rw [shiftIn, UInt64.toNat_or, UInt64.toNat_shiftLeft, UInt8.toNat_toUInt64,
    show (8 : UInt64).toNat % 64 = 8 from rfl, Nat.shiftLeft_eq,
    Nat.mod_eq_of_lt (by omega), ← Nat.shiftLeft_eq,
    ← Nat.shiftLeft_add_eq_or_of_lt (by omega), Nat.shiftLeft_eq]

theorem toNat_byteOf (v k : UInt64) (hk : k.toNat < 64) :
    ((v >>> k) &&& 0xff).toUInt8.toNat = v.toNat / 2 ^ k.toNat % 256 := by
  rw [UInt64.toNat_toUInt8, UInt64.toNat_and, UInt64.toNat_shiftRight, Nat.mod_eq_of_lt hk,
    Nat.shiftRight_eq_div_pow, show (0xff : UInt64).toNat = 2 ^ 8 - 1 from rfl,
    Nat.and_two_pow_sub_one_eq_mod]
  omega

/-- Each turn of the reading loop restores eight more bits. -/
theorem shiftIn_byteOf {v w : UInt64} (k : UInt64) (hk : k.toNat + 8 ≤ 64)
    (hw : w.toNat = v.toNat / 2 ^ (k.toNat + 8)) :
    (shiftIn w ((v >>> k) &&& 0xff).toUInt8).toNat = v.toNat / 2 ^ k.toNat := by
  have hv := v.toNat_lt
  have hlt : w.toNat < 2 ^ 56 := by
    rw [hw, Nat.div_lt_iff_lt_mul (Nat.two_pow_pos _)]
    calc v.toNat < 2 ^ 64 := hv
      _ = 2 ^ 56 * 2 ^ 8 := rfl
      _ ≤ 2 ^ 56 * 2 ^ (k.toNat + 8) :=
          Nat.mul_le_mul_left _ (Nat.pow_le_pow_right (by omega) (by omega))
  rw [toNat_shiftIn hlt, toNat_byteOf v k (by omega), hw, Nat.pow_add, ← Nat.div_div_eq_div_mul]
  omega

theorem foldl_shiftIn_putU64BE (v : UInt64) : (putU64BE v).foldl shiftIn 0 = v := by
  have hv := v.toNat_lt
  apply UInt64.toNat_inj.mp
  simp only [putU64BE, List.map_cons, List.map_nil, List.foldl_cons, List.foldl_nil]
  -- one step per byte, most significant first
  have h₀ : (0 : UInt64).toNat = v.toNat / 2 ^ ((56 : UInt64).toNat + 8) := by
    show 0 = v.toNat / 2 ^ 64
    omega
  have h₁ := shiftIn_byteOf (v := v) 56 (by decide) h₀
  have h₂ := shiftIn_byteOf (v := v) 48 (by decide) h₁
  have h₃ := shiftIn_byteOf (v := v) 40 (by decide) h₂
  have h₄ := shiftIn_byteOf (v := v) 32 (by decide) h₃
  have h₅ := shiftIn_byteOf (v := v) 24 (by decide) h₄
  have h₆ := shiftIn_byteOf (v := v) 16 (by decide) h₅
  have h₇ := shiftIn_byteOf (v := v) 8 (by decide) h₆
  have h₈ := shiftIn_byteOf (v := v) 0 (by decide) h₇
  rw [h₈]
  show v.toNat / 2 ^ 0 = v.toNat
  simp

@[simp] theorem readU64BE_putU64BE (v : UInt64) : readU64BE (putU64BE v) = some v := by
  rw [readU64BE, if_neg (by simp), foldl_shiftIn_putU64BE]

theorem toNat_byteOf32 (v k : UInt32) (hk : k.toNat < 32) :
    ((v >>> k) &&& 0xff).toUInt8.toNat = v.toNat / 2 ^ k.toNat % 256 := by
  rw [UInt32.toNat_toUInt8, UInt32.toNat_and, UInt32.toNat_shiftRight, Nat.mod_eq_of_lt hk,
    Nat.shiftRight_eq_div_pow, show (0xff : UInt32).toNat = 2 ^ 8 - 1 from rfl,
    Nat.and_two_pow_sub_one_eq_mod]
  omega

/-- A byte shifted to its place in a `u32`. -/
theorem toNat_shifted32 (b : UInt8) (k : UInt32) (hk : k.toNat ≤ 24) :
    (b.toUInt32 <<< k).toNat = b.toNat <<< k.toNat := by
  have hb := b.toNat_lt
  have hlt : b.toNat <<< k.toNat < 2 ^ 32 := by
    rw [Nat.shiftLeft_eq]
    calc b.toNat * 2 ^ k.toNat < 2 ^ 8 * 2 ^ k.toNat :=
          Nat.mul_lt_mul_of_pos_right hb (Nat.two_pow_pos _)
      _ = 2 ^ (8 + k.toNat) := by rw [Nat.pow_add]
      _ ≤ 2 ^ 32 := Nat.pow_le_pow_right (by omega) (by omega)
  rw [UInt32.toNat_shiftLeft, UInt8.toNat_toUInt32, Nat.mod_eq_of_lt (by omega : k.toNat < 32),
    Nat.mod_eq_of_lt hlt]

@[simp] theorem readU32BE_putU32BE (v : UInt32) : readU32BE (putU32BE v) = some v := by
  have hv := v.toNat_lt
  have h₀ := toNat_byteOf32 v 24 (by decide)
  have h₁ := toNat_byteOf32 v 16 (by decide)
  have h₂ := toNat_byteOf32 v 8 (by decide)
  have h₃ := toNat_byteOf32 v 0 (by decide)
  simp only [putU32BE, List.map_cons, List.map_nil, readU32BE, Option.some.injEq]
  generalize ((v >>> 24) &&& 0xff).toUInt8 = a at h₀ ⊢
  generalize ((v >>> 16) &&& 0xff).toUInt8 = b at h₁ ⊢
  generalize ((v >>> 8) &&& 0xff).toUInt8 = c at h₂ ⊢
  generalize ((v >>> 0) &&& 0xff).toUInt8 = d at h₃ ⊢
  apply UInt32.toNat_inj.mp
  rw [UInt32.toNat_or, UInt32.toNat_or, UInt32.toNat_or, toNat_shifted32 a 24 (by decide),
    toNat_shifted32 b 16 (by decide), toNat_shifted32 c 8 (by decide), UInt8.toNat_toUInt32]
  simp only [show (24 : UInt32).toNat = 24 from rfl, show (16 : UInt32).toNat = 16 from rfl,
    show (8 : UInt32).toNat = 8 from rfl, show (0 : UInt32).toNat = 0 from rfl] at *
  have ha := a.toNat_lt
  have hb := b.toNat_lt
  have hc := c.toNat_lt
  have hd := d.toNat_lt
  -- pull the shifts out one byte at a time, so that each `or` is an addition
  have join : ∀ w x k : Nat, x < 2 ^ 8 →
      w <<< (8 + k) ||| x <<< k = (w <<< 8 + x) <<< k := by
    intro w x k hx
    rw [Nat.shiftLeft_add_eq_or_of_lt (by omega), Nat.shiftLeft_or_distrib,
      ← Nat.shiftLeft_add]
  rw [join a.toNat b.toNat 16 hb, join _ c.toNat 8 hc,
    ← Nat.shiftLeft_add_eq_or_of_lt (by omega)]
  simp only [Nat.shiftLeft_eq]
  omega

/-! ## Decoding -/

/-- `decodeSid`. -/
def decodeSid (s : Bytes) : StatusOr UInt64 :=
  match readU64BE s with
  | none => .error (.invalidArgument (ascii "bad sid"))
  | some v => .ok v

/-- `decodeU32`. -/
def decodeU32 (s : Bytes) : StatusOr UInt32 :=
  match readU32BE s with
  | none => .error (.invalidArgument (ascii "bad u32"))
  | some v => .ok v

/-- `need(n)`: a command array must have at least `n` elements. -/
def need (cmd : Bytes) (arr : List Bytes) (n : Nat) : StatusOr Unit :=
  if arr.length < n then
    .error (.invalidArgument (ascii "command " ++ cmd ++ ascii " needs " ++ strDec (n - 1)
      ++ ascii " args"))
  else .ok ()

/-- The bulk branch of `decodeShineFrame`: a DATA frame. -/
def decodeBulk (bulk : Bytes) : StatusOr ShineFrame :=
  if bulk.length < 1 + 8 ∨ bulk[0]? ≠ some dataMagic then
    .error (.invalidArgument (ascii "bad DATA frame header"))
  else
    .ok (.data ((slice bulk 1 8).foldl shiftIn 0) (bulk.drop 9))

/-- The array branch of `decodeShineFrame`: a command and its arguments. -/
def decodeArray (arr : List Bytes) : StatusOr ShineFrame :=
  match arr with
  | [] => .error (.invalidArgument (ascii "empty array frame"))
  | cmd :: _ =>
    let arg (i : Nat) : Bytes := arr.getD i []
    if cmd = ascii "HELLO" then do
      need cmd arr 3
      return .hello (arg 1) (arg 2)
    else if cmd = ascii "AUTH" then do
      need cmd arr 2
      return .auth (arg 1)
    else if cmd = ascii "OK" then
      return .ok
    else if cmd = ascii "ERR" then do
      need cmd arr 3
      return .err (arg 1) (arg 2)
    else if cmd = ascii "NEW" then do
      need cmd arr 4
      let sid ← decodeSid (arg 1)
      let win ← decodeU32 (arg 3)
      return .new sid (arg 2) win
    else if cmd = ascii "ACK" then do
      need cmd arr 2
      let sid ← decodeSid (arg 1)
      return .ack sid
    else if cmd = ascii "CLOSE" then do
      need cmd arr 2
      let sid ← decodeSid (arg 1)
      -- the reason is optional
      return .close sid (if arr.length ≥ 3 then arg 2 else [])
    else if cmd = ascii "RESET" then do
      need cmd arr 2
      let sid ← decodeSid (arg 1)
      return .reset sid
    else if cmd = ascii "WINDOW" then do
      need cmd arr 3
      let sid ← decodeSid (arg 1)
      let dlt ← decodeU32 (arg 2)
      return .window sid dlt
    else if cmd = ascii "PING" then do
      need cmd arr 2
      let n ← decodeSid (arg 1)
      return .ping n
    else if cmd = ascii "PONG" then do
      need cmd arr 2
      let n ← decodeSid (arg 1)
      return .pong n
    else if cmd = ascii "NEW_UDP" then do
      need cmd arr 2
      let sid ← decodeSid (arg 1)
      return .newUdp sid
    else if cmd = ascii "UDP_DATA" then do
      need cmd arr 4
      let sid ← decodeSid (arg 1)
      return .udpData sid (arg 2) (arg 3)
    else .error (.invalidArgument (ascii "unknown cmd: " ++ cmd))

/-- `decodeShineFrame(rf)`, where a bulk frame points into the memory `mem`. -/
def decodeShineFrame (mem : Bytes) : Resp2Frame → StatusOr ShineFrame
  | .monostate => .error (.invalidArgument (ascii "empty frame"))
  | .bulk off len => decodeBulk (slice mem off len)
  | .array arr => decodeArray arr

/-! ## Encoding -/

/-- `encodeHello`. -/
def encodeHello (version features : Bytes) : Bytes :=
  writeArray [ascii "HELLO", version, features]

/-- `encodeAuth`. -/
def encodeAuth (password : Bytes) : Bytes := writeArray [ascii "AUTH", password]

/-- `encodeOk`. -/
def encodeOk : Bytes := writeArray [ascii "OK"]

/-- `encodeErr`. -/
def encodeErr (code message : Bytes) : Bytes := writeArray [ascii "ERR", code, message]

/-- `encodeNew`. -/
def encodeNew (sid : UInt64) (addrBlob : Bytes) (initWindow : UInt32) : Bytes :=
  writeArray [ascii "NEW", putU64BE sid, addrBlob, putU32BE initWindow]

/-- `encodeAck`. -/
def encodeAck (sid : UInt64) : Bytes := writeArray [ascii "ACK", putU64BE sid]

/-- `encodeClose`. -/
def encodeClose (sid : UInt64) (reason : Bytes) : Bytes :=
  writeArray [ascii "CLOSE", putU64BE sid, reason]

/-- `encodeReset`. -/
def encodeReset (sid : UInt64) : Bytes := writeArray [ascii "RESET", putU64BE sid]

/-- `encodeWindow`. -/
def encodeWindow (sid : UInt64) (delta : UInt32) : Bytes :=
  writeArray [ascii "WINDOW", putU64BE sid, putU32BE delta]

/-- `encodePing`. -/
def encodePing (nonce : UInt64) : Bytes := writeArray [ascii "PING", putU64BE nonce]

/-- `encodePong`. -/
def encodePong (nonce : UInt64) : Bytes := writeArray [ascii "PONG", putU64BE nonce]

/-- `encodeNewUdp`. -/
def encodeNewUdp (sid : UInt64) : Bytes := writeArray [ascii "NEW_UDP", putU64BE sid]

/-- `encodeUdpData`. -/
def encodeUdpData (sid : UInt64) (addrBlob payload : Bytes) : Bytes :=
  writeArray [ascii "UDP_DATA", putU64BE sid, addrBlob, payload]

/-- `encodeData`: the header and the body are written out by hand; the loop over
the bytes of the sid is the one of `putU64BE`. -/
def encodeData (sid : UInt64) (payload : Bytes) : Bytes :=
  bulkMarker :: (strDec (1 + 8 + payload.length) ++ crlf)
    ++ (dataMagic :: (putU64BE sid ++ payload) ++ crlf)

/-- The bytes a frame is sent as: the encoder of its kind. -/
def encode : ShineFrame → Bytes
  | .hello version features => encodeHello version features
  | .auth password => encodeAuth password
  | .ok => encodeOk
  | .err code message => encodeErr code message
  | .new sid addrBlob initWindow => encodeNew sid addrBlob initWindow
  | .ack sid => encodeAck sid
  | .close sid reason => encodeClose sid reason
  | .reset sid => encodeReset sid
  | .window sid delta => encodeWindow sid delta
  | .ping nonce => encodePing nonce
  | .pong nonce => encodePong nonce
  | .data sid payload => encodeData sid payload
  | .newUdp sid => encodeNewUdp sid
  | .udpData sid addrBlob payload => encodeUdpData sid addrBlob payload

/-- The RESP2 value a frame is sent as: one bulk string, or an array. -/
def wireParts : ShineFrame → Bytes ⊕ List Bytes
  | .hello version features => .inr [ascii "HELLO", version, features]
  | .auth password => .inr [ascii "AUTH", password]
  | .ok => .inr [ascii "OK"]
  | .err code message => .inr [ascii "ERR", code, message]
  | .new sid addrBlob win => .inr [ascii "NEW", putU64BE sid, addrBlob, putU32BE win]
  | .ack sid => .inr [ascii "ACK", putU64BE sid]
  | .close sid reason => .inr [ascii "CLOSE", putU64BE sid, reason]
  | .reset sid => .inr [ascii "RESET", putU64BE sid]
  | .window sid delta => .inr [ascii "WINDOW", putU64BE sid, putU32BE delta]
  | .ping nonce => .inr [ascii "PING", putU64BE nonce]
  | .pong nonce => .inr [ascii "PONG", putU64BE nonce]
  | .data sid payload => .inl (dataMagic :: (putU64BE sid ++ payload))
  | .newUdp sid => .inr [ascii "NEW_UDP", putU64BE sid]
  | .udpData sid addrBlob payload => .inr [ascii "UDP_DATA", putU64BE sid, addrBlob, payload]

/-- The bulk strings of a frame: the elements of its array, or its DATA bulk. -/
def bulks (f : ShineFrame) : List Bytes :=
  match wireParts f with
  | .inl bulk => [bulk]
  | .inr parts => parts

/-- A frame a receiver with limit `maxBulk` accepts: none of its bulk strings
exceeds the limit. -/
def Fits (maxBulk : Nat) (f : ShineFrame) : Prop := ∀ p ∈ bulks f, BulkFits maxBulk p

instance (maxBulk : Nat) (f : ShineFrame) : Decidable (Fits maxBulk f) :=
  inferInstanceAs (Decidable (∀ p ∈ bulks f, BulkFits maxBulk p))

/-! ## Decoding what was encoded -/

/-- Every encoder emits the value `wireParts` names. -/
theorem encode_eq (f : ShineFrame) :
    encode f = match wireParts f with
      | .inl bulk => writeBulk bulk
      | .inr parts => writeArray parts := by
  cases f with
  | data sid payload =>
    simp only [encode, encodeData, wireParts, writeBulk, writeBulkHeader, List.length_cons,
      List.length_append, length_putU64BE]
    rw [show 1 + 8 + payload.length = 8 + payload.length + 1 by omega]
  | _ => rfl

theorem decodeBulk_data (sid : UInt64) (payload : Bytes) :
    decodeBulk (dataMagic :: (putU64BE sid ++ payload)) = .ok (.data sid payload) := by
  have hsid : slice (dataMagic :: (putU64BE sid ++ payload)) 1 8 = putU64BE sid := by
    rw [slice, List.drop_succ_cons, List.drop_zero, ← length_putU64BE sid, List.take_left]
  have hpay : (dataMagic :: (putU64BE sid ++ payload)).drop 9 = payload := by
    rw [List.drop_succ_cons, ← length_putU64BE sid, List.drop_left]
  rw [decodeBulk, hsid, hpay, foldl_shiftIn_putU64BE, if_neg]
  simp

@[simp] theorem decodeSid_putU64BE (v : UInt64) : decodeSid (putU64BE v) = .ok v := by
  rw [decodeSid, readU64BE_putU64BE]

@[simp] theorem decodeU32_putU32BE (v : UInt32) : decodeU32 (putU32BE v) = .ok v := by
  rw [decodeU32, readU32BE_putU32BE]

/-- The decoder inverts the encoders, frame kind by frame kind. -/
theorem decode_wireParts (f : ShineFrame) :
    (match wireParts f with
      | .inl bulk => decodeBulk bulk
      | .inr parts => decodeArray parts) = .ok f := by
  cases f with
  | data sid payload => exact decodeBulk_data sid payload
  | _ => simp +decide [wireParts, decodeArray, need, pure, Except.pure, bind, Except.bind]

/-- Control frames are far below the parser's limit of 1024 elements. -/
theorem wireParts_length {f : ShineFrame} {parts : List Bytes}
    (h : wireParts f = .inr parts) : parts.length ≤ 1024 := by
  cases f <;> cases h <;> simp

/-- **Decoding inverts encoding**: the value an encoded frame parses to decodes to
the frame, whatever follows it in memory. -/
theorem decodeShineFrame_encode {maxBulk : Nat} {f : ShineFrame} (x : Bytes)
    (h : Fits maxBulk f) :
    ∃ rf, parse maxBulk (encode f ++ x) = .ok ((encode f).length, rf) ∧
      decodeShineFrame (encode f ++ x) rf = .ok f := by
  have hdec := decode_wireParts f
  rw [encode_eq]
  unfold Fits bulks at h
  cases hw : wireParts f with
  | inl bulk =>
    rw [hw] at h hdec
    refine ⟨_, parse_writeBulk x (h bulk (List.mem_singleton_self _)), ?_⟩
    have hs := slice_writeBulk [] bulk x
    simp only [List.nil_append, List.length_nil, Nat.zero_add] at hs
    show decodeBulk (slice _ _ _) = _
    rw [hs]
    exact hdec
  | inr parts =>
    rw [hw] at h hdec
    exact ⟨_, parse_writeArray x (wireParts_length hw) h, hdec⟩

/-! ## One attempt of a reader -/

/-- What a reader makes of the bytes received and not yet consumed: it needs more,
the parser refuses them, the decoder refuses the parsed value, or a frame of
`n` bytes is there. -/
inductive Attempt where
  | more
  | refused (e : Status)
  | undecodable (n : Nat) (e : Status)
  | frame (n : Nat) (f : ShineFrame)
  deriving DecidableEq, Repr

/-- Decode the outcome of `tryParse`, with bulk frames pointing into `mem`. -/
def decodeParsed (mem : Bytes) : StatusOr (Nat × Resp2Frame) → Attempt
  | .error e => .refused e
  | .ok (0, _) => .more
  | .ok (n + 1, rf) =>
    match decodeShineFrame mem rf with
    | .error e => .undecodable (n + 1) e
    | .ok f => .frame (n + 1) f

/-- `tryParse` followed by `decodeShineFrame` while the parsed bytes are still in
the buffer, as in `Link::readerLoop`. -/
def readAttempt (maxBulk : Nat) (rb : ReadBuffer) : Attempt :=
  decodeParsed rb.buf (tryParse maxBulk rb)

/-- The same on the readable bytes alone. -/
def attempt (maxBulk : Nat) (data : Bytes) : Attempt :=
  decodeParsed data (parse maxBulk data)

/-- The decoder looks only at the parsed value's own bytes. -/
theorem decodeShineFrame_append {maxBulk : Nat} {data : Bytes} {n : Nat} {rf : Resp2Frame}
    (x : Bytes) (h : parse maxBulk data = .ok (n, rf)) :
    decodeShineFrame (data ++ x) rf = decodeShineFrame data rf := by
  rcases parse_ok_bounds h with ⟨-, rfl⟩ | ⟨-, hn, ⟨off, len, rfl, hle⟩ | ⟨els, rfl⟩⟩
  · rfl
  · show decodeBulk (slice (data ++ x) off len) = decodeBulk (slice data off len)
    rw [slice_append x (by omega)]
  · rfl

/-- Before `consume`, the memory a parsed value points to is the readable bytes. -/
theorem decodeShineFrame_rebase {maxBulk : Nat} {rb : ReadBuffer} {n : Nat}
    {rf : Resp2Frame} (h : parse maxBulk rb.view = .ok (n, rf)) :
    decodeShineFrame rb.buf (rf.rebase rb.head) = decodeShineFrame rb.view rf := by
  rcases parse_ok_bounds h with ⟨-, rfl⟩ | ⟨-, hn, ⟨off, len, rfl, hle⟩ | ⟨els, rfl⟩⟩
  · rfl
  · show decodeBulk (slice rb.buf (rb.head + off) len) = decodeBulk (slice rb.view off len)
    rw [slice_view rb (by omega)]
  · rfl

theorem readAttempt_eq (maxBulk : Nat) (rb : ReadBuffer) :
    readAttempt maxBulk rb = attempt maxBulk rb.view := by
  unfold readAttempt attempt tryParse
  cases hp : parse maxBulk rb.view with
  | error e => rfl
  | ok q =>
    obtain ⟨n, rf⟩ := q
    cases n with
    | zero => rfl
    | succ n =>
      show decodeParsed rb.buf (.ok (n + 1, rf.rebase rb.head)) = _
      rw [decodeParsed, decodeShineFrame_rebase hp]
      rfl

/-- **Stability**: an attempt that does not ask for more comes out the same on
every extension of the data. -/
theorem attempt_append {maxBulk : Nat} {data : Bytes} {r : Attempt} (x : Bytes)
    (h : attempt maxBulk data = r) (hr : r ≠ .more) : attempt maxBulk (data ++ x) = r := by
  unfold attempt at h ⊢
  cases hp : parse maxBulk data with
  | error e =>
    rw [parse_append x hp (by simp)]
    rw [hp] at h
    exact h
  | ok q =>
    obtain ⟨n, rf⟩ := q
    rw [hp] at h
    cases n with
    | zero => exact absurd h.symm hr
    | succ n =>
      rw [parse_append x hp (by simp), decodeParsed, decodeShineFrame_append x hp]
      exact h

/-- The number of bytes an attempt takes from the data. -/
def Attempt.taken : Attempt → Nat
  | .more => 0
  | .refused _ => 0
  | .undecodable n _ => n
  | .frame n _ => n

theorem attempt_taken_le (maxBulk : Nat) (data : Bytes) :
    (attempt maxBulk data).taken ≤ data.length := by
  unfold attempt
  cases hp : parse maxBulk data with
  | error e => exact Nat.zero_le _
  | ok q =>
    obtain ⟨n, rf⟩ := q
    cases n with
    | zero => exact Nat.zero_le _
    | succ n =>
      have hle : n + 1 ≤ data.length := by
        rcases parse_ok_bounds hp with ⟨h₀, -⟩ | ⟨-, hle, -⟩
        · omega
        · exact hle
      rw [decodeParsed]
      cases decodeShineFrame data rf <;> exact hle

/-- A frame is never empty. -/
theorem attempt_frame_pos {maxBulk : Nat} {data : Bytes} {n : Nat} {f : ShineFrame}
    (h : attempt maxBulk data = .frame n f) : 0 < n := by
  unfold attempt at h
  cases hp : parse maxBulk data with
  | error e =>
    rw [hp] at h
    cases h
  | ok q =>
    obtain ⟨k, rf⟩ := q
    rw [hp] at h
    cases k with
    | zero => cases h
    | succ k =>
      rw [decodeParsed] at h
      cases hd : decodeShineFrame data rf with
      | error e =>
        rw [hd] at h
        cases h
      | ok g =>
        rw [hd] at h
        cases h
        exact Nat.succ_pos k

/-- **An encoded frame within the limit is read back**, whatever follows it. -/
theorem attempt_encode {maxBulk : Nat} {f : ShineFrame} (x : Bytes) (h : Fits maxBulk f) :
    attempt maxBulk (encode f ++ x) = .frame (encode f).length f := by
  obtain ⟨rf, hp, hd⟩ := decodeShineFrame_encode x h
  unfold attempt
  rw [hp]
  cases hlen : (encode f).length with
  | zero =>
    rw [hlen] at hp
    rcases parse_ok_bounds hp with ⟨-, rfl⟩ | ⟨hpos, -⟩
    · cases hd
    · omega
  | succ n => rw [decodeParsed, hd]

/-- An encoded frame beyond the limit is refused. -/
theorem attempt_encode_error {maxBulk : Nat} {f : ShineFrame} (x : Bytes)
    (h : ¬ Fits maxBulk f) : ∃ e, attempt maxBulk (encode f ++ x) = .refused e := by
  unfold Fits bulks at h
  have hp : ∃ e, parse maxBulk (encode f ++ x) = .error e := by
    rw [encode_eq]
    cases hw : wireParts f with
    | inl bulk =>
      rw [hw] at h
      exact parse_writeBulk_error x fun hb => h fun p hp => by
        rw [List.mem_singleton.mp hp]
        exact hb
    | inr parts =>
      rw [hw] at h
      exact parse_writeArray_error x (wireParts_length hw) h
  obtain ⟨e, he⟩ := hp
  unfold attempt
  rw [he]
  exact ⟨e, rfl⟩

/-- An encoded frame is decoded as itself, or refused for its size. -/
theorem attempt_encode_cases (maxBulk : Nat) (f : ShineFrame) :
    (Fits maxBulk f ∧ attempt maxBulk (encode f) = .frame (encode f).length f) ∨
      (¬ Fits maxBulk f ∧ ∃ e, attempt maxBulk (encode f) = .refused e) := by
  have hnil : encode f ++ [] = encode f := List.append_nil _
  by_cases h : Fits maxBulk f
  · exact .inl ⟨h, by rw [← hnil, attempt_encode [] h, hnil]⟩
  · obtain ⟨e, he⟩ := attempt_encode_error [] h
    rw [hnil] at he
    exact .inr ⟨h, e, he⟩

@[simp] theorem attempt_nil (maxBulk : Nat) : attempt maxBulk [] = .more := rfl

end Shine
