import Shine.Proto.RoundTrip

/-!
# The streams of frames (`proto/shine_frame.cpp`, `proto/resp2_parser.cpp`)

`wire_round_trip` says that the encodings of frames are read back. Here is what is read at all:
`stream_grammar` gives, for every stream in any pieces, the frames that a reader takes from it
and the bytes that it is left with.

The stream consists of RESP2 values and the beginning of another one. A value is read as a
frame if it says what the frame is sent as (`Reads`), and some values more say the same: an
array may have further elements, which are ignored, a CLOSE need not give a reason, and a
length may be written in any way that `absl::SimpleAtoi` reads.
-/

namespace Shine

open Resp2

/-! ## Big-endian integers -/

/-- The number that bytes are the digits of. -/
def digits (s : Bytes) : Nat := s.foldl (fun n b => n * 256 + b.toNat) 0

theorem digits_concat (s : Bytes) (b : UInt8) : digits (s ++ [b]) = digits s * 256 + b.toNat := by
  rw [digits, List.foldl_append]
  rfl

theorem digits_lt (s : Bytes) : digits s < 256 ^ s.length := by
  induction s using List.reverseRecOn with
  | nil => exact Nat.one_pos
  | append_singleton s b ih =>
    have hb := b.toNat_lt
    rw [digits_concat, List.length_append, List.length_singleton, Nat.pow_succ]
    omega

/-- As many bytes are the digits of one number only once. -/
theorem digits_inj {s t : Bytes} (hlen : s.length = t.length) (h : digits s = digits t) :
    s = t := by
  induction s using List.reverseRecOn generalizing t with
  | nil => exact (List.eq_nil_of_length_eq_zero hlen.symm).symm
  | append_singleton s b ih =>
    obtain rfl | ⟨t, b', rfl⟩ := List.eq_nil_or_concat t
    · simp at hlen
    · rw [List.concat_eq_append] at hlen h ⊢
      rw [digits_concat, digits_concat] at h
      have hb := b.toNat_lt
      have hb' := b'.toNat_lt
      rw [ih (by simpa using hlen) (by omega), UInt8.toNat_inj.mp (show b.toNat = b'.toNat by omega)]

theorem toNat_foldl_shiftIn {s : Bytes} (hlen : s.length ≤ 8) :
    (s.foldl shiftIn 0).toNat = digits s := by
  induction s using List.reverseRecOn with
  | nil => rfl
  | append_singleton s b ih =>
    rw [List.length_append, List.length_singleton] at hlen
    have hs := ih (by omega)
    -- nothing is shifted out of the number
    have hlt : digits s < 2 ^ 56 :=
      calc digits s < 256 ^ s.length := digits_lt s
        _ ≤ 256 ^ 7 := Nat.pow_le_pow_right (by decide) (by omega)
        _ = 2 ^ 56 := by decide
    rw [List.foldl_append, digits_concat, ← hs]
    exact toNat_shiftIn (hs ▸ hlt)

theorem readU64BE_iff {s : Bytes} {v : UInt64} : readU64BE s = some v ↔ s = putU64BE v := by
  constructor
  · intro h
    rw [readU64BE] at h
    split_ifs at h with hlen
    have hfold := congrArg UInt64.toNat (Option.some.inj h)
    rw [← foldl_shiftIn_putU64BE v, toNat_foldl_shiftIn (by omega),
      toNat_foldl_shiftIn (by simp)] at hfold
    exact digits_inj (by simpa using hlen) hfold
  · rintro rfl
    exact readU64BE_putU64BE v

theorem toNat_readU32BE {s : Bytes} {v : UInt32} (h : readU32BE s = some v) :
    s.length = 4 ∧ v.toNat = digits s := by
  match s with
  | [a, b, c, d] =>
    refine ⟨rfl, ?_⟩
    obtain rfl := Option.some.inj h
    have hb := b.toNat_lt
    have hc := c.toNat_lt
    have hd := d.toNat_lt
    -- each byte goes below the shifted ones
    have join : ∀ w x k : Nat, x < 2 ^ 8 →
        w <<< (8 + k) ||| x <<< k = (w <<< 8 + x) <<< k := by
      intro w x k hx
      rw [Nat.shiftLeft_add_eq_or_of_lt (by omega), Nat.shiftLeft_or_distrib, ← Nat.shiftLeft_add]
    rw [UInt32.toNat_or, UInt32.toNat_or, UInt32.toNat_or, toNat_shifted32 a 24 (by decide),
      toNat_shifted32 b 16 (by decide), toNat_shifted32 c 8 (by decide), UInt8.toNat_toUInt32]
    have h24 : (24 : UInt32).toNat = 8 + 16 := rfl
    have h16 : (16 : UInt32).toNat = 16 := rfl
    have h8 : (8 : UInt32).toNat = 8 := rfl
    rw [h24, h16, h8, join a.toNat b.toNat 16 hb, show (16 : Nat) = 8 + 8 from rfl,
      join _ c.toNat 8 hc, ← Nat.shiftLeft_add_eq_or_of_lt (by omega)]
    simp only [Nat.shiftLeft_eq, digits, List.foldl_cons, List.foldl_nil]
    omega

theorem readU32BE_iff {s : Bytes} {v : UInt32} : readU32BE s = some v ↔ s = putU32BE v := by
  constructor
  · intro h
    obtain ⟨hlen, hdigits⟩ := toNat_readU32BE h
    obtain ⟨hlen', hdigits'⟩ := toNat_readU32BE (readU32BE_putU32BE v)
    exact digits_inj (hlen.trans hlen'.symm) (hdigits.symm.trans hdigits')
  · rintro rfl
    exact readU32BE_putU32BE v

theorem decodeSid_iff {s : Bytes} {v : UInt64} : decodeSid s = .ok v ↔ s = putU64BE v := by
  rw [← readU64BE_iff, decodeSid]
  cases readU64BE s with
  | none => simp
  | some w => simp

theorem decodeU32_iff {s : Bytes} {v : UInt32} : decodeU32 s = .ok v ↔ s = putU32BE v := by
  rw [← readU32BE_iff, decodeU32]
  cases readU32BE s with
  | none => simp
  | some w => simp

/-! ## What is read as a frame -/

/-- The contents of a value are read as the frame. -/
def Reads (c : Bytes ⊕ List Bytes) (f : ShineFrame) : Prop :=
  match wireParts f, c with
  | .inl bulk, .inl body => body = bulk
  | .inr parts, .inr elements =>
    parts <+: elements ∨ ∃ sid, f = .close sid [] ∧ elements = [ascii "CLOSE", putU64BE sid]
  | _, _ => False

theorem decodeBulk_iff {body : Bytes} {f : ShineFrame} :
    decodeBulk body = .ok f ↔ Reads (.inl body) f := by
  constructor
  · intro h
    rw [decodeBulk] at h
    split_ifs at h with hheader
    obtain ⟨hlen, hmagic⟩ := not_or.mp hheader
    cases body with
    | nil => exact absurd (Nat.zero_lt_succ _) hlen
    | cons magic tail =>
      obtain rfl : magic = dataMagic := by simpa using hmagic
      cases h
      have hsid : readU64BE (tail.take 8) = some ((tail.take 8).foldl shiftIn 0) := by
        rw [readU64BE, if_neg]
        simp only [List.length_cons] at hlen
        simp only [List.length_take]
        omega
      show dataMagic :: tail = dataMagic :: (putU64BE ((tail.take 8).foldl shiftIn 0) ++ tail.drop 8)
      rw [← readU64BE_iff.mp hsid, List.take_append_drop]
  · intro h
    cases f with
    | data sid payload =>
      obtain rfl : body = dataMagic :: (putU64BE sid ++ payload) := h
      exact decodeBulk_data sid payload
    | _ => exact h.elim

/-- Further elements do not matter. -/
theorem decodeArray_of_reads {elements : List Bytes} {f : ShineFrame}
    (h : Reads (.inr elements) f) : decodeArray elements = .ok f := by
  cases f with
  | data sid payload => exact h.elim
  | close sid reason =>
    rcases h with ⟨more, rfl⟩ | ⟨sid', heq, rfl⟩
    · simp +arith +decide [decodeArray, need, pure, Except.pure, bind, Except.bind]
    · cases heq
      simp +arith +decide [decodeArray, need, pure, Except.pure, bind, Except.bind]
  | _ =>
    rcases h with ⟨more, rfl⟩ | ⟨sid', heq, -⟩
    · simp +arith +decide [decodeArray, need, pure, Except.pure, bind, Except.bind]
    · cases heq

section Need

variable {cmd : Bytes} {args : List Bytes} {u : Unit} {f : ShineFrame}

theorem need_eq_ok {arr : List Bytes} {n : Nat} (h : need cmd arr n = .ok u) : n ≤ arr.length := by
  rw [need] at h
  split_ifs at h with hlt
  exact Nat.not_lt.mp hlt

theorem one_of_need (h : need cmd (cmd :: args) 2 = .ok u) : ∃ a more, args = a :: more := by
  have hlen := need_eq_ok h
  match args, hlen with
  | a :: more, _ => exact ⟨a, more, rfl⟩

theorem two_of_need (h : need cmd (cmd :: args) 3 = .ok u) : ∃ a b more, args = a :: b :: more := by
  have hlen := need_eq_ok h
  match args, hlen with
  | a :: b :: more, _ => exact ⟨a, b, more, rfl⟩

theorem three_of_need (h : need cmd (cmd :: args) 4 = .ok u) :
    ∃ a b c more, args = a :: b :: c :: more := by
  have hlen := need_eq_ok h
  match args, hlen with
  | a :: b :: c :: more, _ => exact ⟨a, b, c, more, rfl⟩

/-- A command with two plain arguments. -/
theorem plain_of_ok {make : Bytes → Bytes → ShineFrame}
    (h : (do
      need cmd (cmd :: args) 3
      return make ((cmd :: args).getD 1 []) ((cmd :: args).getD 2 [])) = .ok f) :
    ∃ a b more, args = a :: b :: more ∧ make a b = f := by
  obtain ⟨_, hneed, hlast⟩ := bind_eq_ok.mp h
  obtain ⟨a, b, more, rfl⟩ := two_of_need hneed
  exact ⟨a, b, more, rfl, Except.ok.inj hlast⟩

/-- A command with a sid or a nonce. -/
theorem sid_of_ok {make : UInt64 → ShineFrame}
    (h : (do
      need cmd (cmd :: args) 2
      let sid ← decodeSid ((cmd :: args).getD 1 [])
      return make sid) = .ok f) :
    ∃ sid more, args = putU64BE sid :: more ∧ make sid = f := by
  obtain ⟨_, hneed, hargs⟩ := bind_eq_ok.mp h
  obtain ⟨a, more, rfl⟩ := one_of_need hneed
  obtain ⟨sid, hsid, hlast⟩ := bind_eq_ok.mp hargs
  have ha : a = putU64BE sid := decodeSid_iff.mp hsid
  exact ⟨sid, more, by rw [ha], Except.ok.inj hlast⟩

end Need

theorem reads_of_decodeArray {elements : List Bytes} {f : ShineFrame}
    (h : decodeArray elements = .ok f) : Reads (.inr elements) f := by
  cases elements with
  | nil => cases h
  | cons cmd args =>
    simp only [decodeArray] at h
    by_cases hhello : cmd = ascii "HELLO"
    · rw [if_pos hhello] at h
      subst hhello
      obtain ⟨a, b, more, rfl, rfl⟩ := plain_of_ok h
      exact .inl ⟨more, rfl⟩
    rw [if_neg hhello] at h
    by_cases hauth : cmd = ascii "AUTH"
    · rw [if_pos hauth] at h
      subst hauth
      obtain ⟨_, hneed, hargs⟩ := bind_eq_ok.mp h
      obtain ⟨a, more, rfl⟩ := one_of_need hneed
      obtain rfl := Except.ok.inj hargs
      exact .inl ⟨more, rfl⟩
    rw [if_neg hauth] at h
    by_cases hok : cmd = ascii "OK"
    · rw [if_pos hok] at h
      subst hok
      obtain rfl := Except.ok.inj h
      exact .inl ⟨args, rfl⟩
    rw [if_neg hok] at h
    by_cases herr : cmd = ascii "ERR"
    · rw [if_pos herr] at h
      subst herr
      obtain ⟨a, b, more, rfl, rfl⟩ := plain_of_ok h
      exact .inl ⟨more, rfl⟩
    rw [if_neg herr] at h
    by_cases hnew : cmd = ascii "NEW"
    · rw [if_pos hnew] at h
      subst hnew
      obtain ⟨_, hneed, hargs⟩ := bind_eq_ok.mp h
      obtain ⟨a, b, c, more, rfl⟩ := three_of_need hneed
      obtain ⟨sid, hsid, hrest⟩ := bind_eq_ok.mp hargs
      obtain ⟨win, hwin, hlast⟩ := bind_eq_ok.mp hrest
      obtain rfl : a = putU64BE sid := decodeSid_iff.mp hsid
      obtain rfl : c = putU32BE win := decodeU32_iff.mp hwin
      obtain rfl := Except.ok.inj hlast
      exact .inl ⟨more, rfl⟩
    rw [if_neg hnew] at h
    by_cases hack : cmd = ascii "ACK"
    · rw [if_pos hack] at h
      subst hack
      obtain ⟨sid, more, rfl, rfl⟩ := sid_of_ok h
      exact .inl ⟨more, rfl⟩
    rw [if_neg hack] at h
    by_cases hclose : cmd = ascii "CLOSE"
    · rw [if_pos hclose] at h
      subst hclose
      obtain ⟨_, hneed, hargs⟩ := bind_eq_ok.mp h
      obtain ⟨a, more, rfl⟩ := one_of_need hneed
      obtain ⟨sid, hsid, hrest⟩ := bind_eq_ok.mp hargs
      obtain rfl : a = putU64BE sid := decodeSid_iff.mp hsid
      obtain rfl := Except.ok.inj hrest
      cases more with
      | nil => exact .inr ⟨sid, rfl, rfl⟩
      | cons reason more => exact .inl ⟨more, rfl⟩
    rw [if_neg hclose] at h
    by_cases hreset : cmd = ascii "RESET"
    · rw [if_pos hreset] at h
      subst hreset
      obtain ⟨sid, more, rfl, rfl⟩ := sid_of_ok h
      exact .inl ⟨more, rfl⟩
    rw [if_neg hreset] at h
    by_cases hwindow : cmd = ascii "WINDOW"
    · rw [if_pos hwindow] at h
      subst hwindow
      obtain ⟨_, hneed, hargs⟩ := bind_eq_ok.mp h
      obtain ⟨a, b, more, rfl⟩ := two_of_need hneed
      obtain ⟨sid, hsid, hrest⟩ := bind_eq_ok.mp hargs
      obtain ⟨delta, hdelta, hlast⟩ := bind_eq_ok.mp hrest
      obtain rfl : a = putU64BE sid := decodeSid_iff.mp hsid
      obtain rfl : b = putU32BE delta := decodeU32_iff.mp hdelta
      obtain rfl := Except.ok.inj hlast
      exact .inl ⟨more, rfl⟩
    rw [if_neg hwindow] at h
    by_cases hping : cmd = ascii "PING"
    · rw [if_pos hping] at h
      subst hping
      obtain ⟨sid, more, rfl, rfl⟩ := sid_of_ok h
      exact .inl ⟨more, rfl⟩
    rw [if_neg hping] at h
    by_cases hpong : cmd = ascii "PONG"
    · rw [if_pos hpong] at h
      subst hpong
      obtain ⟨sid, more, rfl, rfl⟩ := sid_of_ok h
      exact .inl ⟨more, rfl⟩
    rw [if_neg hpong] at h
    by_cases hnewUdp : cmd = ascii "NEW_UDP"
    · rw [if_pos hnewUdp] at h
      subst hnewUdp
      obtain ⟨sid, more, rfl, rfl⟩ := sid_of_ok h
      exact .inl ⟨more, rfl⟩
    rw [if_neg hnewUdp] at h
    by_cases hudpData : cmd = ascii "UDP_DATA"
    · rw [if_pos hudpData] at h
      subst hudpData
      obtain ⟨_, hneed, hargs⟩ := bind_eq_ok.mp h
      obtain ⟨a, b, c, more, rfl⟩ := three_of_need hneed
      obtain ⟨sid, hsid, hrest⟩ := bind_eq_ok.mp hargs
      obtain rfl : a = putU64BE sid := decodeSid_iff.mp hsid
      obtain rfl := Except.ok.inj hrest
      exact .inl ⟨more, rfl⟩
    rw [if_neg hudpData] at h
    cases h

/-! ## Values in a stream -/

section Stream

variable {maxBulk : Nat} {data rest : Bytes}

/-- **The decoder takes what is read as a frame, and nothing else.** -/
theorem decode_iff {c : Bytes ⊕ List Bytes} {f : ShineFrame} :
    Sum.elim decodeBulk decodeArray c = .ok f ↔ Reads c f := by
  cases c with
  | inl body => exact decodeBulk_iff
  | inr elements => exact ⟨reads_of_decodeArray, decodeArray_of_reads⟩

theorem decodeShineFrame_eq {g : Resp2Frame} {c : Bytes ⊕ List Bytes}
    (h : g.contents data = some c) : decodeShineFrame data g = Sum.elim decodeBulk decodeArray c := by
  cases g with
  | monostate => cases h
  | bulk off len =>
    cases h
    rfl
  | array elements =>
    cases h
    rfl

/-- A value at the front decides the attempt. -/
theorem attempt_of_text {v : Value maxBulk} (h : v.text <+: data) :
    attempt maxBulk data = match Sum.elim decodeBulk decodeArray v.contents with
      | .error e => .undecodable v.text.length e
      | .ok f => .frame v.text.length f := by
  have hpos := v.length_text_pos
  rw [attempt, parse_of_text h, ← decodeShineFrame_eq (contents_frame h)]
  cases hlen : v.text.length with
  | zero => omega
  | succ n => rfl

theorem attempt_frame_iff {n : Nat} {f : ShineFrame} :
    attempt maxBulk data = .frame n f
      ↔ ∃ v : Value maxBulk, v.text <+: data ∧ n = v.text.length ∧ Reads v.contents f := by
  constructor
  · intro h
    rcases value_or_start_or_error data maxBulk with ⟨v, hv⟩ | ⟨s, hs⟩ | ⟨e, he⟩
    · rw [attempt_of_text hv] at h
      cases hdec : Sum.elim decodeBulk decodeArray v.contents with
      | error e =>
        rw [hdec] at h
        cases h
      | ok g =>
        rw [hdec] at h
        cases h
        exact ⟨v, hv, rfl, decode_iff.mp hdec⟩
    · rw [attempt, parse_of_start hs] at h
      cases h
    · rw [attempt, he] at h
      cases h
  · rintro ⟨v, hv, rfl, hreads⟩
    rw [attempt_of_text hv, decode_iff.mpr hreads]

theorem attempt_more_iff :
    attempt maxBulk data = .more ↔ ∃ s : Start maxBulk, data = s.text := by
  constructor
  · intro h
    rcases value_or_start_or_error data maxBulk with ⟨v, hv⟩ | hstart | ⟨e, he⟩
    · rw [attempt_of_text hv] at h
      split at h
      · cases h
      · cases h
    · exact hstart
    · rw [attempt, he] at h
      cases h
  · rintro ⟨s, hs⟩
    rw [attempt, parse_of_start hs]
    rfl

/-! ## Whole streams -/

/-- The frames of a stream, and the beginning of a value behind them. -/
def Streams (maxBulk : Nat) (data : Bytes) (frames : List ShineFrame) (rest : Bytes) : Prop :=
  ∃ values : List (Value maxBulk), List.Forall₂ (fun v f => Reads v.contents f) values frames ∧
    data = (values.map Value.text).flatten ++ rest ∧ ∃ s : Start maxBulk, rest = s.text

theorem receive_step {acc : List ShineFrame} :
    (receiveMachine maxBulk).step ⟨acc, none⟩ data
      = receiveLoop.react ⟨acc, none⟩ (attempt maxBulk data) := by
  have hloop : (receiveMachine maxBulk).step = receiveLoop.step maxBulk := rfl
  rw [hloop, receiveLoop.step_of_decoding maxBulk rfl rfl]

/-- The frames of a stream are taken one after the other. -/
theorem drain_of_streams {frames : List ShineFrame} (h : Streams maxBulk data frames rest)
    (acc : List ShineFrame) :
    (receiveMachine maxBulk).drain ⟨acc, none⟩ data = (⟨acc ++ frames, none⟩, rest) := by
  obtain ⟨values, hreads, rfl, hstart⟩ := h
  induction hreads generalizing acc with
  | nil =>
    rw [List.append_nil]
    refine (receiveMachine maxBulk).drain_of_none ?_
    rw [List.map_nil, List.flatten_nil, List.nil_append, receive_step,
      attempt_more_iff.mpr hstart]
    rfl
  | @cons v f values frames hreads _ ih =>
    rw [List.map_cons, List.flatten_cons, List.append_assoc]
    have hstep : (receiveMachine maxBulk).step ⟨acc, none⟩
        (v.text ++ ((values.map Value.text).flatten ++ rest))
          = some (v.text.length, ⟨acc ++ [f], none⟩) := by
      rw [receive_step, attempt_frame_iff.mpr ⟨v, List.prefix_append _ _, rfl, hreads⟩]
      rfl
    rw [(receiveMachine maxBulk).drain_of_some hstep, List.drop_left, ih, List.append_assoc]
    rfl

/-- An error stays. -/
theorem drain_error {acc : List ShineFrame} {e : Status} :
    (receiveMachine maxBulk).drain ⟨acc, some e⟩ data = (⟨acc, some e⟩, data) := by
  have hloop : (receiveMachine maxBulk).step = receiveLoop.step maxBulk := rfl
  refine (receiveMachine maxBulk).drain_of_none ?_
  rw [hloop, receiveLoop.step_of_ended maxBulk rfl rfl]

theorem Streams.cons {v : Value maxBulk} {f : ShineFrame} {frames : List ShineFrame}
    (hv : v.text <+: data) (hreads : Reads v.contents f)
    (h : Streams maxBulk (data.drop v.text.length) frames rest) :
    Streams maxBulk data (f :: frames) rest := by
  obtain ⟨values, hvalues, hdata, hstart⟩ := h
  refine ⟨v :: values, .cons hreads hvalues, ?_, hstart⟩
  rw [List.map_cons, List.flatten_cons, List.append_assoc, ← hdata]
  exact (List.prefix_iff_eq_append.mp hv).symm

/-- Where no error comes up, the bytes are the frames of a stream. -/
theorem streams_of_drain {s : Received} (hs : s.error = none) {frames : List ShineFrame}
    (h : (receiveMachine maxBulk).drain s data = (⟨frames, none⟩, rest)) :
    ∃ new, frames = s.frames ++ new ∧ Streams maxBulk data new rest := by
  induction s, data using (receiveMachine maxBulk).drain_induction with
  | wait s b hwait =>
    obtain ⟨acc, error⟩ := s
    obtain rfl : error = none := hs
    rw [(receiveMachine maxBulk).drain_of_none hwait] at h
    cases h
    rw [receive_step, FrameLoop.react] at hwait
    split_ifs at hwait with hmore
    exact ⟨[], (List.append_nil _).symm, [], .nil, rfl, attempt_more_iff.mp hmore⟩
  | move s b n s' hstep ih =>
    obtain ⟨acc, error⟩ := s
    obtain rfl : error = none := hs
    rw [(receiveMachine maxBulk).drain_of_some hstep] at h
    rw [receive_step] at hstep
    obtain ⟨hmore, rfl, rfl⟩ := receiveLoop.react_some hstep
    cases ha : attempt maxBulk b with
    | more => exact absurd ha hmore
    | refused e =>
      rw [ha] at h
      cases (drain_error.symm.trans h)
    | undecodable k e =>
      rw [ha] at h
      cases (drain_error.symm.trans h)
    | frame k f =>
      rw [ha] at h ih
      obtain ⟨new, hframes, hstream⟩ := ih rfl h
      obtain ⟨v, hv, rfl, hreads⟩ := attempt_frame_iff.mp ha
      refine ⟨f :: new, ?_, .cons hv hreads hstream⟩
      rw [hframes]
      exact List.append_assoc acc [f] new

end Stream

/-- **The streams of frames.** Whatever pieces a stream arrives in, the reader takes `frames` from
it without an error and is left with `rest` exactly if the stream consists of values that are
read as these frames, and of `rest`, which is the beginning of a value. -/
theorem stream_grammar {maxBulk initial : Nat} (want : Received → ReadBuffer → Bytes → Nat)
    (hwant : ∀ s rb piece, 0 < want s rb piece) (chunks : List Bytes) (frames : List ShineFrame)
    (rest : Bytes) :
    (((receiveReader maxBulk want hwant).run ⟨[], none⟩ (.new initial) chunks).1 = ⟨frames, none⟩ ∧
      ((receiveReader maxBulk want hwant).run ⟨[], none⟩ (.new initial) chunks).2.view = rest)
      ↔ Streams maxBulk chunks.flatten frames rest := by
  obtain ⟨unread, hdrain, hreading⟩ :=
    (receiveReader maxBulk want hwant).run_refines ⟨[], none⟩ (.new initial) chunks
  have hmachine : (receiveReader maxBulk want hwant).machine = receiveMachine maxBulk := rfl
  rw [ReadBuffer.view_new, List.nil_append, hmachine] at hdrain
  constructor
  · rintro ⟨hstate, hview⟩
    rw [hstate] at hdrain hreading
    rw [hreading rfl, List.append_nil, hview] at hdrain
    obtain ⟨new, hframes, hstream⟩ := streams_of_drain rfl hdrain
    rwa [hframes]
  · intro hstream
    have hall := drain_of_streams hstream []
    rw [List.nil_append, hdrain] at hall
    have hstate := congrArg Prod.fst hall
    rw [hstate] at hreading
    rw [hreading rfl, List.append_nil] at hall
    exact ⟨hstate, congrArg Prod.snd hall⟩

/-- A CLOSE without a reason, with a sign and a zero in its lengths. -/
def sampleClose : Value 16 :=
  .array (ascii "+2") [⟨ascii "05", ascii "CLOSE", by decide, by decide, by decide⟩,
    ⟨ascii "8", putU64BE 7, by decide, by decide, by decide⟩] (by decide) (by decide) (by decide)

/-- It is read, and the beginning of another value is left. -/
theorem stream_grammar_close :
    ((receiveReader 16 (fun _ _ _ => 8) (fun _ _ _ => by decide)).run ⟨[], none⟩ (.new 4)
        [sampleClose.text.take 9, sampleClose.text.drop 9 ++ [bulkMarker]]).1
      = ⟨[.close 7 []], none⟩ ∧
    ((receiveReader 16 (fun _ _ _ => 8) (fun _ _ _ => by decide)).run ⟨[], none⟩ (.new 4)
        [sampleClose.text.take 9, sampleClose.text.drop 9 ++ [bulkMarker]]).2.view
      = [bulkMarker] := by
  refine (stream_grammar (fun _ _ _ => 8) (fun _ _ _ => by decide) _ _ _).mpr
    ⟨[sampleClose], .cons (.inr ⟨7, rfl, rfl⟩) .nil, ?_, .bulk (.inHeader [] (by decide)), rfl⟩
  simp only [List.flatten_cons, List.flatten_nil, List.append_nil, ← List.append_assoc,
    List.take_append_drop, List.map_cons, List.map_nil]

end Shine
