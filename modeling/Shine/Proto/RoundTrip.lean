import Shine.Proto.FrameLoop

/-!
# The wire format as a whole

A receiver that loops `tryParse`, `decodeShineFrame`, `consume` over a
`ReadBuffer` — the loop of `Link::readerLoop` without the dispatch — recovers the
frames a sender encoded, for every list of frames and every way TCP cuts their
encodings: `wire_round_trip`.

The loop is a `Reader` whose machine is the receiver on the unconsumed bytes, so the
proof is one induction over the frames.
-/

namespace Shine

/-- What a receiving loop has produced so far. -/
structure Received where
  frames : List ShineFrame
  error : Option Status
  deriving DecidableEq, Repr

/-- The loop that collects frames and ends at the first error. -/
def receiveLoop : FrameLoop Received where
  jump _ := none
  decoding s := s.error.isNone
  take
    | s, .more => s
    | s, .refused e => { s with error := some e }
    | s, .undecodable _ e => { s with error := some e }
    | s, .frame _ f => { s with frames := s.frames ++ [f] }
  rank s := if s.error.isSome then 0 else 1
  jump_rank h := nomatch h
  error_rank {s a} hd hm ha := by
    cases a with
    | more => exact absurd rfl hm
    | frame n f => exact absurd rfl (ha n f)
    | refused e | undecodable n e => simp [Option.isNone_iff_eq_none.mp hd]

/-- The receiving loop on the unconsumed bytes. -/
def receiveMachine (maxBulk : Nat) : Resumable Received UInt8 := receiveLoop.machine maxBulk

/-- The receiving loop over a `ReadBuffer`; `want` is the argument it passes to
`ensure_writable` before each read. -/
def receiveReader (maxBulk : Nat) (want : Received → ReadBuffer → Bytes → Nat)
    (hwant : ∀ s rb piece, 0 < want s rb piece) : Reader Received :=
  receiveLoop.reader maxBulk want hwant

/-- Draining the encodings of frames within the limit yields the frames and
leaves nothing. -/
theorem drain_encode {maxBulk : Nat} :
    ∀ (frames acc : List ShineFrame), (∀ f ∈ frames, Fits maxBulk f) →
      (receiveMachine maxBulk).drain ⟨acc, none⟩ (frames.map encode).flatten
        = (⟨acc ++ frames, none⟩, [])
  | [], acc, _ => by
    rw [List.append_nil]
    exact (receiveMachine maxBulk).drain_of_none rfl
  | f :: fs, acc, hfit => by
    have ha := attempt_encode (fs.map encode).flatten (hfit f (List.mem_cons_self ..))
    have hstep : (receiveMachine maxBulk).step ⟨acc, none⟩
        (encode f ++ (fs.map encode).flatten)
          = some ((encode f).length, ⟨acc ++ [f], none⟩) := by
      rw [show (receiveMachine maxBulk).step = receiveLoop.step maxBulk from rfl,
        receiveLoop.step_of_decoding maxBulk rfl rfl, ha]
      rfl
    rw [List.map_cons, List.flatten_cons, (receiveMachine maxBulk).drain_of_some hstep,
      List.drop_left, drain_encode fs (acc ++ [f]) fun g hg => hfit g (List.mem_cons_of_mem _ hg),
      List.append_assoc]
    rfl

/-- **Wire round trip.** Frames whose bulk strings are within the receiver's limit
are recovered field for field and in order, with no error and an empty buffer,
from every way of cutting the concatenation of their encodings into segments —
whatever capacity the buffer starts with and however much room each read asks
for. -/
theorem wire_round_trip {maxBulk initial : Nat} {frames : List ShineFrame}
    {chunks : List Bytes} (want : Received → ReadBuffer → Bytes → Nat)
    (hwant : ∀ s rb piece, 0 < want s rb piece)
    (hfit : ∀ f ∈ frames, Fits maxBulk f)
    (hcut : chunks.flatten = (frames.map encode).flatten) :
    ((receiveReader maxBulk want hwant).run ⟨[], none⟩ (.new initial) chunks).1
        = ⟨frames, none⟩ ∧
      ((receiveReader maxBulk want hwant).run ⟨[], none⟩ (.new initial) chunks).2.view
        = [] := by
  obtain ⟨unread, hdrain, -⟩ :=
    (receiveReader maxBulk want hwant).run_refines ⟨[], none⟩ (.new initial) chunks
  rw [ReadBuffer.view_new, List.nil_append, hcut] at hdrain
  have hmachine : (receiveReader maxBulk want hwant).machine = receiveMachine maxBulk := rfl
  rw [hmachine, drain_encode frames [] hfit, List.nil_append] at hdrain
  refine ⟨(congrArg Prod.fst hdrain).symm, ?_⟩
  exact (List.append_eq_nil_iff.mp (congrArg Prod.snd hdrain).symm).1

/-- An OK frame and a DATA frame whose payload looks like framing, cut inside a
header and inside the payload. -/
theorem wire_round_trip_ok_data :
    ((receiveReader 16 (fun _ _ _ => 8) (fun _ _ _ => by decide)).run ⟨[], none⟩
        (.new 4) [(encode .ok ++ encode (.data 7 [13, 10, 36, 42])).take 5,
          (encode .ok ++ encode (.data 7 [13, 10, 36, 42])).drop 5]).1
      = ⟨[.ok, .data 7 [13, 10, 36, 42]], none⟩ :=
  (wire_round_trip (fun _ _ _ => 8) (fun _ _ _ => by decide) (by decide)
    (by simp only [List.flatten_cons, List.flatten_nil, List.append_nil,
      List.take_append_drop, List.map_cons, List.map_nil])).1

end Shine
