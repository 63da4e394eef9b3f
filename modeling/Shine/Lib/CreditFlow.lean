import Mathlib

/-!
# A credit-controlled stream

One direction of a multiplexed stream with credit-based flow control, as a state of
its own: a writer hands over data, takes credit for a chunk, and puts it in flight;
the receiver queues chunks, a reader takes them out in pieces of any size, counts
what it has taken and, when the count reaches a threshold, grants it back to the
writer. An end marker follows the data. The stream can be torn down at any time,
from then on data and grants may be lost.

The state says nothing about how the two ends keep their parts, so that any
implementation of the two ends can be projected to it.

- `Step`: what can happen to the stream;
- `Balanced`: credit, data and grants under way add up to the initial credit;
- `Chained`: what was read, what is under way and what is still to be sent are, in
  this order, what was accepted from the writer;
- `Ended`: the end marker comes last, and a reader that was drained when it arrived
  has everything at the end of the stream;
- `Halted`: nothing is left behind when the writer is not let in any more;
- `Flow.Inv.step`: every step keeps the four.
-/

namespace Shine

universe u

/-- What travels towards the receiver. -/
inductive Msg (α : Type u) where
  | data (chunk : List α)
  | fin

/-- The data that a message carries. -/
def Msg.chunk {α : Type u} : Msg α → List α
  | .data c => c
  | .fin => []

@[simp] theorem Msg.chunk_data {α : Type u} (c : List α) : (Msg.data c).chunk = c := rfl
@[simp] theorem Msg.chunk_fin {α : Type u} : (Msg.fin : Msg α).chunk = [] := rfl

/-- What the reader is doing: nothing, waiting for a chunk, checking whether a grant
is due, or about to put a grant in flight. -/
inductive ReadPhase where
  | idle
  | waiting
  | acking
  | granting (delta : Nat)
  deriving DecidableEq

/-- The grant in the reader's hands. -/
def ReadPhase.delta : ReadPhase → Nat
  | .granting d => d
  | _ => 0

@[simp] theorem ReadPhase.delta_idle : ReadPhase.idle.delta = 0 := rfl
@[simp] theorem ReadPhase.delta_waiting : ReadPhase.waiting.delta = 0 := rfl
@[simp] theorem ReadPhase.delta_acking : ReadPhase.acking.delta = 0 := rfl
@[simp] theorem ReadPhase.delta_granting (d : Nat) : (ReadPhase.granting d).delta = d := rfl

/-- The state of one direction of a stream. -/
@[ext]
structure Flow (α : Type u) where
  /-- All data that the writer has handed over. -/
  passed : List α
  /-- The part of it that was let in. -/
  accepted : List α
  /-- Let in, and no credit taken for it yet. -/
  backlog : List α
  /-- The chunk that credit was taken for and that is not in flight yet. -/
  sending : Option (List α)
  credit : Int
  fwd : List (Msg α)
  inbox : List (List α)
  /-- The rest of the chunk that the reader is at. -/
  leftover : List α
  phase : ReadPhase
  /-- Taken by the reader and not granted back yet. -/
  unacked : Nat
  grants : List Nat
  /-- All data that the reader has taken. -/
  got : List α
  /-- The receiver still queues data. -/
  accepting : Bool
  /-- The reader has been told that the stream has ended. -/
  eof : Bool
  /-- The writer is not let in any more. -/
  stopped : Bool
  /-- What is sent from now on does not arrive. -/
  dead : Bool
  /-- The stream has been torn down: data may be lost. -/
  lossy : Bool
  /-- Credit may be lost. -/
  leaky : Bool

namespace Flow

variable {α : Type u}

/-- What the receiver has, in order. -/
def held (s : Flow α) : List α := s.got ++ s.leftover ++ s.inbox.flatten

/-- The data in flight. -/
def carried (s : Flow α) : List α := (s.fwd.map Msg.chunk).flatten

/-- The chunk in the writer's hands. -/
def hand (s : Flow α) : List α := s.sending.getD []

/-- Everything that credit was given for. -/
def total (s : Flow α) : Int :=
  s.credit + s.hand.length + s.carried.length + s.inbox.flatten.length + s.leftover.length
    + s.unacked + s.phase.delta + s.grants.sum

/-- The receiver's queue holds nothing but the chunk that a waiting reader will get. -/
def Drained (s : Flow α) : Prop := s.inbox.length ≤ if s.phase = .waiting then 1 else 0

/-- What can happen to a stream whose receiver grants back from `threshold` on. With
`strict`, the end marker is delivered only to a drained receiver. -/
inductive Step (threshold : Nat) (strict : Prop) (s : Flow α) : Flow α → Prop where
  | accept (d : List α) : s.stopped = false → s.backlog = [] → s.sending = none →
      Step threshold strict s
        { s with passed := s.passed ++ d, accepted := s.accepted ++ d, backlog := d }
  | refuse (d : List α) : s.stopped = true →
      Step threshold strict s { s with passed := s.passed ++ d }
  | take (c r : List α) : s.backlog = c ++ r → s.sending = none → c ≠ [] →
      (c.length : Int) ≤ s.credit →
      Step threshold strict s
        { s with backlog := r, sending := some c, credit := s.credit - c.length }
  | send (c : List α) : s.sending = some c → s.dead = false →
      Step threshold strict s { s with sending := none, fwd := s.fwd ++ [.data c] }
  | lose (c : List α) : s.sending = some c → s.dead = true →
      Step threshold strict s { s with sending := none }
  | abandon : s.sending = none → s.dead = true → Step threshold strict s { s with backlog := [] }
  | finish : s.stopped = false → s.backlog = [] → s.sending = none → s.dead = false →
      Step threshold strict s { s with stopped := true, fwd := s.fwd ++ [.fin] }
  /-- An end marker behind a stream that was torn down. -/
  | finish_late : s.lossy = true → Step threshold strict s { s with fwd := s.fwd ++ [.fin] }
  | tear (accepting stopped dead : Bool) : (accepting = true → s.accepting = true) →
      (s.stopped = true → stopped = true) → (s.dead = true → dead = true) →
      Step threshold strict s
        { s with accepting := accepting, stopped := stopped, dead := dead, lossy := true,
                 leaky := true }
  | leak : Step threshold strict s { s with leaky := true }
  | deliver (c : List α) (r : List (Msg α)) : s.fwd = .data c :: r → s.accepting = true →
      Step threshold strict s { s with fwd := r, inbox := s.inbox ++ [c] }
  | discard (m : Msg α) (r : List (Msg α)) : s.fwd = m :: r → s.accepting = false →
      s.lossy = true → Step threshold strict s { s with fwd := r }
  | cut (k : Nat) : s.dead = true → Step threshold strict s { s with fwd := s.fwd.take k }
  | recv_fin (r : List (Msg α)) : s.fwd = .fin :: r → s.accepting = true →
      (strict → s.Drained) → Step threshold strict s { s with fwd := r, accepting := false }
  | begin : s.phase = .idle → s.leftover = [] → s.accepting = true →
      Step threshold strict s { s with phase := .waiting }
  | take_inbox (n : Nat) (c : List α) (r : List (List α)) : s.phase = .waiting →
      s.inbox = c :: r →
      Step threshold strict s
        { s with phase := .acking, inbox := r, got := s.got ++ c.take n, leftover := c.drop n,
                 unacked := s.unacked + (c.take n).length }
  | take_leftover (n : Nat) : s.phase = .idle → s.leftover ≠ [] →
      Step threshold strict s
        { s with phase := .acking, got := s.got ++ s.leftover.take n,
                 leftover := s.leftover.drop n,
                 unacked := s.unacked + (s.leftover.take n).length }
  | due : s.phase = .acking → threshold ≤ s.unacked →
      Step threshold strict s { s with phase := .granting s.unacked, unacked := 0 }
  | not_due : s.phase = .acking → s.unacked < threshold →
      Step threshold strict s { s with phase := .idle }
  | skip : s.phase = .acking → s.lossy = true → Step threshold strict s { s with phase := .idle }
  | grant (d : Nat) : s.phase = .granting d →
      Step threshold strict s { s with phase := .idle, grants := s.grants ++ [d] }
  | grant_lost (d : Nat) : s.phase = .granting d → s.leaky = true →
      Step threshold strict s { s with phase := .idle }
  | credit (d : Nat) (r : List Nat) : s.grants = d :: r →
      Step threshold strict s { s with credit := s.credit + d, grants := r }
  | credit_lost (d : Nat) (r : List Nat) : s.grants = d :: r → s.leaky = true →
      Step threshold strict s { s with grants := r }
  | cut_grants (k : Nat) : s.leaky = true →
      Step threshold strict s { s with grants := s.grants.take k }
  | eof_idle : s.phase = .idle → s.leftover = [] → s.accepting = false →
      Step threshold strict s { s with eof := true }
  | eof_waiting (told : Bool) : s.phase = .waiting → s.inbox = [] → s.accepting = false →
      Step threshold strict s { s with phase := .idle, eof := s.eof || told }

/-- Credit, data and grants add up to the initial credit `cap`. -/
structure Balanced (cap threshold : Nat) (s : Flow α) : Prop where
  credit_nonneg : 0 ≤ s.credit
  total_le : s.total ≤ cap
  total_eq : s.leaky = false → s.total = cap
  leaky_of_lossy : s.lossy = true → s.leaky = true
  settled : s.lossy = false → s.phase ≠ .acking → s.unacked < threshold ∨ s.unacked = 0

variable {cap threshold : Nat} {strict : Prop} {s t : Flow α}

theorem clash {P : Prop} {b : Bool} (h : b = true) (h' : b = false) : P := by
  rw [h] at h'
  cases h'

/-- A step that moves credit around and loses none. -/
theorem Balanced.move (h : Balanced cap threshold s) (hcredit : 0 ≤ t.credit)
    (htotal : t.total = s.total) (hleaky : t.leaky = s.leaky) (hlossy : t.lossy = s.lossy)
    (hset : s.lossy = false → t.phase ≠ .acking → t.unacked < threshold ∨ t.unacked = 0) :
    Balanced cap threshold t where
  credit_nonneg := hcredit
  total_le := htotal ▸ h.total_le
  total_eq hl := htotal ▸ h.total_eq (hleaky ▸ hl)
  leaky_of_lossy hl := hleaky ▸ h.leaky_of_lossy (hlossy ▸ hl)
  settled hl := hset (hlossy ▸ hl)

/-- A step that may lose credit. -/
theorem Balanced.lose (h : Balanced cap threshold s) (hcredit : 0 ≤ t.credit)
    (htotal : t.total ≤ s.total) (hleaky : t.leaky = true)
    (hset : t.lossy = false → t.phase ≠ .acking → t.unacked < threshold ∨ t.unacked = 0) :
    Balanced cap threshold t where
  credit_nonneg := hcredit
  total_le := Int.le_trans htotal h.total_le
  total_eq hl := by rw [hleaky] at hl; cases hl
  leaky_of_lossy _ := hleaky
  settled := hset

theorem length_flatten_take_le (l : List (List α)) (k : Nat) :
    (l.take k).flatten.length ≤ l.flatten.length := by
  conv_rhs => rw [← List.take_append_drop k l, List.flatten_append, List.length_append]
  exact Nat.le_add_right _ _

theorem sum_take_le (l : List Nat) (k : Nat) : (l.take k).sum ≤ l.sum := by
  conv_rhs => rw [← List.take_append_drop k l, List.sum_append]
  exact Nat.le_add_right _ _

theorem Balanced.step (h : Balanced cap threshold s) (hdead : s.dead = true → s.lossy = true)
    (hwait : s.phase = .waiting → s.leftover = []) (hs : Step threshold strict s t) :
    Balanced cap threshold t := by
  have hnn := h.credit_nonneg
  cases hs with
  | accept | refuse | abandon | eof_idle => exact h.move hnn rfl rfl rfl h.settled
  | take c r hb hsend _ hc =>
    refine h.move (by simp only; omega) ?_ rfl rfl h.settled
    simp only [total, hand, hsend, carried, Option.getD_some, Option.getD_none, List.length_nil]
    omega
  | send c hsend _ =>
    refine h.move hnn ?_ rfl rfl h.settled
    simp only [total, hand, hsend, carried, Option.getD_some, Option.getD_none, List.map_append,
      List.flatten_append, List.length_append, List.map_cons, List.map_nil, Msg.chunk_data,
      List.flatten_cons, List.flatten_nil, List.append_nil, List.length_nil]
    omega
  | lose c hsend hd =>
    refine h.lose hnn ?_ (h.leaky_of_lossy (hdead hd)) h.settled
    simp only [total, hand, hsend, carried, Option.getD_some, Option.getD_none, List.length_nil]
    omega
  | finish | finish_late =>
    refine h.move hnn ?_ rfl rfl h.settled
    simp [total, hand, carried]
  | tear => exact h.lose hnn (Int.le_refl _) rfl nofun
  | leak => exact h.lose hnn (Int.le_refl _) rfl h.settled
  | deliver c r hf _ =>
    refine h.move hnn ?_ rfl rfl h.settled
    simp only [total, hand, carried, hf, List.map_cons, List.flatten_cons, List.length_append,
      Msg.chunk_data, List.flatten_append, List.flatten_nil, List.append_nil]
    omega
  | discard m r hf _ hl =>
    refine h.lose hnn ?_ (h.leaky_of_lossy hl) h.settled
    simp only [total, hand, carried, hf, List.map_cons, List.flatten_cons, List.length_append]
    omega
  | cut k hd =>
    refine h.lose hnn ?_ (h.leaky_of_lossy (hdead hd)) h.settled
    have hlen := length_flatten_take_le (s.fwd.map Msg.chunk) k
    simp only [total, hand, carried, List.map_take]
    omega
  | recv_fin r hf _ _ =>
    refine h.move hnn ?_ rfl rfl h.settled
    simp [total, hand, carried, hf]
  | begin hp | eof_waiting _ hp =>
    refine h.move hnn ?_ rfl rfl fun hl _ => h.settled hl (by simp [hp])
    simp [total, hand, carried, hp]
  | take_inbox n c r hp hi =>
    refine h.move hnn ?_ rfl rfl fun _ hne => absurd rfl hne
    have hlen := congrArg List.length (List.take_append_drop n c)
    rw [List.length_append] at hlen
    simp only [total, hand, carried, hp, hi, hwait hp, List.flatten_cons, List.length_append,
      List.length_nil, ReadPhase.delta_waiting, ReadPhase.delta_acking]
    omega
  | take_leftover n hp _ =>
    refine h.move hnn ?_ rfl rfl fun _ hne => absurd rfl hne
    have hlen := congrArg List.length (List.take_append_drop n s.leftover)
    rw [List.length_append] at hlen
    simp only [total, hand, carried, hp, ReadPhase.delta_idle, ReadPhase.delta_acking]
    omega
  | due hp _ =>
    refine h.move hnn ?_ rfl rfl fun _ _ => .inr rfl
    simp only [total, hand, carried, hp, ReadPhase.delta_granting, ReadPhase.delta_acking]
    omega
  | not_due hp hlt =>
    refine h.move hnn ?_ rfl rfl fun _ _ => .inl hlt
    simp [total, hand, carried, hp]
  | skip hp hl =>
    refine h.move hnn ?_ rfl rfl fun hl' => clash hl hl'
    simp [total, hand, carried, hp]
  | grant d hp =>
    refine h.move hnn ?_ rfl rfl fun hl _ => h.settled hl (by simp [hp])
    simp only [total, hand, carried, hp, List.sum_append, List.sum_cons, List.sum_nil,
      ReadPhase.delta_granting, ReadPhase.delta_idle]
    omega
  | grant_lost d hp hl =>
    refine h.lose hnn ?_ hl fun hl' _ => h.settled hl' (by simp [hp])
    simp only [total, hand, carried, hp, ReadPhase.delta_granting, ReadPhase.delta_idle]
    omega
  | credit d r hg =>
    refine h.move (by simp only; omega) ?_ rfl rfl h.settled
    simp only [total, hand, carried, hg, List.sum_cons]
    omega
  | credit_lost d r hg hl =>
    refine h.lose hnn ?_ hl h.settled
    simp only [total, hand, carried, hg, List.sum_cons]
    omega
  | cut_grants k hl =>
    refine h.lose hnn ?_ hl h.settled
    have hsum := sum_take_le s.grants k
    simp only [total, hand, carried]
    omega

/-- What was read, what is under way and what is still to be sent make up what was
accepted. Where data may be lost, what the reader has is still a beginning of it. -/
structure Chained (s : Flow α) : Prop where
  chain : s.accepting = true → s.dead = false →
    s.held ++ s.carried ++ s.hand ++ s.backlog = s.accepted
  carried_le : s.accepting = true → s.held ++ s.carried <+: s.accepted
  held_le : s.held <+: s.accepted
  intact : s.lossy = false → s.held ++ s.carried ++ s.hand ++ s.backlog = s.accepted
  accepted_le : s.accepted <+: s.passed
  accepted_eq : s.stopped = false → s.accepted = s.passed
  dead_lossy : s.dead = true → s.lossy = true

/-- A step that leaves the data and its chain alone, and only closes things. -/
theorem Chained.keep (h : Chained s) (hheld : t.held = s.held) (hcarried : t.carried = s.carried)
    (hrest : t.hand ++ t.backlog = s.hand ++ s.backlog) (hacc : t.accepted = s.accepted)
    (hpassed : t.passed = s.passed) (haccepting : t.accepting = true → s.accepting = true)
    (hstopped : s.stopped = true → t.stopped = true) (hdead : s.dead = true → t.dead = true)
    (hlossy : s.lossy = true → t.lossy = true)
    (hdl : t.dead = true → t.lossy = true) : Chained t where
  chain ha hd := by
    rw [hheld, hcarried, List.append_assoc, hrest, hacc, ← List.append_assoc]
    exact h.chain (haccepting ha) (Bool.eq_false_iff.mpr fun hc => clash (hdead hc) hd)
  carried_le ha := by
    rw [hheld, hcarried, hacc]
    exact h.carried_le (haccepting ha)
  held_le := by
    rw [hheld, hacc]
    exact h.held_le
  intact hl := by
    rw [hheld, hcarried, List.append_assoc, hrest, hacc, ← List.append_assoc]
    exact h.intact (Bool.eq_false_iff.mpr fun hc => clash (hlossy hc) hl)
  accepted_le := by
    rw [hacc, hpassed]
    exact h.accepted_le
  accepted_eq hst := by
    rw [hacc, hpassed]
    exact h.accepted_eq (Bool.eq_false_iff.mpr fun hc => clash (hstopped hc) hst)
  dead_lossy := hdl

theorem Chained.step (h : Chained s) (hwait : s.phase = .waiting → s.leftover = [])
    (hs : Step threshold strict s t) : Chained t := by
  have hdl := h.dead_lossy
  cases hs with
  | accept d hst hb hsend =>
    have hext : ∀ x, s.accepted <+: s.accepted ++ x := fun x => List.prefix_append _ _
    refine ⟨fun ha hd => ?_, fun ha => (h.carried_le ha).trans (hext d), h.held_le.trans (hext d),
      fun hl => ?_, ?_, fun _ => ?_, hdl⟩
    · have hchain := h.chain ha hd
      simp only [hand, hsend, hb, Option.getD_none, List.append_nil] at hchain ⊢
      exact congrArg (· ++ d) hchain
    · have hchain := h.intact hl
      simp only [hand, hsend, hb, Option.getD_none, List.append_nil] at hchain ⊢
      exact congrArg (· ++ d) hchain
    · show s.accepted ++ d <+: s.passed ++ d
      exact (h.accepted_eq hst) ▸ List.prefix_refl _
    · show s.accepted ++ d = s.passed ++ d
      rw [h.accepted_eq hst]
  | refuse d hst =>
    exact ⟨h.chain, h.carried_le, h.held_le, h.intact,
      h.accepted_le.trans (List.prefix_append _ _), fun hst' => clash hst hst',
      hdl⟩
  | take c r hb hsend _ _ =>
    refine h.keep rfl rfl ?_ rfl rfl id id id id hdl
    simp [hand, hsend, hb]
  | send c hsend hd =>
    have hmove : ∀ x : List α, (s.held ++ s.carried) ++ (c ++ x) = s.held
        ++ ((s.fwd ++ [Msg.data c]).map Msg.chunk).flatten ++ x := by simp [carried]
    have hchain : s.accepting = true →
        s.held ++ ((s.fwd ++ [Msg.data c]).map Msg.chunk).flatten ++ s.backlog = s.accepted := by
      intro ha
      have hchain := h.chain ha hd
      rw [List.append_assoc, show s.hand = c by simp [hand, hsend], hmove] at hchain
      exact hchain
    refine ⟨fun ha _ => ?_, fun ha => ⟨s.backlog, hchain ha⟩, h.held_le, fun hl => ?_,
      h.accepted_le, h.accepted_eq, hdl⟩
    · simpa [hand, carried, held] using hchain ha
    · have hintact := h.intact hl
      rw [List.append_assoc, show s.hand = c by simp [hand, hsend], hmove] at hintact
      simpa [hand, carried, held] using hintact
  | lose _ _ hd | abandon _ hd =>
    exact ⟨fun _ hd' => clash hd hd', h.carried_le, h.held_le,
      fun hl => clash (hdl hd) hl, h.accepted_le, h.accepted_eq, hdl⟩
  | finish _ _ _ hd =>
    refine h.keep rfl (by simp [carried]) rfl rfl rfl id (fun _ => rfl) id id hdl
  | finish_late _ => exact h.keep rfl (by simp [carried]) rfl rfl rfl id id id id hdl
  | tear accepting stopped dead ha hst hd =>
    exact h.keep rfl rfl rfl rfl rfl ha hst hd (fun _ => rfl) (fun _ => rfl)
  | deliver c r hf ha =>
    have hmove : ∀ x : List α, s.held ++ s.carried ++ x =
        s.got ++ s.leftover ++ (s.inbox ++ [c]).flatten ++ (r.map Msg.chunk).flatten ++ x := by
      simp [held, carried, hf]
    refine ⟨fun _ hd => ?_, fun _ => ?_, ?_, fun hl => ?_, h.accepted_le, h.accepted_eq, hdl⟩
    · have hchain := h.chain ha hd
      rw [List.append_assoc, hmove, ← List.append_assoc] at hchain
      exact hchain
    · have hle := h.carried_le ha
      rw [← List.append_nil (s.held ++ s.carried), hmove, List.append_nil] at hle
      exact hle
    · have hle := h.carried_le ha
      rw [← List.append_nil (s.held ++ s.carried), hmove, List.append_nil] at hle
      exact (List.prefix_append _ _).trans hle
    · have hintact := h.intact hl
      rw [List.append_assoc, hmove, ← List.append_assoc] at hintact
      exact hintact
  | discard m r hf ha hl =>
    exact ⟨fun ha' => clash ha' ha, fun ha' => clash ha' ha, h.held_le, fun hl' => clash hl hl',
       h.accepted_le, h.accepted_eq, hdl⟩
  | cut k hd =>
    refine ⟨fun _ hd' => clash hd hd', fun ha => ?_, h.held_le,
      fun hl => clash (hdl hd) hl, h.accepted_le, h.accepted_eq, hdl⟩
    refine List.IsPrefix.trans ?_ (h.carried_le ha)
    have hcut : s.carried = ((s.fwd.take k).map Msg.chunk).flatten
        ++ ((s.fwd.drop k).map Msg.chunk).flatten := by
      rw [← List.flatten_append, ← List.map_append, List.take_append_drop]
      rfl
    rw [hcut, ← List.append_assoc]
    exact List.prefix_append _ _
  | recv_fin r hf _ _ =>
    exact h.keep rfl (by simp [carried, hf]) rfl rfl rfl nofun id id id hdl
  | take_inbox n c r hp hi =>
    refine h.keep ?_ rfl rfl rfl rfl id id id id hdl
    simp [held, hi, hwait hp]
  | take_leftover n _ _ =>
    refine h.keep ?_ rfl rfl rfl rfl id id id id hdl
    simp [held]
  | leak | begin | due | not_due | skip | grant | grant_lost | credit | credit_lost | cut_grants
  | eof_idle | eof_waiting => exact h.keep rfl rfl rfl rfl rfl id id id id hdl

/-- The writer is done: not let in any more, and everything is in flight. -/
def Done (s : Flow α) : Prop := s.stopped = true ∧ s.backlog = [] ∧ s.sending = none

/-- The end marker is the last message, and with `strict` a reader that is told of
the end of the stream has everything. -/
structure Ended (strict : Prop) (s : Flow α) : Prop where
  fin_last : s.lossy = false → .fin ∉ s.fwd ∨ ∃ l, s.fwd = l ++ [.fin] ∧ .fin ∉ l ∧ s.Done
  closed_done : s.lossy = false → s.accepting = false → s.fwd = [] ∧ s.Done
  drained : strict → s.lossy = false → s.accepting = false → s.Drained
  eof_done : strict → s.lossy = false → s.eof = true →
    s.accepting = false ∧ s.inbox = [] ∧ s.leftover = []
  data_ne : ∀ c, .data c ∈ s.fwd → c ≠ []
  sending_ne : ∀ c, s.sending = some c → c ≠ []
  waiting_leftover : s.phase = .waiting → s.leftover = []

/-- A step of the writer alone. -/
theorem Ended.writer (h : Ended strict s) (hfin : t.lossy = false →
      .fin ∉ t.fwd ∨ ∃ l, t.fwd = l ++ [.fin] ∧ .fin ∉ l ∧ t.Done)
    (hclosed : t.lossy = false → s.accepting = false → t.fwd = [] ∧ t.Done)
    (hdata : ∀ c, .data c ∈ t.fwd → c ≠ []) (hsend : ∀ c, t.sending = some c → c ≠ [])
    (hlossy : t.lossy = s.lossy) (hacc : t.accepting = s.accepting) (hinbox : t.inbox = s.inbox)
    (hleft : t.leftover = s.leftover) (hphase : t.phase = s.phase) (heof : t.eof = s.eof) :
    Ended strict t where
  fin_last := hfin
  closed_done hl ha := hclosed hl (hacc ▸ ha)
  drained hstrict hl ha := by
    rw [Drained, hinbox, hphase]
    exact h.drained hstrict (hlossy ▸ hl) (hacc ▸ ha)
  eof_done hstrict hl he := by
    rw [hacc, hinbox, hleft]
    exact h.eof_done hstrict (hlossy ▸ hl) (heof ▸ he)
  data_ne := hdata
  sending_ne := hsend
  waiting_leftover hp := hleft ▸ h.waiting_leftover (hphase ▸ hp)

/-- Before the end, or without data left, the end marker is not in flight. -/
theorem Ended.fin_not_mem (h : Ended strict s) (hl : s.lossy = false) (hdone : ¬ s.Done) :
    .fin ∉ s.fwd := by
  rcases h.fin_last hl with hno | ⟨l, -, -, hd⟩
  · exact hno
  · exact absurd hd hdone

/-- A step of a writer that is not done. -/
theorem Ended.unfinished (h : Ended strict s) (hnot : ¬ s.Done)
    (hfin : .fin ∉ s.fwd → .fin ∉ t.fwd ∨ ∃ l, t.fwd = l ++ [.fin] ∧ .fin ∉ l ∧ t.Done)
    (hdata : ∀ c, .data c ∈ t.fwd → c ≠ []) (hsend : ∀ c, t.sending = some c → c ≠ [])
    (hlossy : t.lossy = s.lossy) (hacc : t.accepting = s.accepting) (hinbox : t.inbox = s.inbox)
    (hleft : t.leftover = s.leftover) (hphase : t.phase = s.phase) (heof : t.eof = s.eof) :
    Ended strict t :=
  h.writer (fun hl => hfin (h.fin_not_mem (hlossy ▸ hl) hnot))
    (fun hl ha => absurd (h.closed_done (hlossy ▸ hl) ha).2 hnot) hdata hsend hlossy hacc hinbox
    hleft hphase heof

/-- A stream that has been torn down. -/
theorem Ended.torn (hl : t.lossy = true) (hdata : ∀ c, .data c ∈ t.fwd → c ≠ [])
    (hsend : ∀ c, t.sending = some c → c ≠ []) (hwait : t.phase = .waiting → t.leftover = []) :
    Ended strict t :=
  ⟨fun hl' => clash hl hl', fun hl' => clash hl hl', fun _ hl' => clash hl hl',
    fun _ hl' => clash hl hl', hdata, hsend, hwait⟩

/-- A drained receiver stays drained while the reader is not waiting. -/
theorem Ended.drained_of_phase (h : Ended strict s) (hs : s.phase ≠ .waiting)
    (ht : t.phase ≠ .waiting) (hinbox : t.inbox = s.inbox) :
    strict → s.lossy = false → s.accepting = false → t.Drained := by
  intro hstrict hl ha
  have hd := h.drained hstrict hl ha
  rw [Drained, if_neg hs] at hd
  rw [Drained, if_neg ht, hinbox]
  exact hd

theorem Ended.step (h : Ended strict s) (hdl : s.dead = true → s.lossy = true)
    (hs : Step threshold strict s t) : Ended strict t := by
  have hwait := h.waiting_leftover
  cases hs with
  | accept d hst =>
    exact h.unfinished (fun hd => clash hd.1 hst) .inl h.data_ne h.sending_ne rfl rfl rfl rfl rfl rfl
  | refuse d hst =>
    exact h.writer h.fin_last h.closed_done h.data_ne h.sending_ne rfl rfl rfl rfl rfl rfl
  | take c r hb hsend hc _ =>
    have hnot : ¬ s.Done := by
      rintro ⟨-, hb', -⟩
      rw [hb', eq_comm, List.append_eq_nil_iff] at hb
      exact hc hb.1
    refine h.unfinished hnot .inl h.data_ne ?_ rfl rfl rfl rfl rfl rfl
    rintro c' hc'
    cases hc'
    exact hc
  | send c hsend _ =>
    have hnot : ¬ s.Done := by
      rintro ⟨-, -, hs'⟩
      rw [hs'] at hsend
      cases hsend
    refine h.unfinished hnot (fun hno => .inl (by simpa using hno)) ?_ nofun rfl rfl rfl rfl rfl rfl
    intro c' hc'
    rcases List.mem_append.mp hc' with hc' | hc'
    · exact h.data_ne c' hc'
    · cases List.mem_singleton.mp hc'
      exact h.sending_ne c hsend
  | finish hst hb hsend _ =>
    refine h.unfinished (fun hd => clash hd.1 hst) (fun hno => .inr ⟨s.fwd, rfl, hno, rfl, hb, hsend⟩)
      ?_ h.sending_ne rfl rfl rfl rfl rfl rfl
    intro c hc
    exact h.data_ne c (by simpa using hc)
  | lose c _ hd => exact .torn (hdl hd) h.data_ne nofun hwait
  | abandon _ hd => exact .torn (hdl hd) h.data_ne h.sending_ne hwait
  | finish_late hl =>
    exact .torn hl (fun c hc => h.data_ne c (by simpa using hc)) h.sending_ne hwait
  | tear => exact .torn rfl h.data_ne h.sending_ne hwait
  | discard m r hf _ hl => exact .torn hl (fun c hc => h.data_ne c (by simp [hf, hc])) h.sending_ne hwait
  | cut k hd =>
    exact .torn (hdl hd) (fun c hc => h.data_ne c (List.mem_of_mem_take hc)) h.sending_ne hwait
  | deliver c r hf ha =>
    refine ⟨fun hl => ?_, fun _ ha' => clash ha ha', fun _ _ ha' => clash ha ha',
      fun hstrict hl he => clash ha (h.eof_done hstrict hl he).1, ?_, h.sending_ne, hwait⟩
    · rcases h.fin_last hl with hno | ⟨l, hl', hfin, hdone⟩
      · rw [hf] at hno
        exact .inl fun hmem => hno (List.mem_cons_of_mem _ hmem)
      · rw [hf] at hl'
        cases l with
        | nil => cases hl'
        | cons m l =>
          injection hl' with _ hr
          exact .inr ⟨l, hr, fun hmem => hfin (List.mem_cons_of_mem _ hmem), hdone⟩
    · exact fun c' hc' => h.data_ne c' (by simp [hf, hc'])
  | recv_fin r hf ha hdrained =>
    have hlast : s.lossy = false → r = [] ∧ s.Done := by
      intro hl
      rcases h.fin_last hl with hno | ⟨l, hl', hfin, hdone⟩
      · rw [hf] at hno
        exact absurd (List.mem_cons_self ..) hno
      · rw [hf] at hl'
        cases l with
        | nil =>
          injection hl' with _ hr
          exact ⟨hr, hdone⟩
        | cons m l =>
          injection hl' with hm _
          exact absurd (hm ▸ List.mem_cons_self ..) hfin
    refine ⟨fun hl => .inl (by rw [(hlast hl).1]; exact List.not_mem_nil), fun hl _ => hlast hl,
      fun hstrict _ _ => hdrained hstrict, fun hstrict hl he => ?_, fun c hc => ?_, h.sending_ne,
      hwait⟩
    · exact clash ha (h.eof_done hstrict hl he).1
    · exact h.data_ne c (by simp [hf, hc])
  | begin hp hleft ha =>
    exact ⟨h.fin_last, fun _ ha' => clash ha ha', fun _ _ ha' => clash ha ha', h.eof_done, h.data_ne,
      h.sending_ne, fun _ => hleft⟩
  | take_inbox n c r hp hi =>
    refine ⟨h.fin_last, h.closed_done, fun hstrict hl ha => ?_, fun hstrict hl he => ?_, h.data_ne,
      h.sending_ne, nofun⟩
    · have hd := h.drained hstrict hl ha
      rw [Drained, hi, if_pos hp, List.length_cons] at hd
      rw [Drained, if_neg nofun]
      exact Nat.le_of_succ_le_succ hd
    · have hnil := (h.eof_done hstrict hl he).2.1
      rw [hi] at hnil
      cases hnil
  | take_leftover n hp hne =>
    refine ⟨h.fin_last, h.closed_done, fun hstrict hl ha => ?_, fun hstrict hl he => ?_, h.data_ne,
      h.sending_ne, nofun⟩
    · exact h.drained_of_phase (by simp [hp]) nofun rfl hstrict hl ha
    · exact absurd (h.eof_done hstrict hl he).2.2 hne
  | due hp | not_due hp | skip hp | grant d hp | grant_lost d hp =>
    exact ⟨h.fin_last, h.closed_done, h.drained_of_phase (by simp [hp]) nofun rfl, h.eof_done,
      h.data_ne, h.sending_ne, nofun⟩
  | leak | credit | credit_lost | cut_grants =>
    exact ⟨h.fin_last, h.closed_done, h.drained, h.eof_done, h.data_ne, h.sending_ne, hwait⟩
  | eof_idle hp hleft ha =>
    refine ⟨h.fin_last, h.closed_done, h.drained, fun hstrict hl _ => ⟨ha, ?_, hleft⟩, h.data_ne,
      h.sending_ne, hwait⟩
    have hd := h.drained hstrict hl ha
    rw [Drained, hp, if_neg nofun] at hd
    exact List.length_eq_zero_iff.mp (Nat.le_zero.mp hd)
  | eof_waiting told hp hi ha =>
    refine ⟨h.fin_last, h.closed_done, fun _ _ _ => ?_, fun _ _ _ => ⟨ha, hi, hwait hp⟩, h.data_ne,
      h.sending_ne, nofun⟩
    rw [Drained, hi]
    exact Nat.zero_le _

/-- A writer that is not let in any more has put everything in flight, unless the
stream was torn down. -/
def Halted (s : Flow α) : Prop :=
  s.lossy = false → s.stopped = true → s.backlog = [] ∧ s.sending = none

theorem Halted.step (h : Halted s) (hs : Step threshold strict s t) : Halted t := by
  intro hl hst
  cases hs with
  | accept d hopen _ _ => exact clash hst hopen
  | take c r hb _ hc _ =>
    rw [(h hl hst).1, eq_comm, List.append_eq_nil_iff] at hb
    exact absurd hb.1 hc
  | send c hsend _ | lose c hsend _ =>
    rw [(h hl hst).2] at hsend
    cases hsend
  | abandon hsend _ => exact ⟨rfl, hsend⟩
  | finish _ hb hsend _ => exact ⟨hb, hsend⟩
  | tear _ _ _ _ _ _ => cases hl
  | _ => exact h hl hst

/-! ## The invariant of a stream -/

/-- All invariants of a stream with initial credit `cap`. -/
structure Inv (cap threshold : Nat) (strict : Prop) (s : Flow α) : Prop where
  balanced : Balanced cap threshold s
  chained : Chained s
  ended : Ended strict s
  halted : Halted s

/-- A stream on which nothing has happened. -/
def initial (cap : Nat) : Flow α where
  passed := []
  accepted := []
  backlog := []
  sending := none
  credit := cap
  fwd := []
  inbox := []
  leftover := []
  phase := .idle
  unacked := 0
  grants := []
  got := []
  accepting := true
  eof := false
  stopped := false
  dead := false
  lossy := false
  leaky := false

theorem inv_initial (cap threshold : Nat) (strict : Prop) :
    (initial cap : Flow α).Inv cap threshold strict where
  balanced := ⟨Int.natCast_nonneg cap, by simp [total, initial, hand, carried],
    fun _ => by simp [total, initial, hand, carried], nofun, fun _ _ => .inr rfl⟩
  chained := ⟨fun _ _ => rfl, fun _ => List.prefix_refl _, List.prefix_refl _, fun _ => rfl,
    List.prefix_refl _, fun _ => rfl, nofun⟩
  ended := ⟨fun _ => .inl List.not_mem_nil, nofun, nofun, nofun, nofun, nofun, nofun⟩
  halted _ _ := ⟨rfl, rfl⟩

/-- **Every step keeps the invariant.** -/
theorem Inv.step (h : s.Inv cap threshold strict) (hs : Step threshold strict s t) :
    t.Inv cap threshold strict where
  balanced := h.balanced.step h.chained.dead_lossy h.ended.waiting_leftover hs
  chained := h.chained.step h.ended.waiting_leftover hs
  ended := h.ended.step h.chained.dead_lossy hs
  halted := h.halted.step hs

/-- Any number of steps. -/
def Steps (threshold : Nat) (strict : Prop) : Flow α → Flow α → Prop :=
  Relation.ReflTransGen (Step threshold strict)

theorem Inv.steps (h : s.Inv cap threshold strict) (hs : Steps threshold strict s t) :
    t.Inv cap threshold strict := by
  induction hs with
  | refl => exact h
  | tail _ hstep ih => exact ih.step hstep

/-! ## Consequences -/

/-- The reader has a beginning of what was handed over. -/
theorem Inv.got_le (h : s.Inv cap threshold strict) : s.got <+: s.passed := by
  have hgot : s.got <+: s.held := ⟨s.leftover ++ s.inbox.flatten, by simp [held]⟩
  exact hgot.trans (h.chained.held_le.trans h.chained.accepted_le)

/-- A reader that is told of the end has everything that was accepted, and the
writer is done. -/
theorem Inv.got_all (h : s.Inv cap threshold strict) (hstrict : strict) (hl : s.lossy = false)
    (he : s.eof = true) : s.got = s.accepted ∧ s.Done := by
  obtain ⟨ha, hi, hleft⟩ := h.ended.eof_done hstrict hl he
  obtain ⟨hf, hdone⟩ := h.ended.closed_done hl ha
  have hintact := h.chained.intact hl
  simp only [held, carried, hand, hf, hi, hleft, hdone.2.1, hdone.2.2, List.map_nil,
    List.flatten_nil, List.append_nil, Option.getD_none] at hintact
  exact ⟨hintact, hdone⟩

/-- **No deadlock**: a writer without credit, with nothing under way in either
direction and a reader that has taken everything, is impossible when the threshold
does not exceed the initial credit. -/
theorem Inv.not_starved (h : s.Inv cap threshold strict) (hcap : 0 < cap)
    (hthreshold : threshold ≤ cap) (hleaky : s.leaky = false) (hlossy : s.lossy = false)
    (hcredit : s.credit ≤ 0) (hsend : s.sending = none) (hcarried : s.carried = [])
    (hinbox : s.inbox = []) (hleft : s.leftover = [])
    (hphase : s.phase = .idle ∨ s.phase = .waiting) : s.grants ≠ [] := by
  intro hgrants
  have hdelta : s.phase.delta = 0 := by rcases hphase with hp | hp <;> rw [hp] <;> rfl
  have hset := h.balanced.settled hlossy (by rcases hphase with hp | hp <;> simp [hp])
  have htotal := h.balanced.total_eq hleaky
  have hnn := h.balanced.credit_nonneg
  simp only [total, hand, hsend, hcarried, hinbox, hleft, hdelta, hgrants, Option.getD_none,
    List.length_nil, List.flatten_nil, List.sum_nil] at htotal
  omega

end Flow

end Shine
