import Shine.Lib.Asserts
import Shine.Lib.Interference
import Shine.Transport.Pair
import Shine.Transport.Pipe

/-!
# What the pipe does to its two streams (`transport/pipe.cpp`)

`secures_halfCopy` is the rule for `halfCopy` between any two streams: an assertion for the
moments at which it holds no bytes, one for those at which it holds some, and one for its end.

The second part joins two streams about which nothing is known: a read answers any bytes that
fit, the end of the stream or an error, and a write may fail after a part of its bytes. A
`Direction` records what was read from one stream and written to the other. `bidi_copy` says
what the two streams are told, in every order of the two directions.
-/

namespace Shine

open Co

section Rules

variable {Op : Type} {Ans : Op → Type} {W : Type} {exec : W → (op : Op) → Ans op → W → Prop}
  {Pre : W → Op → Prop} {R : W → W → Prop} {src dst a b : SessionStream Op Ans} {w : W}

/-- After a read of `halfCopy`: it holds what was read, or is done. -/
def AfterRead (Held : Bytes → W → Prop) (Done : W → Prop) : StatusOr Bytes → W → Prop
  | .ok (x :: xs) => Held (x :: xs)
  | .ok [] | .error _ => Done

theorem AfterRead.stable {Held : Bytes → W → Prop} {Done : W → Prop}
    (hheld : ∀ data, Stable R (Held data)) (hdone : Stable R Done) (r : StatusOr Bytes) :
    Stable R (AfterRead Held Done r) := by
  rcases r with e | (_ | ⟨x, xs⟩)
  · exact hdone
  · exact hdone
  · exact hheld _

/-- After a write of `halfCopy`. -/
def AfterWrite (Idle Done : W → Prop) : StatusOr Unit → W → Prop
  | .ok () => Idle
  | .error _ => Done

theorem AfterWrite.stable {Idle Done : W → Prop} (hidle : Stable R Idle) (hdone : Stable R Done)
    (r : StatusOr Unit) : Stable R (AfterWrite Idle Done r) := by
  rcases r with e | ⟨⟩
  · exact hdone
  · exact hidle

theorem secures_copyTurn {Idle Done : W → Prop} {Held : Bytes → W → Prop}
    (hidle : Stable R Idle) (hdone : Stable R Done)
    (hread : Secures exec Pre R (src.read (32 * 1024)) (AfterRead Held Done) w)
    (hwrite : ∀ data w, Held data w →
      Secures exec Pre R (dst.write data) (AfterWrite Idle Done) w) :
    Secures exec Pre R (copyTurn src dst)
      (fun r w => Sum.elim (fun _ => Idle w) (fun _ => Done w) r) w := by
  refine .bind (hread.mono fun r w hr => ?_)
  rcases r with e | (_ | ⟨x, xs⟩)
  · exact .ret hr hdone
  · exact .ret hr hdone
  · refine .bind ((hwrite _ w hr).mono fun r w hr => ?_)
    rcases r with e | ⟨⟩
    · exact .ret hr hdone
    · exact .ret hr hidle

/-- **The rule for `halfCopy`.** -/
theorem secures_halfCopy (Idle : W → Prop) (Held : Bytes → W → Prop) (Done : W → Prop)
    {End : W → Prop}
    (hidle : Stable R Idle) (hdone : Stable R Done)
    (hread : ∀ w, Idle w → Secures exec Pre R (src.read (32 * 1024)) (AfterRead Held Done) w)
    (hwrite : ∀ data w, Held data w →
      Secures exec Pre R (dst.write data) (AfterWrite Idle Done) w)
    (hshut : ∀ w, Done w → Secures exec Pre R dst.shutdownWrite (fun _ => End) w)
    (hw : Idle w) : Secures exec Pre R (halfCopy src dst) (fun _ => End) w := by
  have hloop : Secures exec Pre R (Co.loop (fun _ => copyTurn src dst) ()) (fun _ => Done) w :=
    .loop (fun _ => Idle) hw (fun _ => hidle) (fun _ => hdone) fun _ w hw =>
      secures_copyTurn hidle hdone (hread w hw) hwrite
  exact .bind (hloop.mono fun _ w hw => hshut w hw)

/-- `halfCopy` makes the calls of its three methods. -/
theorem clean_halfCopy_of {bad : Op → Prop} (hread : ∀ n, Clean bad (src.read n))
    (hwrite : ∀ data, Clean bad (dst.write data)) (hshut : Clean bad dst.shutdownWrite) :
    Clean bad (halfCopy src dst) := by
  refine .bind (.loop fun _ => .bind (hread _) fun r => ?_) fun _ => hshut
  rcases r with e | (_ | ⟨x, xs⟩)
  · exact .ret _
  · exact .ret _
  · refine .bind (hwrite _) fun r => ?_
    cases r <;> exact .ret _

theorem clean_bidiCopy_of {bad : Op → Prop} (hab : Clean bad (halfCopy a b))
    (hba : Clean bad (halfCopy b a)) (ha : Clean bad a.close) (hb : Clean bad b.close) :
    Clean bad (bidiCopy a b) :=
  .bind (.par hab hba) fun _ => .bind ha fun _ => hb

/-- The rule for `bidiCopy`, whose directions make the calls `M` and `N`. -/
theorem secures_bidiCopy (M N : Op → Prop) {A B C Q : W → Prop}
    (hM : Clean (¬ M ·) (halfCopy a b)) (hN : Clean (¬ N ·) (halfCopy b a))
    (hab : Secures exec Pre (Next exec Pre R N) (halfCopy a b) (fun _ => A) w)
    (hba : Secures exec Pre (Next exec Pre R M) (halfCopy b a) (fun _ => B) w)
    (hAB : Stable R fun w => A w ∧ B w)
    (ha : ∀ w, A w → B w → Secures exec Pre R a.close (fun _ => C) w)
    (hb : ∀ w, C w → Secures exec Pre R b.close (fun _ => Q) w) :
    Secures exec Pre R (bidiCopy a b) (fun _ => Q) w := by
  have hpar : Secures exec Pre R (Co.par (halfCopy a b) (halfCopy b a))
      (fun _ w => A w ∧ B w) w := .par M N hM hN hab hba (fun _ hA hB => ⟨hA, hB⟩) hAB
  exact .bind (hpar.mono fun _ w hw => .bind ((ha w hw.1 hw.2).mono fun _ w hw => hb w hw))

end Rules

/-! ## Two streams of any kind -/

/-- The calls on the two streams of a pipe. -/
inductive StreamOp where
  | read (z : Side) (n : Nat)
  | write (z : Side) (data : Bytes)
  | shutdownWrite (z : Side)
  | close (z : Side)

abbrev StreamOp.Ans : StreamOp → Type
  | .read .. => StatusOr Bytes
  | .write .. => StatusOr Unit
  | .shutdownWrite _ | .close _ => Unit

/-- From one stream to the other: the bytes `read` returned, and whether it has returned the
end of the stream or an error; the bytes that were written to the other stream, whether a write
failed, and how often its write side was shut down. -/
structure Direction where
  taken : Bytes
  ended : Bool
  given : Bytes
  broken : Bool
  shuts : Nat

/-- The direction from each of the two streams to the other, and how often the stream was
closed. -/
structure Ledger where
  dir : Side → Direction
  closes : Side → Nat

namespace Ledger

/-- Before the first call. -/
def init : Ledger := ⟨fun _ => ⟨[], false, [], false, 0⟩, fun _ => 0⟩

def setDir (w : Ledger) (z : Side) (d : Direction) : Ledger :=
  { w with dir := Function.update w.dir z d }

@[simp] theorem setDir_dir (w : Ledger) (z : Side) (d : Direction) : (w.setDir z d).dir z = d :=
  Function.update_self ..

/-- What the calls do. The streams answer as they like; a write that fails may have written a
part of its bytes. -/
def exec (w : Ledger) : (op : StreamOp) → op.Ans → Ledger → Prop
  | .read z n, .ok data, w' => data.length ≤ n ∧ w' = w.setDir z
      { w.dir z with taken := (w.dir z).taken ++ data, ended := (w.dir z).ended || data.isEmpty }
  | .read z _, .error _, w' => w' = w.setDir z { w.dir z with ended := true }
  | .write z data, .ok (), w' => w' = w.setDir z.other
      { w.dir z.other with given := (w.dir z.other).given ++ data }
  | .write z data, .error _, w' => ∃ k, w' = w.setDir z.other
      { w.dir z.other with given := (w.dir z.other).given ++ data.take k, broken := true }
  | .shutdownWrite z, _, w' => w' = w.setDir z.other
      { w.dir z.other with shuts := (w.dir z.other).shuts + 1 }
  | .close z, _, w' => w' = { w with closes := Function.update w.closes z (w.closes z + 1) }

/-- The two streams. -/
def stream (z : Side) : SessionStream StreamOp StreamOp.Ans where
  read n := Co.await (StreamOp.read z n)
  write data := Co.await (StreamOp.write z data)
  shutdownWrite := Co.await (StreamOp.shutdownWrite z)
  close := Co.await (StreamOp.close z)

end Ledger

/-- Everything that was read has been written and there may be more. -/
structure Direction.Idle (d : Direction) : Prop where
  given_eq : d.given = d.taken
  not_ended : d.ended = false
  not_broken : d.broken = false
  shuts_eq : d.shuts = 0

/-- `data` was read and is to be written. -/
structure Direction.Held (data : Bytes) (d : Direction) : Prop where
  nonempty : data ≠ []
  length_le : data.length ≤ 32 * 1024
  taken_eq : d.taken = d.given ++ data
  not_ended : d.ended = false
  not_broken : d.broken = false
  shuts_eq : d.shuts = 0

/-- The stream has ended with everything written, or a write has failed. -/
def Direction.Through (d : Direction) : Prop :=
  d.given = d.taken ∧ d.ended = true ∨ d.given <+: d.taken ∧ d.broken = true

/-- **When the pipe makes its calls.** It reads when it holds nothing, and as long as neither the
stream has ended nor a write to the other has failed; it writes what the last read returned; it
shuts down a write side once, when everything read has been written or a write has failed; and
it closes a stream, once, when both write sides have been shut down. -/
def Ledger.Proper (w : Ledger) : StreamOp → Prop
  | .read z n => (w.dir z).Idle ∧ n = 32 * 1024
  | .write z data => (w.dir z.other).Held data
  | .shutdownWrite z => (w.dir z.other).Through ∧ (w.dir z.other).shuts = 0
  | .close z => (∀ x, (w.dir x).Through ∧ (w.dir x).shuts = 1) ∧ w.closes z = 0

namespace Ledger

/-- The calls of the direction from `z`. -/
def Along (z : Side) : StreamOp → Prop
  | .read x _ => x = z
  | .write x _ | .shutdownWrite x => x = z.other
  | .close _ => False

/-- A call of one direction leaves the other alone. -/
theorem Along.dir_other {z : Side} {op : StreamOp} {r : op.Ans} {w w' : Ledger} (hop : Along z op)
    (h : exec w op r w') : w'.dir z.other = w.dir z.other ∧ w'.closes = w.closes := by
  cases op with
  | read x n =>
    obtain rfl : x = z := hop
    cases r with
    | ok data =>
      obtain ⟨-, rfl⟩ := h
      exact ⟨Function.update_of_ne x.other_ne _ _, rfl⟩
    | error e =>
      obtain rfl := h
      exact ⟨Function.update_of_ne x.other_ne _ _, rfl⟩
  | write x data =>
    obtain rfl : x = z.other := hop
    cases r with
    | ok u =>
      obtain rfl := h
      simp [setDir]
    | error e =>
      obtain ⟨k, rfl⟩ := h
      simp [setDir]
  | shutdownWrite x =>
    obtain rfl : x = z.other := hop
    obtain rfl := h
    simp [setDir]
  | close x => exact hop.elim

/-- What is asserted in the direction from `z`, where nothing has been closed yet. -/
def On (z : Side) (P : Direction → Prop) (w : Ledger) : Prop := P (w.dir z) ∧ ∀ x, w.closes x = 0

/-- It survives the calls of the other direction. -/
theorem On.stable (z : Side) (P : Direction → Prop) :
    Stable (Next exec Proper Alone (Along z.other)) (On z P) := by
  rintro w w' ⟨hP, hc⟩ (henv | ⟨op, r, hop, -, hexec⟩)
  · exact henv.elim
  · obtain ⟨hdir, hcl⟩ := hop.dir_other hexec
    rw [Side.other_other] at hdir
    exact ⟨hdir ▸ hP, fun x => hcl ▸ hc x⟩

theorem clean_along (z : Side) :
    Clean (¬ Along z ·) (halfCopy (stream z) (stream z.other)) :=
  clean_halfCopy_of (fun _ => .await (not_not.mpr rfl)) (fun _ => .await (not_not.mpr rfl))
    (.await (not_not.mpr rfl))

/-- One direction, next to the other. -/
theorem secures_direction {z : Side} {w : Ledger} (hw : On z Direction.Idle w) :
    Secures exec Proper (Next exec Proper Alone (Along z.other))
      (halfCopy (stream z) (stream z.other))
      (fun _ => On z fun d => d.Through ∧ d.shuts = 1) w := by
  refine secures_halfCopy (On z Direction.Idle) (fun data => On z (Direction.Held data))
    (On z fun d => d.Through ∧ d.shuts = 0) (On.stable z _) (On.stable z _) ?_ ?_ ?_ hw
  · intro w hw
    refine .await _ hw (On.stable z _) (fun w hw => ⟨hw.1, rfl⟩) ?_
      (AfterRead.stable (fun _ => On.stable z _) (On.stable z _))
    rintro w r w' ⟨hidle, hc⟩ hexec
    rcases r with e | (_ | ⟨x, xs⟩)
    · obtain rfl := hexec
      exact ⟨by simpa using ⟨.inl ⟨hidle.given_eq, rfl⟩, hidle.shuts_eq⟩, hc⟩
    · obtain ⟨-, rfl⟩ := hexec
      exact ⟨by simpa [Direction.Through] using ⟨.inl hidle.given_eq, hidle.shuts_eq⟩, hc⟩
    · obtain ⟨hlen, rfl⟩ := hexec
      refine ⟨?_, hc⟩
      rw [setDir_dir]
      exact ⟨by simp, hlen, by simp [hidle.given_eq], by simp [hidle.not_ended],
        hidle.not_broken, hidle.shuts_eq⟩
  · intro data w hw
    refine .await _ hw (On.stable z _) ?_ ?_ (AfterWrite.stable (On.stable z _) (On.stable z _))
    · rintro w ⟨hheld, -⟩
      rw [Proper, Side.other_other]
      exact hheld
    · rintro w r w' ⟨hheld, hc⟩ hexec
      rcases r with e | ⟨⟩
      · obtain ⟨k, rfl⟩ := hexec
        rw [Side.other_other]
        refine ⟨?_, hc⟩
        rw [setDir_dir]
        refine ⟨.inr ⟨?_, rfl⟩, hheld.shuts_eq⟩
        rw [hheld.taken_eq]
        exact (List.prefix_append_right_inj _).mpr (List.take_prefix k data)
      · obtain rfl := hexec
        rw [Side.other_other]
        refine ⟨?_, hc⟩
        rw [setDir_dir]
        exact ⟨hheld.taken_eq.symm, hheld.not_ended, hheld.not_broken, hheld.shuts_eq⟩
  · intro w hw
    refine .await _ hw (On.stable z _) ?_ ?_ fun _ => On.stable z _
    · rintro w ⟨hdone, -⟩
      rw [Proper, Side.other_other]
      exact hdone
    · rintro w r w' ⟨hdone, hc⟩ hexec
      obtain rfl := hexec
      rw [Side.other_other]
      exact ⟨by simpa [Direction.Through, hdone.2] using hdone.1, hc⟩

/-- The directions have ended, and the streams are closed so many times. -/
def Over (client server : Nat) (w : Ledger) : Prop :=
  (∀ z, (w.dir z).Through ∧ (w.dir z).shuts = 1) ∧ w.closes .client = client ∧
    w.closes .server = server

/-- Both directions, and the two streams closed after them. -/
theorem secures_bidiCopy_streams :
    Secures exec Proper Alone (bidiCopy (stream .client) (stream .server))
      (fun _ => Over 1 1) init := by
  have hidle : ∀ z, On z Direction.Idle init := fun z => ⟨⟨rfl, rfl, rfl, rfl⟩, fun _ => rfl⟩
  have hst : ∀ P : Ledger → Prop, Stable Alone P := fun _ _ _ _ h => h.elim
  refine secures_bidiCopy (Along .client) (Along .server) (C := Over 1 0) (clean_along .client)
    (clean_along .server) (secures_direction (hidle .client)) (secures_direction (hidle .server))
    (hst _) ?_ ?_
  · intro w hclient hserver
    have hover : Over 0 0 w :=
      ⟨fun z => by cases z; exacts [hclient.1, hserver.1], hclient.2 _, hclient.2 _⟩
    refine .await (Over 0 0) hover (hst _) (fun w h => ⟨h.1, h.2.1⟩) ?_ fun _ => hst _
    rintro w r w' ⟨hdir, hc, hs⟩ rfl
    exact ⟨hdir, by simp [hc], by simpa using hs⟩
  · intro w hover
    refine .await (Over 1 0) hover (hst _) (fun w h => ⟨h.1, h.2.2⟩) ?_ fun _ => hst _
    rintro w r w' ⟨hdir, hc, hs⟩ rfl
    exact ⟨hdir, by simpa using hc, by simp [hs]⟩

/-- What one stream was given is a part of what was read from the other, from its start. -/
def Faithful (w : Ledger) : Prop := ∀ z, (w.dir z).given <+: (w.dir z).taken

theorem Faithful.setDir {w : Ledger} (h : w.Faithful) (z : Side) {d : Direction}
    (hd : d.given <+: d.taken) : (w.setDir z d).Faithful := by
  intro x
  by_cases hx : x = z
  · subst hx
    simpa using hd
  · simpa [Ledger.setDir, hx] using h x

/-- Calls that are made when it is proper to keep the streams faithful. -/
theorem Faithful.call {w w' : Ledger} {op : StreamOp} {r : op.Ans} (h : w.Faithful)
    (hop : w.Proper op) (hexec : exec w op r w') : w'.Faithful := by
  cases op with
  | read z n =>
    cases r with
    | ok data =>
      obtain ⟨-, rfl⟩ := hexec
      exact h.setDir z ((h z).trans (List.prefix_append _ _))
    | error e =>
      obtain rfl := hexec
      exact h.setDir z (h z)
  | write z data =>
    have htaken : (w.dir z.other).taken = (w.dir z.other).given ++ data := hop.taken_eq
    cases r with
    | ok u =>
      obtain rfl := hexec
      exact h.setDir _ (htaken ▸ List.prefix_rfl)
    | error e =>
      obtain ⟨k, rfl⟩ := hexec
      refine h.setDir _ ?_
      rw [htaken]
      exact (List.prefix_append_right_inj _).mpr (List.take_prefix k data)
  | shutdownWrite z =>
    obtain rfl := hexec
    exact h.setDir _ (h _)
  | close z =>
    obtain rfl := hexec
    exact h

/-- **The pipe is faithful.** In every run of `bidiCopy`, for any behaviour of the two streams and
any order of the two directions: every call is made when it is proper to; at every time what one
stream was given is, from the start and in order, what was read from the other; and when
`bidiCopy` has returned, each write side was shut down once and each stream closed once, and a
direction in which no write failed has delivered everything up to the end of its stream. -/
theorem bidi_copy {c : Co StreamOp StreamOp.Ans Unit} {w : Ledger}
    (hrun : Run exec Alone (bidiCopy (stream .client) (stream .server)) init c w) :
    (∀ op, Awaits c op → w.Proper op) ∧ (∀ z, (w.dir z).given <+: (w.dir z).taken) ∧
      (c = .ret () → ∀ z, (w.dir z).shuts = 1 ∧ w.closes z = 1 ∧
        ((w.dir z).broken = false → (w.dir z).given = (w.dir z).taken ∧ (w.dir z).ended = true)) := by
  have hsec := secures_bidiCopy_streams
  refine ⟨fun op hop => hsec.awaits_run hrun hop, ?_, ?_⟩
  · exact hsec.invariant hrun (fun _ _ _ h => h.elim)
      (fun w op r w' h hop hexec => Faithful.call h hop hexec) fun z => List.nil_prefix
  · rintro rfl z
    obtain ⟨hdir, hc, hs⟩ : Over 1 1 w := hsec.returned hrun
    refine ⟨(hdir z).2, by cases z <;> assumption, fun hbroken => ?_⟩
    obtain hall | ⟨-, hb⟩ := (hdir z).1
    · exact hall
    · rw [hbroken] at hb
      cases hb

/-- The client's stream has sent two bytes, which were passed on. -/
theorem bidi_copy_two_bytes : ∃ c w,
    Run exec Alone (bidiCopy (stream .client) (stream .server)) init c w ∧
      (w.dir .client).given = [1, 2] ∧ (w.dir .client).given <+: (w.dir .client).taken := by
  have hread : Returns exec ((stream .client).read (32 * 1024)) init (.ok [1, 2]) _ :=
    .await ⟨by decide, rfl⟩
  have hwrite (w : Ledger) : Returns exec ((stream .server).write [1, 2]) w (.ok ()) _ :=
    .await rfl
  have hturn : Returns exec (copyTurn (stream .client) (stream .server)) init (.inl ()) _ :=
    hread.bind ((hwrite _).bind .refl)
  have hloop : Run exec Alone (Co.loop (fun _ => copyTurn (stream .client) (stream .server)) ())
      init (Co.loop (fun _ => copyTurn (stream .client) (stream .server)) ()) _ :=
    Returns.turn hturn
  have hrun : Run exec Alone (bidiCopy (stream .client) (stream .server)) init _ _ :=
    (hloop.bind _).left.bind _
  exact ⟨_, _, hrun, rfl, (bidi_copy hrun).2.1 .client⟩

end Ledger

end Shine
