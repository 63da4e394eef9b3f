import Shine.Lib.Lts
import Shine.Transport.Link

/-!
# The state of a session under concurrent calls (`transport/session.cpp`)

`Link.lean` and what builds on it take each method of a session as one step. On a client
link the application runs outside the strand of the link, so `shutdownWrite` and `close`
interleave with `onPeerClose` and `onReset` access by access. Here every load, store and
compare-exchange of `state_`, and every removal from `sessions_`, is a step.

The state only moves forward, and a session that was closed from both sides is gone,
in every run in which nothing else writes `state_` between the load of `onPeerClose` and
the store that depends on it (`state_moves_forward`). `onPeerClose` does not use a
compare-exchange, so a write in between is overwritten.
-/

namespace Shine

namespace Race

/-- Where a call of the application stands. -/
inductive CallPc where
  /-- `shutdownWrite`: `link->isClosed()`. -/
  | shutdownCheck
  /-- `compare_exchange_strong(Open, HalfClosedLocal)`. -/
  | shutdownExchange
  /-- `state_.store(Closed)`, when the exchange has found `HalfClosedRemote`. -/
  | shutdownStore
  | shutdownErase
  /-- `close`: `state_.load`. -/
  | closeLoad
  | closeStore
  | closeErase
  | returned
  deriving DecidableEq

/-- Where the reader of the link stands in `dispatchFrame`. -/
inductive ReaderPc where
  | idle
  /-- `onPeerClose`: `state_.load`. -/
  | peerLoad
  /-- The store that the loaded state asks for. -/
  | peerStore (value : SessionState)
  /-- `s->state() == Closed`. -/
  | peerCheck
  | peerErase
  /-- `onReset`. -/
  | resetStore
  | resetErase
  deriving DecidableEq

end Race

/-- A session, its entry in the table, and the calls that run on it. The three flags
record what has happened: a `shutdownWrite` has returned, other than for a closed link;
one has made its half-close, with all that belongs to it; a CLOSE has been dispatched. -/
structure Race where
  state : SessionState
  inTable : Bool
  linkClosed : Bool
  calls : List Race.CallPc
  reader : Race.ReaderPc
  shutdownReturned : Bool
  shutdownMade : Bool
  closeDispatched : Bool
  deriving DecidableEq

namespace Race

/-- What can happen next. -/
inductive Event where
  | shutdownWrite
  | close
  /-- The call with this number takes a step. -/
  | call (i : Nat)
  | dispatchClose
  | dispatchReset
  /-- The reader takes a step. -/
  | read
  | closeLink
  deriving DecidableEq

variable (r : Race)

/-- The call with number `i` is at `pc` now. -/
def setCall (i : Nat) (pc : CallPc) : Race := { r with calls := r.calls.set i pc }

/-- One step of a call. -/
def callStep (i : Nat) : CallPc → Option Race
  | .shutdownCheck => some (r.setCall i (if r.linkClosed then .returned else .shutdownExchange))
  | .shutdownExchange =>
    match r.state with
    | .opened =>
      some { r.setCall i .returned with
        state := .halfClosedLocal, shutdownReturned := true, shutdownMade := true }
    | .halfClosedRemote => some (r.setCall i .shutdownStore)
    | _ => some { r.setCall i .returned with shutdownReturned := true }
  | .shutdownStore => some { r.setCall i .shutdownErase with state := .closed }
  | .shutdownErase =>
    some { r.setCall i .returned with
      inTable := false, shutdownReturned := true, shutdownMade := true }
  | .closeLoad => some (r.setCall i (if r.state = .closed then .returned else .closeStore))
  | .closeStore => some { r.setCall i .closeErase with state := .closed }
  | .closeErase => some { r.setCall i .returned with inTable := false }
  | .returned => none

/-- One step of the reader. -/
def readerStep : ReaderPc → Option Race
  | .idle => none
  | .peerLoad =>
    match r.state with
    | .halfClosedLocal => some { r with reader := .peerStore .closed }
    | .opened => some { r with reader := .peerStore .halfClosedRemote }
    | _ => some { r with reader := .peerCheck }
  | .peerStore value => some { r with state := value, reader := .peerCheck }
  | .peerCheck =>
    if r.state = .closed then some { r with reader := .peerErase }
    else some { r with reader := .idle, closeDispatched := true }
  | .peerErase => some { r with inTable := false, reader := .idle, closeDispatched := true }
  | .resetStore => some { r with state := .closed, reader := .resetErase }
  | .resetErase => some { r with inTable := false, reader := .idle }

/-- One step. A frame is dispatched when the reader is done with the one before; it does
nothing if `findSession` finds nothing. -/
def step : Event → Option Race
  | .shutdownWrite => some { r with calls := r.calls ++ [.shutdownCheck] }
  | .close => some { r with calls := r.calls ++ [.closeLoad] }
  | .call i => r.calls[i]?.bind (r.callStep i)
  | .dispatchClose =>
    if r.reader = .idle then
      some { r with reader := if r.inTable then .peerLoad else .idle }
    else none
  | .dispatchReset =>
    if r.reader = .idle then
      some { r with reader := if r.inTable then .resetStore else .idle }
    else none
  | .read => r.readerStep r.reader
  | .closeLink => some { r with linkClosed := true }

/-- All interleavings. -/
def system : Lts Race Event := ⟨step⟩

/-- A new session, on an open link. -/
def start : Race := ⟨.opened, true, false, [], .idle, false, false, false⟩

/-- The step of a call writes `state_`. -/
def CallPc.writes (s : SessionState) : CallPc → Bool
  | .shutdownExchange => s = .opened
  | .shutdownStore => true
  | .closeStore => true
  | _ => false

/-- The event is a write of `state_` by a call. -/
def writes : Event → Bool
  | .call i => r.calls[i]?.any (CallPc.writes r.state)
  | _ => false

/-- Nothing else writes `state_` while `onPeerClose` has loaded `Open` and is about to
store `HalfClosedRemote`. -/
def Undisturbed (e : Event) : Prop :=
  r.reader = .peerStore .halfClosedRemote → r.writes e = false

instance : DecidableRel Undisturbed := fun _ _ => inferInstanceAs (Decidable (_ → _))

/-- A state may follow another: nothing follows `Closed`, and a half-close stays. -/
def Forward (s t : SessionState) : Prop :=
  s = t ∨ t = .closed ∨ (s = .opened ∧ (t = .halfClosedLocal ∨ t = .halfClosedRemote))

/-! ## What the positions say about the state -/

/-- The state was closed by one side at least. -/
def ByPeer (s : SessionState) : Prop := s = .halfClosedRemote ∨ s = .closed

/-- The state was closed by this side at least. -/
def ByUs (s : SessionState) : Prop := s = .halfClosedLocal ∨ s = .closed

theorem ByPeer.forward {s t : SessionState} (h : ByPeer s) (hf : Forward s t) : ByPeer t := by
  rcases hf with rfl | rfl | ⟨rfl, _⟩
  · exact h
  · exact .inr rfl
  · rcases h with h | h <;> cases h

theorem ByUs.forward {s t : SessionState} (h : ByUs s) (hf : Forward s t) : ByUs t := by
  rcases hf with rfl | rfl | ⟨rfl, _⟩
  · exact h
  · exact .inr rfl
  · rcases h with h | h <;> cases h

theorem closed_forward {s t : SessionState} (h : s = .closed) (hf : Forward s t) : t = .closed := by
  subst h
  rcases hf with rfl | rfl | ⟨h, _⟩
  · rfl
  · rfl
  · cases h

theorem ByUs.eq_closed {s : SessionState} (h : ByUs s) (h' : ByPeer s) : s = .closed := by
  rcases h with rfl | rfl
  · rcases h' with h' | h' <;> cases h'
  · rfl

/-- What the position of a call says about the state. -/
def CallOk (s : SessionState) : CallPc → Prop
  | .shutdownStore => ByPeer s
  | .shutdownErase => s = .closed
  | _ => True

/-- What the position of the reader says about the state. -/
def ReaderOk (s : SessionState) : ReaderPc → Prop
  | .peerStore .halfClosedRemote => s = .opened
  | .peerStore .closed => ByUs s
  | .peerStore _ => False
  | .peerCheck => ByPeer s
  | .peerErase => s = .closed
  | _ => True

variable {r} {s t : SessionState} {pc : CallPc}

theorem CallOk.forward (h : CallOk s pc) (hf : Forward s t) : CallOk t pc := by
  cases pc with
  | shutdownStore => exact ByPeer.forward h hf
  | shutdownErase => exact closed_forward h hf
  | _ => trivial

/-- The reader relies on the state not changing in one position only. -/
theorem ReaderOk.forward {pc : ReaderPc} (h : ReaderOk s pc) (hf : Forward s t)
    (hstay : pc = .peerStore .halfClosedRemote → s = t) : ReaderOk t pc := by
  cases pc with
  | peerStore value =>
    cases value with
    | halfClosedRemote => exact hstay rfl ▸ h
    | closed => exact ByUs.forward h hf
    | _ => exact h
  | peerCheck => exact ByPeer.forward h hf
  | peerErase => exact closed_forward h hf
  | _ => trivial

/-- The positions and the flags fit a state. -/
structure Fits (r : Race) (s : SessionState) : Prop where
  calls : ∀ pc ∈ r.calls, CallOk s pc
  reader : ReaderOk s r.reader
  dispatched : r.closeDispatched = true → ByPeer s
  returned : r.shutdownReturned = true → ByUs s

/-- The invariant of undisturbed runs. -/
structure Inv (r : Race) : Prop where
  started : r.state ≠ .init
  fits : r.Fits r.state
  made : r.shutdownMade = true → r.shutdownReturned = true
  erased : r.shutdownMade = true → r.closeDispatched = true → r.inTable = false

theorem Fits.forward (h : r.Fits s) (hf : Forward s t)
    (hstay : r.reader = .peerStore .halfClosedRemote → s = t) : r.Fits t where
  calls pc hpc := (h.calls pc hpc).forward hf
  reader := h.reader.forward hf hstay
  dispatched hd := (h.dispatched hd).forward hf
  returned hr := (h.returned hr).forward hf

theorem Fits.setCall (h : r.Fits s) (i : Nat) (pc : CallPc) (hpc : CallOk s pc) :
    (r.setCall i pc).Fits s where
  calls pc' hmem := by
    rcases List.mem_or_eq_of_mem_set hmem with hmem | rfl
    · exact h.calls pc' hmem
    · exact hpc
  reader := h.reader
  dispatched := h.dispatched
  returned := h.returned

theorem Forward.ne_init (hf : Forward s t) (hs : s ≠ .init) : t ≠ .init := by
  rcases hf with rfl | rfl | ⟨_, rfl | rfl⟩
  · exact hs
  all_goals decide

theorem inv_start : start.Inv where
  started := by decide
  fits := {
    calls := fun _ h => absurd h List.not_mem_nil
    reader := trivial
    dispatched := fun h => absurd h (by decide)
    returned := fun h => absurd h (by decide) }
  made h := absurd h (by decide)
  erased h := absurd h (by decide)

/-! ## Steps -/

variable {r' : Race} {i : Nat}

/-- A call that neither returns from `shutdownWrite` nor erases the session. -/
theorem Inv.moveCall (h : r.Inv) (hf : Forward r.state t)
    (hstay : r.reader = .peerStore .halfClosedRemote → r.state = t) (i : Nat) (hpc : CallOk t pc) :
    Forward r.state t ∧ Inv { r.setCall i pc with state := t } := by
  have hfits := (h.fits.forward hf hstay).setCall i pc hpc
  exact ⟨hf, hf.ne_init h.started,
    ⟨hfits.calls, hfits.reader, hfits.dispatched, hfits.returned⟩, h.made, h.erased⟩

/-- A call moves the state forward, if it does not get between the two accesses of
`onPeerClose`. -/
theorem Inv.callStep (h : r.Inv) (hmem : pc ∈ r.calls)
    (hquiet : r.reader = .peerStore .halfClosedRemote → pc.writes r.state = false)
    (hstep : r.callStep i pc = some r') : Forward r.state r'.state ∧ r'.Inv := by
  have hpc := h.fits.calls pc hmem
  cases pc with
  | shutdownCheck =>
    cases hstep
    exact h.moveCall (.inl rfl) (fun _ => rfl) i (by split <;> trivial)
  | shutdownExchange =>
    rw [Race.callStep] at hstep
    split at hstep
    · next hstate =>
      cases hstep
      have hf : Forward r.state .halfClosedLocal := .inr (.inr ⟨hstate, .inl rfl⟩)
      have hstay : r.reader = .peerStore .halfClosedRemote → r.state = .halfClosedLocal := by
        intro hreader
        have hno := hquiet hreader
        rw [hstate] at hno
        cases hno
      have hfits := (h.fits.forward hf hstay).setCall i .returned trivial
      -- nobody has closed the session from the other side
      have hnot : r.closeDispatched = true → False := by
        intro hd
        rcases h.fits.dispatched hd with hs | hs
        · rw [hstate] at hs; cases hs
        · rw [hstate] at hs; cases hs
      exact ⟨hf, hf.ne_init h.started,
        ⟨hfits.calls, hfits.reader, hfits.dispatched, fun _ => .inl rfl⟩, fun _ => rfl, fun _ hd => (hnot hd).elim⟩
    · next hstate =>
      cases hstep
      exact h.moveCall (.inl rfl) (fun _ => rfl) i (.inl hstate)
    · next hopen hremote =>
      cases hstep
      have hfits := h.fits.setCall i .returned trivial
      have hus : ByUs r.state := by
        cases hs : r.state with
        | init => exact absurd hs h.started
        | opened => exact absurd hs hopen
        | halfClosedLocal => exact .inl rfl
        | halfClosedRemote => exact absurd hs hremote
        | closed => exact .inr rfl
      exact ⟨.inl rfl, h.started, ⟨hfits.calls, hfits.reader, hfits.dispatched, fun _ => hus⟩,
        fun _ => rfl, h.erased⟩
  | shutdownStore =>
    cases hstep
    exact h.moveCall (.inr (.inl rfl)) (fun hreader => by cases hquiet hreader) i rfl
  | shutdownErase =>
    cases hstep
    have hfits := h.fits.setCall i .returned trivial
    exact ⟨.inl rfl, h.started, ⟨hfits.calls, hfits.reader, hfits.dispatched, fun _ => .inr hpc⟩,
      fun _ => rfl, fun _ _ => rfl⟩
  | closeLoad =>
    cases hstep
    exact h.moveCall (.inl rfl) (fun _ => rfl) i (by split <;> trivial)
  | closeStore =>
    cases hstep
    exact h.moveCall (.inr (.inl rfl)) (fun hreader => by cases hquiet hreader) i trivial
  | closeErase =>
    cases hstep
    have hfits := h.fits.setCall i .returned trivial
    exact ⟨.inl rfl, h.started, ⟨hfits.calls, hfits.reader, hfits.dispatched, hfits.returned⟩,
      h.made, fun _ _ => rfl⟩
  | returned => cases hstep

/-- The reader goes on, and the state stays. -/
theorem Inv.moveReader (h : r.Inv) {pc : ReaderPc} (hpc : ReaderOk r.state pc) :
    Forward r.state r.state ∧ Inv { r with reader := pc } :=
  ⟨.inl rfl, h.started, ⟨h.fits.calls, hpc, h.fits.dispatched, h.fits.returned⟩, h.made, h.erased⟩

/-- So does the reader. -/
theorem Inv.readerStep (h : r.Inv) (hstep : r.readerStep r.reader = some r') :
    Forward r.state r'.state ∧ r'.Inv := by
  have hpc := h.fits.reader
  cases hreader : r.reader with
  | idle => rw [hreader] at hstep; cases hstep
  | peerLoad =>
    rw [hreader, Race.readerStep] at hstep
    split at hstep
    · next hstate =>
      cases hstep
      exact h.moveReader (.inl hstate)
    · next hstate =>
      cases hstep
      exact h.moveReader hstate
    · next hlocal hopen =>
      cases hstep
      have hpeer : ByPeer r.state := by
        cases hs : r.state with
        | init => exact absurd hs h.started
        | opened => exact absurd hs hopen
        | halfClosedLocal => exact absurd hs hlocal
        | halfClosedRemote => exact .inl rfl
        | closed => exact .inr rfl
      exact h.moveReader hpeer
  | peerStore value =>
    rw [hreader] at hstep hpc
    cases hstep
    -- the loaded state is still the state, or it was `HalfClosedLocal`
    have hf : Forward r.state value ∧ ByPeer value := by
      cases value with
      | halfClosedRemote => exact ⟨.inr (.inr ⟨hpc, .inr rfl⟩), .inl rfl⟩
      | closed => exact ⟨.inr (.inl rfl), .inr rfl⟩
      | init => exact hpc.elim
      | opened => exact hpc.elim
      | halfClosedLocal => exact hpc.elim
    exact ⟨hf.1, hf.1.ne_init h.started,
      ⟨fun pc hmem => (h.fits.calls pc hmem).forward hf.1, hf.2,
        fun hd => (h.fits.dispatched hd).forward hf.1,
        fun hr => (h.fits.returned hr).forward hf.1⟩, h.made, h.erased⟩
  | peerCheck =>
    rw [hreader] at hpc
    rw [hreader, Race.readerStep] at hstep
    split at hstep
    · next hstate =>
      cases hstep
      exact h.moveReader hstate
    · next hstate =>
      cases hstep
      refine ⟨.inl rfl, h.started, ⟨h.fits.calls, trivial, fun _ => hpc, h.fits.returned⟩,
        h.made, fun hmade _ => ?_⟩
      -- both sides have closed the session, so the check cannot have failed
      exact absurd ((h.fits.returned (h.made hmade)).eq_closed hpc) hstate
  | peerErase =>
    rw [hreader] at hstep hpc
    cases hstep
    exact ⟨.inl rfl, h.started, ⟨h.fits.calls, trivial, fun _ => .inr hpc, h.fits.returned⟩,
      h.made, fun _ _ => rfl⟩
  | resetStore =>
    rw [hreader] at hstep
    cases hstep
    have hf : Forward r.state .closed := .inr (.inl rfl)
    have hfits := h.fits.forward hf fun hr => by rw [hreader] at hr; cases hr
    exact ⟨hf, hf.ne_init h.started, ⟨hfits.calls, trivial, hfits.dispatched, hfits.returned⟩,
      h.made, h.erased⟩
  | resetErase =>
    rw [hreader] at hstep
    cases hstep
    exact ⟨.inl rfl, h.started, ⟨h.fits.calls, trivial, h.fits.dispatched, h.fits.returned⟩,
      h.made, fun _ _ => rfl⟩

/-- A step of an undisturbed run. -/
theorem Inv.step {e : Event} (h : r.Inv) (hquiet : r.Undisturbed e)
    (hstep : r.step e = some r') : Forward r.state r'.state ∧ r'.Inv := by
  have hcall (pc : CallPc) (hpc : CallOk r.state pc) :
      Forward r.state r.state ∧ Inv { r with calls := r.calls ++ [pc] } := by
    refine ⟨.inl rfl, h.started, ⟨fun pc' hmem => ?_, h.fits.reader, h.fits.dispatched,
      h.fits.returned⟩, h.made, h.erased⟩
    rcases List.mem_append.mp hmem with hmem | hmem
    · exact h.fits.calls pc' hmem
    · rw [List.mem_singleton.mp hmem]
      exact hpc
  cases e with
  | shutdownWrite =>
    cases hstep
    exact hcall .shutdownCheck trivial
  | close =>
    cases hstep
    exact hcall .closeLoad trivial
  | call i =>
    obtain ⟨pc, hpc, hstep⟩ := Option.bind_eq_some_iff.mp hstep
    refine h.callStep (List.mem_of_getElem? hpc) (fun hreader => ?_) hstep
    have hno := hquiet hreader
    rw [writes, hpc] at hno
    exact hno
  | dispatchClose =>
    rw [Race.step] at hstep
    split at hstep
    · cases hstep
      exact h.moveReader (by split <;> trivial)
    · cases hstep
  | dispatchReset =>
    rw [Race.step] at hstep
    split at hstep
    · cases hstep
      exact h.moveReader (by split <;> trivial)
    · cases hstep
  | read => exact h.readerStep hstep
  | closeLink =>
    cases hstep
    exact ⟨.inl rfl, h.started, ⟨h.fits.calls, h.fits.reader, h.fits.dispatched,
      h.fits.returned⟩, h.made, h.erased⟩

theorem inv_of_undisturbed (h : system.Reach Undisturbed start r) : r.Inv :=
  h.invariant inv_start fun _ _ _ hinv hquiet hstep => (hinv.step hquiet hstep).2

/-- **The state of a session only moves forward in undisturbed runs.** No step leaves
`Closed` or takes a half-close back; when a `shutdownWrite` has returned and a CLOSE has
been dispatched the session is closed, and if that `shutdownWrite` has made its half-close
the session is gone from the table. A run is undisturbed if no call writes `state_` between
the load of `Open` in `onPeerClose` and the store of `HalfClosedRemote`. -/
theorem state_moves_forward (h : system.Reach Undisturbed start r) :
    (∀ e r', r.Undisturbed e → r.step e = some r' → Forward r.state r'.state) ∧
    (r.shutdownReturned = true → r.closeDispatched = true → r.state = .closed) ∧
    (r.shutdownMade = true → r.closeDispatched = true → r.inTable = false) := by
  have hinv := inv_of_undisturbed h
  refine ⟨fun e r' hquiet hstep => (hinv.step hquiet hstep).1, fun hr hd => ?_, hinv.erased⟩
  exact (hinv.fits.returned hr).eq_closed (hinv.fits.dispatched hd)

/-- Both sides close the session, one after the other. -/
def sampleEvents : List Event :=
  [.shutdownWrite, .call 0, .call 0, .dispatchClose, .read, .read, .read, .read]

theorem state_moves_forward_sample :
    ∃ r, system.Reach Undisturbed start r ∧ r.shutdownMade = true ∧ r.closeDispatched = true ∧
      r.state = .closed ∧ r.inTable = false := by
  have hreach : system.Reach Undisturbed start _ := Lts.reach_of_exec sampleEvents rfl
  have hforward := state_moves_forward hreach
  exact ⟨_, hreach, rfl, rfl, hforward.2.1 rfl rfl, hforward.2.2 rfl rfl⟩

/-- A `shutdownWrite` between the load and the store of `onPeerClose`: its half-close is
taken back, and the session stays half-closed and in the table although both sides have
closed it. -/
theorem state_moves_forward_fails_on_race :
    (¬ ∀ r, system.Reach Lts.Free start r → ∀ e r', r.step e = some r' →
      Forward r.state r'.state) ∧
    (¬ ∀ r, system.Reach Lts.Free start r → r.shutdownReturned = true →
      r.closeDispatched = true → r.state = .closed) ∧
    (¬ ∀ r, system.Reach Lts.Free start r → r.shutdownMade = true →
      r.closeDispatched = true → r.inTable = false) := by
  have hrace : system.Reach Lts.Free start _ :=
    Lts.reach_of_exec [.shutdownWrite, .call 0, .dispatchClose, .read, .call 0] rfl
  have hlost : system.Reach Lts.Free start _ := Lts.reach_of_exec
    [.shutdownWrite, .call 0, .dispatchClose, .read, .call 0, .read, .read] rfl
  refine ⟨fun h => ?_, fun h => ?_, fun h => ?_⟩
  · rcases h _ hrace .read _ rfl with h | h | ⟨h, _⟩ <;> cases h
  · cases h _ hlost rfl rfl
  · cases h _ hlost rfl rfl

end Race

end Shine
