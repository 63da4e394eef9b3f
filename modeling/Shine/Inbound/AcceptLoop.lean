import Shine.Lib.Lts

/-!
# The links of a shine inbound (`inbound/shine_inbound.cpp`)

`ShineInbound::acceptLoop` makes a link of every connection and puts it into `links_`, in a
critical section that first drops the links that are closed. `stop` sets `stopping_`, closes the
acceptor and closes the links that it finds in `links_`. A connection can have been accepted
before and come to the critical section after that; `main` has two handlers that call `stop`, so
there may be several calls at a time. The model has one step for each of these pieces.

- `links_bounded`: every open link is in `links_` or about to be put there, and what an insertion
  leaves in `links_` is open, except that the new link may have failed.
- `stop_leaves_iff`: which links are open after `stop`; there is at most one, and that only if the
  loop was between an accept and its critical section when `stop` went through its own.
-/

namespace Shine

/-- Where `acceptLoop` stands. -/
inductive AcceptPc where
  /-- At the condition of the loop. -/
  | check
  /-- In `async_accept`. -/
  | accepting
  /-- `async_accept` has completed with a connection, and the loop has not gone on. -/
  | accepted
  /-- A link has been made and started; the loop is about to enter its critical section. -/
  | insert (link : Nat)
  | ended
  deriving DecidableEq

/-- Where a call of `stop` stands: after which of its three pieces. -/
inductive StopPc where
  | start
  | stored
  | acceptorClosed
  | done
  deriving DecidableEq

/-- `ShineInbound`: the links are numbered as they are made. -/
structure AcceptLoop where
  pc : AcceptPc
  stopping : Bool
  acceptorOpen : Bool
  /-- The calls of `stop`. -/
  stops : Nat → StopPc
  /-- `links_`. -/
  links : List Nat
  /-- How many links have been made. -/
  made : Nat
  /-- `closed_` of the links. -/
  closed : Nat → Bool

namespace AcceptLoop

/-- What can happen. -/
inductive Event where
  /-- The loop looks at `stopping_`. -/
  | check
  /-- `async_accept` completes with a connection. -/
  | connect
  /-- It completes with an error. -/
  | refuse
  /-- The loop makes a link and starts it. -/
  | make
  /-- The critical section of the loop. -/
  | insert
  /-- The link fails, for a reason of its own. -/
  | fail (link : Nat)
  /-- The call of `stop` sets `stopping_`. -/
  | store (k : Nat)
  /-- It closes the acceptor. -/
  | closeAcceptor (k : Nat)
  /-- Its critical section. -/
  | clear (k : Nat)

/-- The critical section of the loop. -/
def insertLink (s : AcceptLoop) (l : Nat) : AcceptLoop :=
  { s with pc := .check, links := s.links.filter (fun l => !s.closed l) ++ [l] }

@[simp] theorem insertLink_closed (s : AcceptLoop) (l : Nat) :
    (s.insertLink l).closed = s.closed := rfl

/-- The critical section of `stop`. -/
def clearLinks (s : AcceptLoop) (k : Nat) : AcceptLoop :=
  { s with
    stops := Function.update s.stops k .done
    closed := fun l => s.closed l || l ∈ s.links
    links := [] }

def step (s : AcceptLoop) : Event → Option AcceptLoop
  | .check =>
    match s.pc with
    | .check => some { s with pc := if s.stopping then .ended else .accepting }
    | _ => none
  | .connect =>
    match s.pc with
    | .accepting => if s.acceptorOpen then some { s with pc := .accepted } else none
    | _ => none
  | .refuse =>
    match s.pc with
    | .accepting => some { s with pc := .ended }
    | _ => none
  | .make =>
    match s.pc with
    | .accepted => some { s with pc := .insert s.made, made := s.made + 1 }
    | _ => none
  | .insert =>
    match s.pc with
    | .insert l => some (s.insertLink l)
    | _ => none
  | .fail l =>
    if l < s.made then some { s with closed := Function.update s.closed l true } else none
  | .store k =>
    match s.stops k with
    | .start => some { s with stopping := true, stops := Function.update s.stops k .stored }
    | _ => none
  | .closeAcceptor k =>
    match s.stops k with
    | .stored =>
      some { s with acceptorOpen := false, stops := Function.update s.stops k .acceptorClosed }
    | _ => none
  | .clear k =>
    match s.stops k with
    | .acceptorClosed => some (s.clearLinks k)
    | _ => none

/-- All runs. -/
def system : Lts AcceptLoop Event := ⟨step⟩

/-- An inbound that has just been started. -/
def start : AcceptLoop where
  pc := .check
  stopping := false
  acceptorOpen := true
  stops _ := .start
  links := []
  made := 0
  closed _ := false

/-- The link has been made and is not closed. -/
def Open (s : AcceptLoop) (l : Nat) : Prop := l < s.made ∧ s.closed l = false

/-- What a step can do. -/
inductive Moves (s : AcceptLoop) : AcceptLoop → Prop where
  | check (hpc : s.pc = .check) : Moves s { s with pc := if s.stopping then .ended else .accepting }
  | connect (hpc : s.pc = .accepting) (hopen : s.acceptorOpen = true) :
    Moves s { s with pc := .accepted }
  | refuse (hpc : s.pc = .accepting) : Moves s { s with pc := .ended }
  | make (hpc : s.pc = .accepted) : Moves s { s with pc := .insert s.made, made := s.made + 1 }
  | insert {l : Nat} (hpc : s.pc = .insert l) : Moves s (s.insertLink l)
  | fail {l : Nat} (hl : l < s.made) :
    Moves s { s with closed := Function.update s.closed l true }
  | store {k : Nat} (hk : s.stops k = .start) :
    Moves s { s with stopping := true, stops := Function.update s.stops k .stored }
  | closeAcceptor {k : Nat} (hk : s.stops k = .stored) :
    Moves s { s with acceptorOpen := false, stops := Function.update s.stops k .acceptorClosed }
  | clear {k : Nat} (hk : s.stops k = .acceptorClosed) : Moves s (s.clearLinks k)

theorem moves_of_step {s t : AcceptLoop} {e : Event} (h : s.step e = some t) : Moves s t := by
  cases e <;> simp only [step] at h
  case check =>
    split at h <;> cases h
    exact .check ‹_›
  case connect =>
    split at h
    · split_ifs at h with hopen
      cases h
      exact .connect ‹_› hopen
    · cases h
  case refuse =>
    split at h <;> cases h
    exact .refuse ‹_›
  case make =>
    split at h <;> cases h
    exact .make ‹_›
  case insert =>
    split at h <;> cases h
    exact .insert ‹_›
  case fail =>
    split_ifs at h with hl
    cases h
    exact .fail hl
  case store =>
    split at h <;> cases h
    exact .store ‹_›
  case closeAcceptor =>
    split at h <;> cases h
    exact .closeAcceptor ‹_›
  case clear =>
    split at h <;> cases h
    exact .clear ‹_›

/-! ## Where an open link can be -/

/-- What holds in every state. -/
structure Inv (s : AcceptLoop) : Prop where
  nodup : s.links.Nodup
  made : ∀ l ∈ s.links, l < s.made
  /-- A link on its way is the last one made, and not in `links_` yet. -/
  flying : ∀ l, s.pc = .insert l → l + 1 = s.made ∧ l ∉ s.links
  found : ∀ l, s.Open l → l ∈ s.links ∨ s.pc = .insert l
  closedNew : ∀ l, s.closed l = true → l < s.made
  /-- What a call of `stop` has done. -/
  stopping : ∀ k, s.stops k ≠ .start → s.stopping = true
  acceptor : ∀ k, s.stops k = .acceptorClosed ∨ s.stops k = .done → s.acceptorOpen = false

section Inv

variable {s t : AcceptLoop}

theorem Inv.start : Inv start where
  nodup := List.nodup_nil
  made := nofun
  flying := nofun
  found l h := absurd h.1 (Nat.not_lt_zero l)
  closedNew := nofun
  stopping k h := absurd rfl h
  acceptor k h := by rcases h with h | h <;> cases h

/-- The loop goes on without a link on its way. -/
theorem Inv.setPc (h : Inv s) {pc : AcceptPc} (hold : ∀ l, s.pc ≠ .insert l)
    (hnew : ∀ l, pc ≠ .insert l) : Inv { s with pc := pc } :=
  { h with
    flying := fun l hl => absurd hl (hnew l)
    found := fun l hl => (h.found l hl).imp_right fun hpc => absurd hpc (hold l) }

theorem Inv.make (h : Inv s) (hpc : s.pc = .accepted) :
    Inv { s with pc := .insert s.made, made := s.made + 1 } where
  nodup := h.nodup
  made l hl := Nat.lt_succ_of_lt (h.made l hl)
  flying := by
    rintro l ⟨⟩
    exact ⟨rfl, fun hl => Nat.lt_irrefl _ (h.made _ hl)⟩
  found := by
    rintro l ⟨hl, hclosed⟩
    rcases Nat.lt_succ_iff_lt_or_eq.mp hl with hl | rfl
    · rcases h.found l ⟨hl, hclosed⟩ with hmem | hl'
      · exact .inl hmem
      · rw [hpc] at hl'
        cases hl'
    · exact .inr rfl
  closedNew l hl := Nat.lt_succ_of_lt (h.closedNew l hl)
  stopping := h.stopping
  acceptor := h.acceptor

theorem Inv.insertLink (h : Inv s) {l : Nat} (hpc : s.pc = .insert l) : Inv (s.insertLink l) := by
  obtain ⟨hmade, hnew⟩ := h.flying l hpc
  refine { h with nodup := ?_, made := ?_, flying := nofun, found := ?_ }
  · refine (h.nodup.filter _).append (List.nodup_singleton l) ?_
    simpa using fun hmem => absurd hmem hnew
  · intro l' hl'
    rcases List.mem_append.mp hl' with hl' | hl'
    · exact h.made l' (List.mem_of_mem_filter hl')
    · obtain rfl := List.mem_singleton.mp hl'
      show l' < s.made
      omega
  · rintro l' ⟨hl', hclosed⟩
    refine .inl (List.mem_append.mpr ?_)
    rcases h.found l' ⟨hl', hclosed⟩ with hmem | hl''
    · exact .inl (List.mem_filter.mpr ⟨hmem, by simpa using hclosed⟩)
    · rw [hpc] at hl''
      cases hl''
      exact .inr (List.mem_singleton.mpr rfl)

theorem Inv.fail (h : Inv s) {l : Nat} (hl : l < s.made) :
    Inv { s with closed := Function.update s.closed l true } := by
  refine { h with found := ?_, closedNew := ?_ }
  · rintro l' ⟨hl', hclosed⟩
    refine h.found l' ⟨hl', ?_⟩
    simp only [Function.update_apply] at hclosed
    split_ifs at hclosed
    exact hclosed
  · intro l' hclosed
    simp only [Function.update_apply] at hclosed
    split_ifs at hclosed with heq
    · rw [heq]
      exact hl
    · exact h.closedNew l' hclosed

/-- A call of `stop` goes on. -/
theorem Inv.setStop (h : Inv s) {k : Nat} {pc : StopPc} {stopping acceptorOpen : Bool}
    (hstopping : stopping = true) (hkeeps : s.acceptorOpen = false → acceptorOpen = false)
    (hpc : pc = .acceptorClosed ∨ pc = .done → acceptorOpen = false) :
    Inv { s with
      stopping := stopping
      acceptorOpen := acceptorOpen
      stops := Function.update s.stops k pc } := by
  refine { h with stopping := fun _ _ => hstopping, acceptor := ?_ }
  intro k' hk'
  simp only [Function.update_apply] at hk'
  split_ifs at hk'
  · exact hpc hk'
  · exact hkeeps (h.acceptor k' hk')

theorem Inv.clearLinks (h : Inv s) {k : Nat} (hk : s.stops k = .acceptorClosed) :
    Inv (s.clearLinks k) := by
  have hstop : Inv { s with stops := Function.update s.stops k .done } :=
    h.setStop (h.stopping k (by rw [hk]; nofun)) id fun _ => h.acceptor k (.inl hk)
  refine { hstop with
    nodup := List.nodup_nil
    made := nofun
    flying := fun l hl => ⟨(h.flying l hl).1, nofun⟩
    found := ?_
    closedNew := ?_ }
  · rintro l ⟨hl, hclosed⟩
    obtain ⟨hclosed, hmem⟩ : s.closed l = false ∧ l ∉ s.links := by
      simpa [AcceptLoop.clearLinks] using hclosed
    exact .inr ((h.found l ⟨hl, hclosed⟩).resolve_left hmem)
  · intro l hclosed
    simp only [AcceptLoop.clearLinks, Bool.or_eq_true, decide_eq_true_eq] at hclosed
    rcases hclosed with hclosed | hmem
    · exact h.closedNew l hclosed
    · exact h.made l hmem

theorem Inv.moves (h : Inv s) (hmoves : Moves s t) : Inv t := by
  cases hmoves with
  | check hpc => exact h.setPc (by simp [hpc]) fun l => by split_ifs <;> nofun
  | connect hpc _ => exact h.setPc (by simp [hpc]) nofun
  | refuse hpc => exact h.setPc (by simp [hpc]) nofun
  | make hpc => exact h.make hpc
  | insert hpc => exact h.insertLink hpc
  | fail hl => exact h.fail hl
  | store hk => exact h.setStop rfl id (by rintro (h | h) <;> cases h)
  | closeAcceptor hk =>
    exact h.setStop (h.stopping _ (by rw [hk]; nofun)) (fun _ => rfl) fun _ => rfl
  | clear hk => exact h.clearLinks hk

theorem Inv.reach (hr : system.Reach Lts.Free s t) (h : Inv s) : Inv t :=
  hr.invariant h fun _ _ _ h _ hstep => h.moves (moves_of_step hstep)

end Inv

/-- **`links_` follows the open links.** In every state every open link is in `links_`, or about to
be put there by the loop, and no link is there twice. An insertion leaves in `links_`, besides the
new link, open links only: their number is at most that of the open links. -/
theorem links_bounded {s : AcceptLoop} (hs : system.Reach Lts.Free start s) :
    (∀ l, s.Open l → l ∈ s.links ∨ s.pc = .insert l) ∧ s.links.Nodup ∧
      ∀ t, s.step .insert = some t → ∃ l, s.pc = .insert l ∧ l ∈ t.links ∧
        ∀ l' ∈ t.links, l' = l ∨ t.Open l' := by
  have h : Inv s := Inv.start.reach hs
  refine ⟨h.found, h.nodup, fun t hstep => ?_⟩
  simp only [step] at hstep
  split at hstep
  · next l hpc =>
    cases hstep
    refine ⟨l, hpc, by simp [insertLink], fun l' hl' => ?_⟩
    rcases List.mem_append.mp hl' with hl' | hl'
    · obtain ⟨hmem, hopen⟩ := List.mem_filter.mp hl'
      exact .inr ⟨h.made l' hmem, by simpa using hopen⟩
    · exact .inl (List.mem_singleton.mp hl')
  · cases hstep

/-- The first link fails while the second is made, and is dropped. -/
theorem links_bounded_one_failed :
    ∃ s t, system.Reach Lts.Free start s ∧ s.links = [0] ∧ s.step .insert = some t ∧
      t.links = [1] ∧ ∃ l, s.pc = .insert l ∧ l ∈ t.links ∧ ∀ l' ∈ t.links, l' = l ∨ t.Open l' := by
  have hs : system.Reach Lts.Free start _ := Lts.reach_of_exec
    [.check, .connect, .make, .insert, .check, .connect, .make, .fail 0] rfl
  exact ⟨_, _, hs, rfl, rfl, rfl, (links_bounded hs).2.2 _ rfl⟩

/-! ## After `stop` -/

/-- The link of the connection that has been accepted and is not in `links_` yet. -/
def onTheWay (s : AcceptLoop) : Option Nat :=
  match s.pc with
  | .accepted => some s.made
  | .insert l => some l
  | _ => none

/-- What holds after the critical section of a `stop`, when the link `c` was on its way. -/
structure After (c : Option Nat) (s : AcceptLoop) : Prop where
  stopping : s.stopping = true
  acceptor : s.acceptorOpen = false
  linked : ∀ l ∈ s.links, c = some l
  flying : ∀ l, s.onTheWay = some l → c = some l

section After

variable {s t u : AcceptLoop} {c : Option Nat}

theorem Inv.not_mem_of_onTheWay (h : Inv s) {l : Nat} (hl : s.onTheWay = some l) :
    l ∉ s.links := by
  cases hpc : s.pc with
  | accepted =>
    rw [onTheWay, hpc] at hl
    cases hl
    exact fun hmem => Nat.lt_irrefl _ (h.made _ hmem)
  | insert l' =>
    rw [onTheWay, hpc] at hl
    cases hl
    exact (h.flying l hpc).2
  | _ =>
    rw [onTheWay, hpc] at hl
    cases hl

theorem After.clear (h : Inv s) {k : Nat} (hk : s.stops k = .acceptorClosed) :
    After s.onTheWay (s.clearLinks k) where
  stopping := h.stopping k (by rw [hk]; nofun)
  acceptor := h.acceptor k (.inl hk)
  linked := nofun
  flying _ := id

/-- The loop accepts no other connection. -/
theorem After.moves (h : After c s) (hmoves : Moves s t) : After c t := by
  obtain ⟨hstopping, hacceptor, hlinked, hflying⟩ := h
  cases hmoves with
  | check hpc =>
    refine ⟨hstopping, hacceptor, hlinked, fun l hl => ?_⟩
    simp [onTheWay, hstopping] at hl
  | connect hpc hopen =>
    rw [hacceptor] at hopen
    cases hopen
  | refuse hpc => exact ⟨hstopping, hacceptor, hlinked, nofun⟩
  | make hpc =>
    refine ⟨hstopping, hacceptor, hlinked, fun l hl => hflying l ?_⟩
    rwa [onTheWay, hpc]
  | @insert l hpc =>
    refine ⟨hstopping, hacceptor, fun l' hl' => ?_, nofun⟩
    rcases List.mem_append.mp hl' with hl' | hl'
    · exact hlinked l' (List.mem_of_mem_filter hl')
    · obtain rfl := List.mem_singleton.mp hl'
      exact hflying l' (by rw [onTheWay, hpc])
  | fail _ => exact ⟨hstopping, hacceptor, hlinked, hflying⟩
  | store _ => exact ⟨rfl, hacceptor, hlinked, hflying⟩
  | closeAcceptor _ => exact ⟨hstopping, rfl, hlinked, hflying⟩
  | clear _ => exact ⟨hstopping, hacceptor, nofun, hflying⟩

theorem After.reach (hr : system.Reach Lts.Free s t) (h : After c s) : After c t :=
  hr.invariant h fun _ _ _ h _ hstep => h.moves (moves_of_step hstep)

/-- A link that is open now was on its way then. -/
theorem After.eq_of_open (h : After c s) (hinv : Inv s) {l : Nat} (hl : s.Open l) : c = some l := by
  rcases hinv.found l hl with hmem | hpc
  · exact h.linked l hmem
  · exact h.flying l (by rw [onTheWay, hpc])

theorem Moves.closed_mono (hmoves : Moves s t) {l : Nat} (hl : s.closed l = true) :
    t.closed l = true := by
  cases hmoves with
  | fail _ => simp [Function.update_apply, hl]
  | clear _ => simp [clearLinks, hl]
  | _ => exact hl

theorem closed_of_reach (hr : system.Reach Lts.Free s t) {l : Nat} (hl : s.closed l = true) :
    t.closed l = true :=
  hr.invariant (P := fun s => s.closed l = true) hl fun _ _ _ h _ hstep =>
    (moves_of_step hstep).closed_mono h

/-- A loop that is told to stop with a link about to be put into `links_` ends with it there. -/
theorem ended_of_insert {l : Nat} (hstopping : s.stopping = true) (hpc : s.pc = .insert l) :
    system.Reach Lts.Free s { s.insertLink l with pc := .ended } := by
  have hinsert : system.step s .insert = some (s.insertLink l) := by simp [system, step, hpc]
  have hcheck : system.step (s.insertLink l) .check =
      some { s.insertLink l with pc := .ended } := by
    simp [system, step, insertLink, hstopping]
  exact (Lts.Reach.refl.tail trivial hinsert).tail trivial hcheck

/-- So does one that has accepted a connection. -/
theorem exists_ended (h : Inv s) (hstopping : s.stopping = true) {l : Nat}
    (hl : s.onTheWay = some l) :
    ∃ u, system.Reach Lts.Free s u ∧ u.pc = .ended ∧ l < u.made ∧ u.closed = s.closed := by
  cases hpc : s.pc with
  | accepted =>
    rw [onTheWay, hpc] at hl
    cases hl
    have hmake : system.step s .make =
        some { s with pc := .insert s.made, made := s.made + 1 } := by simp [system, step, hpc]
    exact ⟨_, (Lts.Reach.refl.tail trivial hmake).trans (ended_of_insert hstopping rfl), rfl,
      Nat.lt_succ_self _, rfl⟩
  | insert l' =>
    rw [onTheWay, hpc] at hl
    cases hl
    refine ⟨_, ended_of_insert hstopping hpc, rfl, ?_, rfl⟩
    show l < s.made
    have := (h.flying l hpc).1
    omega
  | _ =>
    rw [onTheWay, hpc] at hl
    cases hl

end After

/-- **What `stop` leaves open.** Exactly the link of a connection that the loop had accepted, and
not put into `links_`, when `stop` went through its critical section: no other link is open at any
time after, and this one, unless it has failed before, can still be open when the loop has
ended. -/
theorem stop_leaves_iff {s t : AcceptLoop} {k : Nat} (hs : system.Reach Lts.Free start s)
    (hclear : s.step (.clear k) = some t) (l : Nat) :
    ((∃ u, system.Reach Lts.Free t u ∧ u.Open l) → s.onTheWay = some l) ∧
      ((∃ u, system.Reach Lts.Free t u ∧ u.pc = .ended ∧ u.Open l) ↔
        s.onTheWay = some l ∧ s.closed l = false) := by
  have hinv : Inv s := Inv.start.reach hs
  simp only [step] at hclear
  split at hclear
  · next hk =>
    cases hclear
    have hafter := After.clear hinv hk
    have hinv' := hinv.clearLinks hk
    have honly : (∃ u, system.Reach Lts.Free (s.clearLinks k) u ∧ u.Open l) →
        s.onTheWay = some l := by
      rintro ⟨u, hu, hl⟩
      exact (hafter.reach hu).eq_of_open (hinv'.reach hu) hl
    refine ⟨honly, ?_, ?_⟩
    · rintro ⟨u, hu, -, hl⟩
      refine ⟨honly ⟨u, hu, hl⟩, Bool.eq_false_iff.mpr fun hclosed => ?_⟩
      have hclosed' : u.closed l = true := closed_of_reach hu (by simp [clearLinks, hclosed])
      rw [hl.2] at hclosed'
      cases hclosed'
    · rintro ⟨hway, hclosed⟩
      obtain ⟨u, hu, hended, hmade, heq⟩ := exists_ended hinv' hafter.stopping
        (show (s.clearLinks k).onTheWay = some l from hway)
      refine ⟨u, hu, hended, hmade, ?_⟩
      -- `stop` closes what it finds in `links_`, and a link on its way is not there
      rw [heq]
      simp [clearLinks, hclosed, hinv.not_mem_of_onTheWay hway]
  · cases hclear

/-- A second connection is accepted just before `stop` goes through its critical section. -/
theorem stop_leaves_second_link :
    ∃ s t, system.Reach Lts.Free start s ∧ s.step (.clear 0) = some t ∧ t.closed 0 = true ∧
      ∃ u, system.Reach Lts.Free t u ∧ u.pc = .ended ∧ u.Open 1 := by
  have hs : system.Reach Lts.Free start _ := Lts.reach_of_exec
    [.check, .connect, .make, .insert, .check, .store 0, .connect, .closeAcceptor 0] rfl
  exact ⟨_, _, hs, rfl, rfl, (stop_leaves_iff (k := 0) hs rfl 1).2.mpr ⟨rfl, rfl⟩⟩

end AcceptLoop

end Shine
