import Shine.Lib.Lts

/-!
# The link pool of a shine outbound (`outbound/shine_outbound.cpp`)

`ShineOutbound::pickOrMakeLink` has two critical sections with a dial between them: the first
drops closed links and picks one of the others by round-robin, the second puts a new link
into the pool if there is room. `handle` looks at `stopping_` before, and `stop` closes the
links that are in the pool. The model has one step for each of these pieces, for any number of
calls.

- `stop_closes_iff`: after `stop`, the links that can be left open are those that were not in
  the pool when `stop` looked: the dial ended later, or there was no room.
- `pool_grows_iff`: a pool with one link in it never grows, since a call that finds a link does
  not dial; it never holds more links than configured either.
-/

namespace Shine

/-- Where a call of `handle` stands. -/
inductive HandlePc where
  /-- It has not looked at `stopping_` yet. -/
  | start
  /-- It has returned that the outbound is stopped. -/
  | stopped
  /-- It is about to enter the first critical section. -/
  | scan
  /-- It is in `dialNewLink`. -/
  | dial
  /-- It is about to enter the second critical section, with a link of its own. -/
  | insert (link : Nat)
  /-- `pickOrMakeLink` has returned. -/
  | picked (link : Option Nat)
  deriving DecidableEq

/-- `ShineOutbound`: the links are numbered as they are made. -/
structure LinkPool where
  /-- The calls of `handle`. -/
  calls : Nat → HandlePc
  stopping : Bool
  /-- `stop` has been through its critical section. -/
  cleared : Bool
  pool : List Nat
  rr : UInt64
  /-- How many links have been made. -/
  links : Nat
  /-- `closed_` of the links. -/
  closed : Nat → Bool
  /-- The links that came to the second critical section when `stop` had been through its own
  or when there was no room. -/
  missed : List Nat
  /-- The links that have closed by themselves. -/
  failed : List Nat

namespace LinkPool

/-- What can happen. -/
inductive Event where
  /-- The call looks at `stopping_`. -/
  | check (i : Nat)
  /-- The first critical section of the call. -/
  | scan (i : Nat)
  /-- `dialNewLink` returns a link, or null. -/
  | dialled (i : Nat) (ok : Bool)
  /-- The second critical section of the call. -/
  | insert (i : Nat)
  /-- The link fails, for a reason of its own. -/
  | fail (link : Nat)
  /-- `stop` sets `stopping_`. -/
  | store
  /-- The critical section of `stop`. -/
  | clear

/-- The call goes on. -/
def setCall (s : LinkPool) (i : Nat) (pc : HandlePc) : LinkPool :=
  { s with calls := Function.update s.calls i pc }

/-- The first critical section of `pickOrMakeLink`. -/
def scanPool (s : LinkPool) (i : Nat) : LinkPool :=
  let pool := s.pool.filter fun l => !s.closed l
  if pool = [] then { s with calls := Function.update s.calls i .dial, pool := pool }
  else
    let candidate := pool[s.rr.toNat % pool.length]?
    { s with
      calls := Function.update s.calls i (.picked candidate)
      pool := pool
      rr := s.rr + 1 }

/-- `dialNewLink` returns a new link. -/
def makeLink (s : LinkPool) (i : Nat) : LinkPool :=
  { s with calls := Function.update s.calls i (.insert s.links), links := s.links + 1 }

/-- The second critical section, with the new link. -/
def insertLink (size : Nat) (s : LinkPool) (i l : Nat) : LinkPool :=
  { s with
    calls := Function.update s.calls i (.picked (some l))
    pool := if s.pool.length < size then s.pool ++ [l] else s.pool
    missed := if s.cleared ∨ size ≤ s.pool.length then s.missed ++ [l] else s.missed }

/-- The link closes by itself. -/
def failLink (s : LinkPool) (l : Nat) : LinkPool :=
  { s with closed := Function.update s.closed l true, failed := s.failed ++ [l] }

/-- The critical section of `stop`. -/
def clearPool (s : LinkPool) : LinkPool :=
  { s with
    cleared := true
    closed := fun l => s.closed l || l ∈ s.pool
    pool := [] }

/-- One step of an outbound with the given `pool_size`. -/
def step (size : Nat) (s : LinkPool) : Event → Option LinkPool
  | .check i =>
    match s.calls i with
    | .start => some (s.setCall i (if s.stopping then .stopped else .scan))
    | _ => none
  | .scan i =>
    match s.calls i with
    | .scan => some (s.scanPool i)
    | _ => none
  | .dialled i ok =>
    match s.calls i with
    | .dial =>
      if ok then some (s.makeLink i) else some (s.setCall i (.picked none))
    | _ => none
  | .insert i =>
    match s.calls i with
    | .insert l => some (s.insertLink size i l)
    | _ => none
  | .fail l => if l < s.links then some (s.failLink l) else none
  | .store => if s.stopping then none else some { s with stopping := true }
  | .clear => if s.stopping ∧ !s.cleared then some s.clearPool else none

/-- All runs. -/
def system (size : Nat) : Lts LinkPool Event := ⟨step size⟩

/-- An outbound that has just been made. -/
def start : LinkPool where
  calls _ := .start
  stopping := false
  cleared := false
  pool := []
  rr := 0
  links := 0
  closed _ := false
  missed := []
  failed := []

/-- What a step can do to the outbound. -/
inductive Moves (size : Nat) (s : LinkPool) : LinkPool → Prop where
  | goOn {i : Nat} {pc : HandlePc} (hold : ∀ l, s.calls i ≠ .insert l)
    (hnew : ∀ l, pc ≠ .insert l) : Moves size s (s.setCall i pc)
  | scan {i : Nat} (hcall : s.calls i = .scan) : Moves size s (s.scanPool i)
  | make {i : Nat} (hcall : s.calls i = .dial) : Moves size s (s.makeLink i)
  | insert {i l : Nat} (hcall : s.calls i = .insert l) : Moves size s (s.insertLink size i l)
  | fail {l : Nat} (hl : l < s.links) : Moves size s (s.failLink l)
  | store : Moves size s { s with stopping := true }
  | clear (hcleared : s.cleared = false) : Moves size s s.clearPool

theorem moves_of_step {size : Nat} {s t : LinkPool} {e : Event} (h : s.step size e = some t) :
    Moves size s t := by
  cases e <;> simp only [step] at h
  case check =>
    split at h <;> cases h
    rename_i hcall
    refine .goOn (by simp [hcall]) fun l => ?_
    split_ifs
    all_goals nofun
  case scan =>
    split at h <;> cases h
    exact .scan ‹_›
  case dialled =>
    split at h
    · next hcall =>
      split_ifs at h <;> cases h
      · exact .make hcall
      · exact .goOn (by simp [hcall]) nofun
    · cases h
  case insert =>
    split at h <;> cases h
    exact .insert ‹_›
  case fail =>
    split_ifs at h with hl
    cases h
    exact .fail hl
  case store =>
    split_ifs at h
    cases h
    exact .store
  case clear =>
    split_ifs at h with hguard
    cases h
    exact .clear (by simpa using hguard.2)

/-! ## Where a link can be -/

/-- What holds in every state. -/
structure Inv (s : LinkPool) : Prop where
  pooled : ∀ l ∈ s.pool, l < s.links
  made : ∀ l, s.closed l = true → l < s.links
  failed : ∀ l ∈ s.failed, s.closed l = true
  /-- A link on its way is nowhere else, and only closes by itself. -/
  flying : ∀ i l, s.calls i = .insert l →
    l < s.links ∧ l ∉ s.pool ∧ l ∉ s.missed ∧ (s.closed l = true → l ∈ s.failed)
  apart : ∀ i j l, s.calls i = .insert l → s.calls j = .insert l → i = j
  /-- So does one that `stop` has not seen. -/
  missed : ∀ l ∈ s.missed,
    l < s.links ∧ (l ∈ s.pool → s.cleared = true) ∧ (s.closed l = true → l ∈ s.failed)
  found : ∀ l < s.links, s.closed l = true ∨ (l ∈ s.pool ∧ s.cleared = false) ∨ l ∈ s.missed ∨
    ∃ i, s.calls i = .insert l

section Inv

variable {s t : LinkPool} {i : Nat}

theorem Inv.start : Inv start where
  pooled := by simp [LinkPool.start]
  made := by simp [LinkPool.start]
  failed := by simp [LinkPool.start]
  flying := by simp [LinkPool.start]
  apart := by simp [LinkPool.start]
  missed := by simp [LinkPool.start]
  found := by simp [LinkPool.start]

/-- A call that has no link of its own, before and after. -/
theorem Inv.setCall (h : Inv s) {pc : HandlePc} (hold : ∀ l, s.calls i ≠ .insert l)
    (hnew : ∀ l, pc ≠ .insert l) : Inv (s.setCall i pc) := by
  have hcalls : ∀ j l, (s.setCall i pc).calls j = .insert l ↔ s.calls j = .insert l := by
    intro j l
    simp only [LinkPool.setCall, Function.update_apply]
    split_ifs with hj
    · rw [hj]
      exact iff_of_false (hnew l) (hold l)
    · rfl
  refine { h with
    flying := fun j l hj => ?_
    apart := fun j j' l hj hj' => ?_
    found := fun l hl => ?_ }
  · exact h.flying j l ((hcalls j l).mp hj)
  · exact h.apart j j' l ((hcalls j l).mp hj) ((hcalls j' l).mp hj')
  · simp only [hcalls]
    exact h.found l hl

/-- The links dropped from the pool are closed. -/
theorem Inv.scanPool (h : Inv s) (hcall : s.calls i = .scan) : Inv (s.scanPool i) := by
  have hold : ∀ l, s.calls i ≠ .insert l := by simp [hcall]
  have hkeep : ∀ pc rr, (∀ l, pc ≠ .insert l) →
      Inv { s with
        calls := Function.update s.calls i pc
        pool := s.pool.filter fun l => !s.closed l
        rr := rr } := by
    intro pc rr hnew
    have hset := h.setCall hold hnew
    refine { hset with
      pooled := fun l hl => ?_
      flying := fun j l hj => ?_
      missed := fun l hl => ?_
      found := fun l hl => ?_ }
    · exact h.pooled l (List.mem_of_mem_filter hl)
    · obtain ⟨hlt, hpool, hrest⟩ := hset.flying j l hj
      exact ⟨hlt, fun hl => hpool (List.mem_of_mem_filter hl), hrest⟩
    · obtain ⟨hlt, hpool, hrest⟩ := hset.missed l hl
      exact ⟨hlt, fun hl => hpool (List.mem_of_mem_filter hl), hrest⟩
    · rcases hset.found l hl with hclosed | ⟨hpool, hcleared⟩ | hother
      · exact .inl hclosed
      · by_cases hclosed : s.closed l = true
        · exact .inl hclosed
        · refine .inr (.inl ⟨List.mem_filter.mpr ⟨hpool, ?_⟩, hcleared⟩)
          simpa using hclosed
      · exact .inr (.inr hother)
  rw [LinkPool.scanPool]
  split_ifs
  · exact hkeep .dial s.rr nofun
  · exact hkeep _ (s.rr + 1) nofun

/-- A new link is the call's own. -/
theorem Inv.makeLink (h : Inv s) (hcall : s.calls i = .dial) :
    Inv (s.makeLink i) := by
  have hcalls : ∀ j l, (s.makeLink i).calls j = .insert l →
      (j = i ∧ l = s.links) ∨ s.calls j = .insert l := by
    intro j l hj
    simp only [LinkPool.makeLink, Function.update_apply] at hj
    split_ifs at hj with hji
    · cases hj
      exact .inl ⟨hji, rfl⟩
    · exact .inr hj
  have hnew : s.links ∉ s.pool ∧ s.links ∉ s.missed ∧ ¬ s.closed s.links = true :=
    ⟨fun hl => absurd (h.pooled _ hl) (Nat.lt_irrefl _),
      fun hl => absurd (h.missed _ hl).1 (Nat.lt_irrefl _),
      fun hl => absurd (h.made _ hl) (Nat.lt_irrefl _)⟩
  constructor
  · exact fun l hl => Nat.lt_succ_of_lt (h.pooled l hl)
  · exact fun l hl => Nat.lt_succ_of_lt (h.made l hl)
  · exact h.failed
  · intro j l hj
    rcases hcalls j l hj with ⟨rfl, rfl⟩ | hj
    · exact ⟨Nat.lt_succ_self _, hnew.1, hnew.2.1, fun hl => absurd hl hnew.2.2⟩
    · obtain ⟨hlt, hrest⟩ := h.flying j l hj
      exact ⟨Nat.lt_succ_of_lt hlt, hrest⟩
  · intro j j' l hj hj'
    rcases hcalls j l hj with ⟨rfl, rfl⟩ | hold
    · rcases hcalls j' _ hj' with ⟨rfl, -⟩ | hold'
      · rfl
      · exact absurd (h.flying j' _ hold').1 (Nat.lt_irrefl _)
    · rcases hcalls j' l hj' with ⟨rfl, rfl⟩ | hold'
      · exact absurd (h.flying j _ hold).1 (Nat.lt_irrefl _)
      · exact h.apart j j' l hold hold'
  · intro l hl
    obtain ⟨hlt, hrest⟩ := h.missed l hl
    exact ⟨Nat.lt_succ_of_lt hlt, hrest⟩
  · intro l hl
    rcases Nat.lt_succ_iff_lt_or_eq.mp hl with hl | rfl
    · rcases h.found l hl with hclosed | hpool | hmissed | ⟨j, hj⟩
      · exact .inl hclosed
      · exact .inr (.inl hpool)
      · exact .inr (.inr (.inl hmissed))
      · have hji : j ≠ i := by
          rintro rfl
          rw [hcall] at hj
          cases hj
        refine .inr (.inr (.inr ⟨j, ?_⟩))
        simp only [LinkPool.makeLink, Function.update_of_ne hji]
        exact hj
    · exact .inr (.inr (.inr ⟨i, Function.update_self ..⟩))

theorem mem_pool_insertLink {size l m : Nat} : m ∈ (s.insertLink size i l).pool ↔
    m ∈ s.pool ∨ (m = l ∧ s.pool.length < size) := by
  simp only [LinkPool.insertLink]
  split_ifs with hroom
  · simp [hroom]
  · simp [hroom]

theorem mem_missed_insertLink {size l m : Nat} : m ∈ (s.insertLink size i l).missed ↔
    m ∈ s.missed ∨ (m = l ∧ (s.cleared = true ∨ size ≤ s.pool.length)) := by
  simp only [LinkPool.insertLink]
  split_ifs with hlate
  · simp [hlate]
  · simp [hlate]

/-- A call puts its own link into the pool, or the link is missed. -/
theorem Inv.insertLink (h : Inv s) {size l : Nat} (hcall : s.calls i = .insert l) :
    Inv (s.insertLink size i l) := by
  obtain ⟨hlt, hpool, hmissed, hclosed⟩ := h.flying i l hcall
  -- no other call has this link
  have hcalls : ∀ j m, (s.insertLink size i l).calls j = .insert m ↔
      s.calls j = .insert m ∧ m ≠ l := by
    intro j m
    simp only [LinkPool.insertLink, Function.update_apply]
    split_ifs with hji
    · subst hji
      simp [hcall, eq_comm]
    · refine ⟨fun hj => ⟨hj, ?_⟩, And.left⟩
      rintro rfl
      exact hji (h.apart j i m hj hcall)
  constructor
  · intro m hm
    rcases mem_pool_insertLink.mp hm with hm | ⟨rfl, -⟩
    · exact h.pooled m hm
    · exact hlt
  · exact h.made
  · exact h.failed
  · intro j m hj
    obtain ⟨hj, hne⟩ := (hcalls j m).mp hj
    obtain ⟨hmlt, hmpool, hmmissed, hmclosed⟩ := h.flying j m hj
    refine ⟨hmlt, fun hm => ?_, fun hm => ?_, hmclosed⟩
    · exact (mem_pool_insertLink.mp hm).elim hmpool fun hm => hne hm.1
    · exact (mem_missed_insertLink.mp hm).elim hmmissed fun hm => hne hm.1
  · intro j j' m hj hj'
    exact h.apart j j' m ((hcalls j m).mp hj).1 ((hcalls j' m).mp hj').1
  · intro m hm
    rcases mem_missed_insertLink.mp hm with hbefore | ⟨rfl, hlate⟩
    · obtain ⟨hmlt, hmpool, hmclosed⟩ := h.missed m hbefore
      refine ⟨hmlt, fun hin => ?_, hmclosed⟩
      rcases mem_pool_insertLink.mp hin with hin | ⟨rfl, -⟩
      · exact hmpool hin
      · exact absurd hbefore hmissed
    · refine ⟨hlt, fun hin => ?_, hclosed⟩
      -- it is in the pool, so there was room, and `stop` has been there
      rcases mem_pool_insertLink.mp hin with hin | ⟨-, hroom⟩
      · exact absurd hin hpool
      · exact hlate.resolve_right (Nat.not_le.mpr hroom)
  · intro m hm
    rcases h.found m hm with hclosed | ⟨hin, hcleared⟩ | hin | ⟨j, hj⟩
    · exact .inl hclosed
    · exact .inr (.inl ⟨mem_pool_insertLink.mpr (.inl hin), hcleared⟩)
    · exact .inr (.inr (.inl (mem_missed_insertLink.mpr (.inl hin))))
    · by_cases hml : m = l
      · by_cases hlate : s.cleared = true ∨ size ≤ s.pool.length
        · exact .inr (.inr (.inl (mem_missed_insertLink.mpr (.inr ⟨hml, hlate⟩))))
        · obtain ⟨hcleared, hroom⟩ := not_or.mp hlate
          exact .inr (.inl ⟨mem_pool_insertLink.mpr (.inr ⟨hml, Nat.not_le.mp hroom⟩),
            Bool.eq_false_iff.mpr hcleared⟩)
      · exact .inr (.inr (.inr ⟨j, (hcalls j m).mpr ⟨hj, hml⟩⟩))

theorem Inv.failLink (h : Inv s) {l : Nat} (hl : l < s.links) : Inv (s.failLink l) := by
  have hclosed : ∀ m, (s.failLink l).closed m = true ↔ m = l ∨ s.closed m = true := by
    intro m
    simp only [LinkPool.failLink, Function.update_apply]
    split_ifs with hm
    · simp [hm]
    · simp [hm]
  -- what closes now is among the failed ones
  have hfailed : ∀ m, (s.closed m = true → m ∈ s.failed) →
      (s.failLink l).closed m = true → m ∈ s.failed ++ [l] := by
    intro m hm hnow
    rcases (hclosed m).mp hnow with rfl | hbefore
    · exact List.mem_append_right _ List.mem_cons_self
    · exact List.mem_append_left _ (hm hbefore)
  refine { h with
    made := fun m hm => ?_
    failed := fun m hm => ?_
    flying := fun j m hj => ?_
    missed := fun m hm => ?_
    found := fun m hm => ?_ }
  · rcases (hclosed m).mp hm with rfl | hm
    · exact hl
    · exact h.made m hm
  · refine (hclosed m).mpr ?_
    rcases List.mem_append.mp hm with hm | hm
    · exact .inr (h.failed m hm)
    · exact .inl (List.mem_singleton.mp hm)
  · obtain ⟨hlt, hpool, hmissed, hm⟩ := h.flying j m hj
    exact ⟨hlt, hpool, hmissed, hfailed m hm⟩
  · obtain ⟨hlt, hpool, hm⟩ := h.missed m hm
    exact ⟨hlt, hpool, hfailed m hm⟩
  · rcases h.found m hm with hm | hother
    · exact .inl ((hclosed m).mpr (.inr hm))
    · exact .inr hother

/-- `stop` closes what is in the pool, and that is none of the links it can miss. -/
theorem Inv.clearPool (h : Inv s) (hcleared : s.cleared = false) : Inv s.clearPool := by
  have hclosed : ∀ m, s.clearPool.closed m = true ↔ s.closed m = true ∨ m ∈ s.pool := by
    intro m
    simp [LinkPool.clearPool]
  constructor
  · simp [LinkPool.clearPool]
  · intro m hm
    exact ((hclosed m).mp hm).elim (h.made m) (h.pooled m)
  · intro m hm
    exact (hclosed m).mpr (.inl (h.failed m hm))
  · intro j m hj
    obtain ⟨hlt, hpool, hmissed, hm⟩ := h.flying j m hj
    refine ⟨hlt, by simp [LinkPool.clearPool], hmissed, fun hnow => ?_⟩
    exact ((hclosed m).mp hnow).elim hm fun hin => absurd hin hpool
  · exact h.apart
  · intro m hm
    obtain ⟨hlt, hpool, hbefore⟩ := h.missed m hm
    refine ⟨hlt, by simp [LinkPool.clearPool], fun hnow => ?_⟩
    rcases (hclosed m).mp hnow with hnow | hin
    · exact hbefore hnow
    · rw [hpool hin] at hcleared
      cases hcleared
  · intro m hm
    rcases h.found m hm with hm | ⟨hin, -⟩ | hother
    · exact .inl ((hclosed m).mpr (.inl hm))
    · exact .inl ((hclosed m).mpr (.inr hin))
    · exact .inr (.inr hother)

/-- **Every step keeps the invariant.** -/
theorem Inv.step (h : Inv s) {size : Nat} {e : Event} (hstep : s.step size e = some t) :
    Inv t := by
  cases moves_of_step hstep with
  | goOn hold hnew => exact h.setCall hold hnew
  | scan hcall => exact h.scanPool hcall
  | make hcall => exact h.makeLink hcall
  | insert hcall => exact h.insertLink hcall
  | fail hl => exact h.failLink hl
  | store => exact { h with }
  | clear hcleared => exact h.clearPool hcleared

end Inv

theorem inv_reach {size : Nat} {s : LinkPool} (h : (system size).Reach Lts.Free start s) :
    Inv s :=
  h.invariant .start fun _ _ _ hinv _ hstep => hinv.step hstep

/-- No call has a dial in progress, or a new link that it still has to put into the pool. -/
def Settled (s : LinkPool) : Prop := ∀ i, s.calls i ≠ .dial ∧ ∀ l, s.calls i ≠ .insert l

/-- **After `stop` every link is closed exactly if those that it has missed have closed by
themselves.** A link is missed if its call comes to the second critical section after `stop`
has been through its own, or finds no room in the pool. -/
theorem stop_closes_iff (size : Nat) (s : LinkPool) (h : (system size).Reach Lts.Free start s)
    (hstop : s.cleared = true) (hsettled : s.Settled) :
    (∀ l < s.links, s.closed l = true) ↔ ∀ l ∈ s.missed, l ∈ s.failed := by
  have hinv := inv_reach h
  constructor
  · intro hall l hl
    obtain ⟨hlt, -, hclosed⟩ := hinv.missed l hl
    exact hclosed (hall l hlt)
  · intro hfailed l hl
    rcases hinv.found l hl with hclosed | ⟨-, hcleared⟩ | hmissed | ⟨i, hi⟩
    · exact hclosed
    · rw [hstop] at hcleared
      cases hcleared
    · exact hinv.failed l (hfailed l hmissed)
    · exact absurd hi ((hsettled i).2 l)

/-- A link that is in the pool when `stop` comes is closed. -/
theorem stop_closes_iff_pooled : ∃ s, (system 1).Reach Lts.Free start s ∧ s.cleared = true ∧
    s.Settled ∧ s.links = 1 ∧ ∀ l < s.links, s.closed l = true := by
  have hreach := @Lts.reach_of_exec _ _ (system 1) Lts.Free start _ _
    [.check 0, .scan 0, .dialled 0 true, .insert 0, .store, .clear] rfl
  refine ⟨_, hreach, rfl, ?_, rfl, (stop_closes_iff 1 _ hreach rfl ?_).mpr nofun⟩
  all_goals
    intro i
    cases i with
    | zero => exact ⟨nofun, nofun⟩
    | succ i => exact ⟨nofun, nofun⟩

/-- A link whose dial ends after `stop` has returned goes into the pool and stays open. -/
theorem stop_misses_late_dial : ∃ s, (system 1).Reach Lts.Free start s ∧ s.cleared = true ∧
    s.Settled ∧ s.links = 1 ∧ s.closed 0 = false := by
  refine ⟨_, Lts.reach_of_exec
    [.check 0, .scan 0, .store, .clear, .dialled 0 true, .insert 0] rfl, rfl, ?_, rfl, rfl⟩
  intro i
  cases i with
  | zero => exact ⟨nofun, nofun⟩
  | succ i => exact ⟨nofun, nofun⟩

/-! ## How large the pool gets -/

/-- The pool is never larger than configured. -/
theorem pool_length_step {size : Nat} {s t : LinkPool} {e : Event} (h : s.pool.length ≤ size)
    (hstep : s.step size e = some t) : t.pool.length ≤ size := by
  cases moves_of_step hstep with
  | goOn => exact h
  | scan =>
    have hfilter : (s.pool.filter fun l => !s.closed l).length ≤ size :=
      (List.length_filter_le ..).trans h
    rw [scanPool]
    split_ifs
    · exact hfilter
    · exact hfilter
  | make => exact h
  | insert =>
    simp only [insertLink]
    split_ifs with hroom
    · rw [List.length_append, List.length_singleton]
      exact hroom
    · exact h
  | fail => exact h
  | store => exact h
  | clear => exact Nat.zero_le _

/-- A call of `handle` with nothing in between, whose dial succeeds. -/
def runCall (size : Nat) (s : LinkPool) (i : Nat) : Option LinkPool := do
  let s ← s.step size (.check i)
  let s ← s.step size (.scan i)
  match s.calls i with
  | .dial =>
    let s ← s.step size (.dialled i true)
    s.step size (.insert i)
  | _ => some s

/-- One call after another, on an outbound that has just been made. -/
def runCalls (size : Nat) : Nat → Option LinkPool
  | 0 => some start
  | n + 1 => (runCalls size n).bind fun s => s.runCall size n

/-- The pool grows to its size, and then the calls cycle through its links. -/
def Grows (size : Nat) : Prop :=
  ∀ n, ∃ s, runCalls size n = some s ∧ s.pool.length = min n size ∧
    (size ≤ n → ∃ t, runCalls size (n + size) = some t ∧
      ∀ l ∈ s.pool, ∃ i, n ≤ i ∧ i < n + size ∧ t.calls i = .picked (some l))

section Sequential

variable {size i n : Nat} {s : LinkPool}

/-- A call that finds no link dials. -/
theorem runCall_of_empty (hcall : s.calls i = .start) (hstop : s.stopping = false)
    (hpool : s.pool = []) (hsize : 1 ≤ size) :
    s.runCall size i = some { s with
      calls := Function.update s.calls i (.picked (some s.links))
      pool := [s.links]
      links := s.links + 1
      missed := if s.cleared then s.missed ++ [s.links] else s.missed } := by
  have hroom : 0 < size := hsize
  simp [runCall, step, setCall, scanPool, makeLink, insertLink, hcall, hstop, hpool, hroom,
    hroom.ne']

/-- A call that finds a link does not dial. -/
theorem runCall_of_live {l : Nat} (hcall : s.calls i = .start) (hstop : s.stopping = false)
    (hpool : s.pool = [l]) (hlive : s.closed l = false) :
    s.runCall size i = some { s.setCall i (.picked (some l)) with rr := s.rr + 1 } := by
  simp [runCall, step, setCall, scanPool, hcall, hstop, hpool, hlive, Nat.mod_one]

/-- What there is after `n` calls: the first link has been made, and no other. -/
structure After (n : Nat) (s : LinkPool) : Prop where
  calls : ∀ i, s.calls i = if i < n then .picked (some 0) else .start
  stopping : s.stopping = false
  pool : s.pool = List.range (min n 1)
  links : s.links = min n 1
  closed : ∀ l, s.closed l = false

theorem After.runCall (hsize : 1 ≤ size) (h : After n s) :
    ∃ t, s.runCall size n = some t ∧ After (n + 1) t := by
  have hcall : s.calls n = .start := by simp [h.calls n]
  have hcalls : ∀ i, Function.update s.calls n (.picked (some 0)) i =
      if i < n + 1 then .picked (some 0) else .start := by
    intro i
    rw [Function.update_apply, h.calls i]
    split_ifs
    all_goals first | rfl | omega
  cases n with
  | zero =>
    have hlinks : s.links = 0 := h.links
    refine ⟨_, runCall_of_empty hcall h.stopping h.pool hsize, ?_⟩
    rw [hlinks]
    exact ⟨hcalls, h.stopping, rfl, rfl, h.closed⟩
  | succ n =>
    have hmin : ∀ m, min (m + 1) 1 = 1 := fun m => Nat.min_eq_right (Nat.le_add_left 1 m)
    have hpool : s.pool = [0] := by
      rw [h.pool, hmin]
      rfl
    refine ⟨_, runCall_of_live hcall h.stopping hpool (h.closed 0), ?_⟩
    exact ⟨hcalls, h.stopping, by rw [hmin]; exact hpool, by rw [hmin, ← hmin n]; exact h.links,
      h.closed⟩

theorem runCalls_after (hsize : 1 ≤ size) (n : Nat) :
    ∃ s, runCalls size n = some s ∧ After n s := by
  induction n with
  | zero => exact ⟨start, rfl, by simp [start], rfl, rfl, rfl, fun _ => rfl⟩
  | succ n ih =>
    obtain ⟨s, hs, hafter⟩ := ih
    obtain ⟨t, ht, hnext⟩ := hafter.runCall hsize
    exact ⟨t, by rw [runCalls, hs, Option.bind_some, ht], hnext⟩

end Sequential

/-- **A pool grows to its size, and is cycled through, exactly if that size is one**, for a
call dials only if there is no live link at all. It never holds more links than its size. -/
theorem pool_grows_iff (size : Nat) (hsize : 1 ≤ size) :
    (Grows size ↔ size = 1) ∧
      ∀ s, (system size).Reach Lts.Free start s → s.pool.length ≤ size := by
  refine ⟨⟨fun hgrows => ?_, ?_⟩, fun s hreach => ?_⟩
  · obtain ⟨s, hs, hlength, -⟩ := hgrows size
    obtain ⟨s', hs', hafter⟩ := runCalls_after hsize size
    obtain rfl : s = s' := Option.some.inj (hs.symm.trans hs')
    rw [hafter.pool, List.length_range] at hlength
    omega
  · rintro rfl n
    obtain ⟨s, hs, hafter⟩ := runCalls_after hsize n
    refine ⟨s, hs, by rw [hafter.pool, List.length_range], fun hn => ?_⟩
    obtain ⟨t, ht, hlater⟩ := runCalls_after hsize (n + 1)
    refine ⟨t, ht, fun l hl => ⟨n, le_rfl, Nat.lt_succ_self n, ?_⟩⟩
    rw [hafter.pool, Nat.min_eq_right hn] at hl
    obtain rfl : l = 0 := by simpa using hl
    simp [hlater.calls n]
  · exact hreach.invariant (P := fun s => s.pool.length ≤ size) (Nat.zero_le _)
      fun _ _ _ h _ hstep => pool_length_step h hstep

theorem pool_grows_iff_one : Grows 1 ∧
    ∀ s, (system 1).Reach Lts.Free start s → s.pool.length ≤ 1 :=
  ⟨(pool_grows_iff 1 le_rfl).1.mpr rfl, (pool_grows_iff 1 le_rfl).2⟩

/-- With room for two links, two calls share one. -/
theorem pool_of_two_stays_at_one :
    (runCalls 2 2).map (fun s => (s.pool, s.calls 0, s.calls 1)) =
      some ([0], .picked (some 0), .picked (some 0)) ∧ ¬ Grows 2 := by
  refine ⟨rfl, fun hgrows => ?_⟩
  obtain ⟨s, hs, hlength, -⟩ := hgrows 2
  obtain rfl := Option.some.inj hs
  cases hlength

end LinkPool

end Shine
