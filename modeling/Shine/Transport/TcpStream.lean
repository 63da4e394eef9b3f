import Shine.Transport.Endpoint

/-!
# Reading from a TCP connection (`transport/tcp_stream.cpp`)

`TcpSocketStream::read` takes what has arrived, up to the size of its buffer. The stream
that is handed on after a handshake is what its later reads return: `Delivers` says that
these are exactly given bytes, for every choice of buffers.

A handshake that reads up to a delimiter with `async_read_until` takes whole pieces. What
is left for the stream starts right behind the delimiter exactly if a piece ends there
(`takeUntil_boundary`).
-/

namespace Shine

namespace Socket

/-- The message of `asio::error::eof`. -/
def endOfFile : Bytes := ascii "End of file"

/-- `async_read_some` into a buffer of `n` bytes. -/
def takeSome (n : Nat) : List Bytes → Option (Bytes × List Bytes)
  | [] => none
  | [] :: rest => takeSome n rest
  | (b :: bs) :: rest => some ((b :: bs).take n, (b :: bs).drop n :: rest)

/-- `TcpSocketStream::read`. -/
def read (c : Socket) (n : Nat) : StatusOr (Bytes × Socket) :=
  match takeSome n c.incoming with
  | some (out, rest) => .ok (out, { c with incoming := rest })
  | none =>
    if c.readError = endOfFile then .ok ([], { c with incoming := [] })
    else .error (.unavailable c.readError)

/-- What successive reads return, with the sizes of their buffers. -/
def reads : List Nat → Socket → Bytes
  | [], _ => []
  | n :: sizes, c =>
    match c.read n with
    | .ok (out, c') => out ++ reads sizes c'
    | .error _ => []

/-- Later reads return exactly `bytes`: nothing else, and all of it if there are enough. -/
def Delivers (c : Socket) (bytes : Bytes) : Prop :=
  ∀ sizes : List Nat, (∀ n ∈ sizes, 0 < n) →
    reads sizes c <+: bytes ∧ (bytes.length ≤ sizes.length → reads sizes c = bytes)

theorem takeSome_eq_none {n : Nat} {pieces : List Bytes} (h : takeSome n pieces = none) :
    pieces.flatten = [] := by
  induction pieces with
  | nil => rfl
  | cons piece rest ih =>
    cases piece with
    | nil => exact ih h
    | cons b bs => cases h

theorem takeSome_eq_some {n : Nat} {pieces rest : List Bytes} {out : Bytes}
    (h : takeSome n pieces = some (out, rest)) :
    out ++ rest.flatten = pieces.flatten ∧ (0 < n → out ≠ []) := by
  induction pieces with
  | nil => cases h
  | cons piece pieces ih =>
    cases piece with
    | nil => exact ih h
    | cons b bs =>
      cases h
      constructor
      · rw [List.flatten_cons, List.flatten_cons, ← List.append_assoc, List.take_append_drop]
      · intro hn hnil
        cases n with
        | zero => exact absurd hn (Nat.lt_irrefl 0)
        | succ n => cases hnil

/-- The reads return the start of what arrives; with a buffer each they get on. -/
theorem reads_spec {sizes : List Nat} (hsizes : ∀ n ∈ sizes, 0 < n) (c : Socket) :
    reads sizes c <+: c.incoming.flatten
      ∧ (c.incoming.flatten.length ≤ sizes.length → reads sizes c = c.incoming.flatten) := by
  induction sizes generalizing c with
  | nil =>
    refine ⟨List.nil_prefix, fun hlen => ?_⟩
    exact (List.eq_nil_of_length_eq_zero (Nat.le_zero.mp hlen)).symm
  | cons n sizes ih =>
    have hn : 0 < n := hsizes n (List.mem_cons_self ..)
    have hrest : ∀ m ∈ sizes, 0 < m := fun m hm => hsizes m (List.mem_cons_of_mem _ hm)
    rw [reads, read]
    cases htake : takeSome n c.incoming with
    | none =>
      have hnil := takeSome_eq_none htake
      rw [hnil]
      by_cases heof : c.readError = endOfFile
      · -- at the end of the stream every further read is empty
        have hdone : reads sizes { c with incoming := [] } = [] :=
          (ih hrest { c with incoming := [] }).2 (Nat.zero_le _)
        rw [if_pos heof]
        show [] ++ reads sizes { c with incoming := [] } <+: []
          ∧ (_ → [] ++ reads sizes { c with incoming := [] } = [])
        rw [hdone]
        exact ⟨List.prefix_refl _, fun _ => rfl⟩
      · rw [if_neg heof]
        exact ⟨List.prefix_refl _, fun _ => rfl⟩
    | some taken =>
      obtain ⟨out, rest⟩ := taken
      obtain ⟨hsplit, hout⟩ := takeSome_eq_some htake
      obtain ⟨hpre, hall⟩ := ih hrest { c with incoming := rest }
      show out ++ reads sizes { c with incoming := rest } <+: _ ∧
        (_ → out ++ reads sizes { c with incoming := rest } = _)
      rw [← hsplit]
      refine ⟨(List.prefix_append_right_inj out).mpr hpre, fun hlen => ?_⟩
      have hpos : 0 < out.length := List.length_pos_iff.mpr (hout hn)
      have hshort : rest.flatten.length ≤ sizes.length := by
        rw [List.length_append, List.length_cons] at hlen
        omega
      rw [hall hshort]

/-- What a stream delivers is what is still to arrive on its connection. -/
theorem delivers_iff {c : Socket} {bytes : Bytes} :
    c.Delivers bytes ↔ c.incoming.flatten = bytes := by
  constructor
  · intro h
    have hone : ∀ k, ∀ n ∈ List.replicate k 1, 0 < n := by
      intro k n hn
      rw [List.eq_of_mem_replicate hn]
      exact Nat.one_pos
    -- enough reads of one byte each for either side
    let k := max bytes.length c.incoming.flatten.length
    have hread := (h (List.replicate k 1) (hone k)).2 (by rw [List.length_replicate]; omega)
    have hspec := (reads_spec (hone k) c).2 (by rw [List.length_replicate]; omega)
    exact hspec.symm.trans hread
  · rintro rfl sizes hsizes
    exact reads_spec hsizes c

/-! ## Reading up to a delimiter -/

/-- The delimiter occurs in `head` once, at its end. -/
structure EndsAtFirst (delim head : Bytes) : Prop where
  ends : delim <:+ head
  first : ¬ delim <:+: head.dropLast

instance (delim head : Bytes) : Decidable (EndsAtFirst delim head) :=
  decidable_of_iff (delim <:+ head ∧ ¬ delim <:+: head.dropLast)
    ⟨fun h => ⟨h.1, h.2⟩, fun h => ⟨h.ends, h.first⟩⟩

/-- Whole pieces are taken, as few as have the delimiter among them. -/
theorem takeUntil_eq_some {delim buf out : Bytes} {pieces rest : List Bytes}
    (h : takeUntil delim buf pieces = some (out, rest)) :
    delim <:+: out ∧ ∃ k, out = buf ++ (pieces.take k).flatten ∧ rest = pieces.drop k
      ∧ ∀ j < k, ¬ delim <:+: buf ++ (pieces.take j).flatten := by
  induction pieces generalizing buf with
  | nil =>
    rw [takeUntil] at h
    split at h
    · next hin =>
      cases h
      exact ⟨hin, 0, by simp, rfl, fun j hj => absurd hj (Nat.not_lt_zero j)⟩
    · cases h
  | cons piece pieces ih =>
    rw [takeUntil] at h
    split at h
    · next hin =>
      cases h
      exact ⟨hin, 0, by simp, rfl, fun j hj => absurd hj (Nat.not_lt_zero j)⟩
    · next hout =>
      obtain ⟨hin, k, hk, hrest, hbefore⟩ := ih h
      refine ⟨hin, k + 1, by simpa using hk, by simpa using hrest, ?_⟩
      intro j hj
      cases j with
      | zero => simpa using hout
      | succ j => simpa using hbefore j (by omega)

/-- A start of `head` that has the delimiter is all of it. -/
theorem EndsAtFirst.eq_of_prefix {delim head out : Bytes} (hhead : EndsAtFirst delim head)
    (hin : delim <:+: out) (hpre : out <+: head) : out = head := by
  obtain ⟨t, rfl⟩ := hpre
  by_contra hne
  have ht : t ≠ [] := by
    rintro rfl
    exact hne (List.append_nil out).symm
  have hshort : out <+: (out ++ t).dropLast := by
    rw [List.dropLast_append_of_ne_nil ht]
    exact List.prefix_append _ _
  exact hhead.first (hin.trans hshort.isInfix)

/-- The delimiter is found if it is there. -/
theorem takeUntil_isSome {delim buf : Bytes} {pieces : List Bytes}
    (h : delim <:+: buf ++ pieces.flatten) : (takeUntil delim buf pieces).isSome := by
  induction pieces generalizing buf with
  | nil =>
    rw [List.flatten_nil, List.append_nil] at h
    rw [takeUntil, if_pos h]
    rfl
  | cons piece pieces ih =>
    rw [takeUntil]
    split
    · rfl
    · refine ih ?_
      rwa [List.append_assoc, ← List.flatten_cons]

/-- **What is left behind the delimiter is what follows it, exactly if a piece ends with
the delimiter.** Otherwise the bytes of the last piece behind it have been taken too. -/
theorem takeUntil_boundary {delim head rest out : Bytes} {pieces left : List Bytes}
    (hhead : EndsAtFirst delim head) (hstream : pieces.flatten = head ++ rest)
    (h : takeUntil delim [] pieces = some (out, left)) :
    left.flatten = rest ↔ ∃ k, (pieces.take k).flatten = head := by
  obtain ⟨hin, k, hout, hleft, hbefore⟩ := takeUntil_eq_some h
  rw [List.nil_append] at hout
  have hall : out ++ left.flatten = head ++ rest := by
    rw [hout, hleft, ← List.flatten_append, List.take_append_drop, hstream]
  constructor
  · intro heq
    rw [heq] at hall
    exact ⟨k, by rw [← hout]; exact List.append_cancel_right hall⟩
  · rintro ⟨k', hk'⟩
    have hle : k ≤ k' := by
      by_contra hlt
      refine hbefore k' (by omega) ?_
      rw [List.nil_append, hk']
      exact hhead.ends.isInfix
    have hpre : out <+: head := by
      rw [hout, ← hk', ← List.take_append_drop k (pieces.take k'), List.take_take,
        Nat.min_eq_left hle, List.flatten_append]
      exact List.prefix_append _ _
    rw [hhead.eq_of_prefix hin hpre] at hall
    exact List.append_cancel_left hall

end Socket

end Shine
