import Shine.Inbound.Socks5Udp

/-!
# Junk on a SOCKS5 UDP association (`Socks5UdpStream::receiveFrom`)

The loop of `receiveFrom` takes the sender of a datagram for the client while it does not know
the client's port, and ignores other senders from then on. It does so before it looks at the
header, so that a malformed datagram is enough; and a sender whose port is zero is forgotten
again with the next datagram.

`accepted` is what successive calls return, as a function of the datagrams that arrive
(`receiveCalls_eq`). From it, `association_iff` says which senders in front of the client's
first datagram leave an association alone, and among which senders all that is returned comes
from one.
-/

namespace Shine

namespace Socks5UdpStream

/-- A stream that has just been made. -/
def fresh (arriving : List (Endpoint × Bytes)) : Socks5UdpStream where
  isOpen := true
  arriving := arriving
  sent := []
  clientEp := .v4 ⟨[0, 0, 0, 0], rfl⟩ 0

/-- What up to `n` successive calls of `receiveFrom` return, with the client at that time, until
one waits. -/
def receiveCalls : Nat → Socks5UdpStream → List (Endpoint × Datagram)
  | 0, _ => []
  | n + 1, s =>
    match s.receiveFrom with
    | some (.ok d, s') => (s'.clientEp, d) :: receiveCalls n s'
    | _ => []

/-! ## All calls at once -/

/-- The client after a datagram from `sender`. -/
def latch (clientEp sender : Endpoint) : Endpoint := if clientEp.port = 0 then sender else clientEp

/-- The datagrams that are returned, with their senders. -/
def accepted (clientEp : Endpoint) : List (Endpoint × Bytes) → List (Endpoint × Datagram)
  | [] => []
  | (sender, packet) :: rest =>
    if sender ≠ latch clientEp sender then accepted (latch clientEp sender) rest
    else match parseDatagram (packet.take 65536) with
      | none => accepted (latch clientEp sender) rest
      | some d => (sender, d) :: accepted (latch clientEp sender) rest

theorem go_cons (s : Socks5UdpStream) (clientEp sender : Endpoint) (packet : Bytes)
    (rest : List (Endpoint × Bytes)) :
    receiveFrom.go s clientEp ((sender, packet) :: rest) =
      if sender ≠ latch clientEp sender then receiveFrom.go s (latch clientEp sender) rest
      else match parseDatagram (packet.take 65536) with
        | none => receiveFrom.go s (latch clientEp sender) rest
        | some d =>
          some (.ok d, { s with clientEp := latch clientEp sender, arriving := rest }) :=
  rfl

/-- A call waits if nothing is accepted, and else returns the first that is. -/
theorem go_accepted (s : Socks5UdpStream) (clientEp : Endpoint) (xs : List (Endpoint × Bytes)) :
    (receiveFrom.go s clientEp xs = none ∧ accepted clientEp xs = []) ∨
      ∃ d s', receiveFrom.go s clientEp xs = some (.ok d, s') ∧ s'.isOpen = s.isOpen ∧
        accepted clientEp xs = (s'.clientEp, d) :: accepted s'.clientEp s'.arriving := by
  induction xs generalizing clientEp with
  | nil => exact .inl ⟨rfl, rfl⟩
  | cons x rest ih =>
    obtain ⟨sender, packet⟩ := x
    rw [go_cons, accepted]
    by_cases hsender : sender = latch clientEp sender
    · rw [if_neg (not_not.mpr hsender), if_neg (not_not.mpr hsender)]
      cases parseDatagram (packet.take 65536) with
      | none => exact ih _
      | some d =>
        refine .inr ⟨d, _, rfl, rfl, ?_⟩
        simp only [← hsender]
    · rw [if_pos hsender, if_pos hsender]
      exact ih _

/-- **Successive calls return what is accepted, in order.** -/
theorem receiveCalls_eq (n : Nat) (s : Socks5UdpStream) (hopen : s.isOpen = true) :
    receiveCalls n s = (accepted s.clientEp s.arriving).take n := by
  induction n generalizing s with
  | zero => rfl
  | succ n ih =>
    have hcall : s.receiveFrom = receiveFrom.go s s.clientEp s.arriving := by
      simp [receiveFrom, hopen]
    rw [receiveCalls, hcall]
    rcases go_accepted s s.clientEp s.arriving with ⟨hnone, hnil⟩ | ⟨d, s', hsome, hopen', hcons⟩
    · rw [hnone, hnil]
      rfl
    · rw [hsome, hcons, List.take_succ_cons, ← ih s' (hopen'.trans hopen)]

/-! ## Junk -/

/-- The datagram is dropped, whoever sends it. -/
def Malformed (packet : Bytes) : Prop := parseDatagram (packet.take 65536) = none

/-- `ys` is `xs` with malformed datagrams put in, from any senders. -/
inductive Inserted : List (Endpoint × Bytes) → List (Endpoint × Bytes) → Prop where
  | done : Inserted [] []
  | keep {xs ys : List (Endpoint × Bytes)} (x : Endpoint × Bytes) (h : Inserted xs ys) :
    Inserted (x :: xs) (x :: ys)
  | junk {xs ys : List (Endpoint × Bytes)} (sender : Endpoint) {packet : Bytes}
    (hpacket : Malformed packet) (h : Inserted xs ys) : Inserted xs ((sender, packet) :: ys)

section Accepted

variable {clientEp sender client : Endpoint} {packet : Bytes} {xs ys rest : List (Endpoint × Bytes)}

theorem latch_of_known (h : clientEp.port ≠ 0) : latch clientEp sender = clientEp := if_neg h

theorem latch_of_unknown (h : clientEp.port = 0) : latch clientEp sender = sender := if_pos h

theorem accepted_malformed (h : Malformed packet) :
    accepted clientEp ((sender, packet) :: rest) = accepted (latch clientEp sender) rest := by
  rw [accepted, h]
  split_ifs <;> rfl

/-- Once the client is known, junk does nothing. -/
theorem accepted_of_inserted (hclient : clientEp.port ≠ 0) (h : Inserted xs ys) :
    accepted clientEp ys = accepted clientEp xs := by
  induction h with
  | done => rfl
  | keep x _ ih =>
    obtain ⟨sender, packet⟩ := x
    simp only [accepted, latch_of_known hclient, ih]
  | junk sender hpacket _ ih => rw [accepted_malformed hpacket, latch_of_known hclient, ih]

/-- Before it is known, junk from the client itself or from port zero does nothing. -/
theorem accepted_front (hep : clientEp.port = 0 ∨ clientEp = client)
    (hfront : ∀ x ∈ xs, Malformed x.2 ∧ (x.1 = client ∨ x.1.port = 0)) :
    ∃ ep, (ep.port = 0 ∨ ep = client) ∧ accepted clientEp (xs ++ ys) = accepted ep ys := by
  induction xs generalizing clientEp with
  | nil => exact ⟨clientEp, hep, rfl⟩
  | cons x xs ih =>
    obtain ⟨sender, packet⟩ := x
    obtain ⟨⟨hpacket, hsender⟩, hrest⟩ := List.forall_mem_cons.mp hfront
    rw [List.cons_append, accepted_malformed hpacket]
    refine ih ?_ hrest
    unfold latch
    split_ifs with hport
    · exact hsender.symm
    · exact .inr (hep.resolve_left hport)

/-- The client's own datagram makes it known. -/
theorem accepted_client (hep : clientEp.port = 0 ∨ clientEp = client) (hclient : client.port ≠ 0) :
    accepted clientEp ((client, packet) :: rest) = accepted client ((client, packet) :: rest) := by
  have hlatch : latch clientEp client = client := by
    rcases hep with hport | rfl
    · exact latch_of_unknown hport
    · exact latch_of_known hclient
  rw [accepted, accepted, hlatch, latch_of_known hclient]

/-- Once the client is known, everything accepted comes from it. -/
theorem sender_of_known (hclient : clientEp.port ≠ 0) :
    ∀ r ∈ accepted clientEp xs, r.1 = clientEp := by
  induction xs with
  | nil => nofun
  | cons x xs ih =>
    obtain ⟨sender, packet⟩ := x
    rw [accepted, latch_of_known hclient]
    split_ifs with hsender
    · exact ih
    · split
      · exact ih
      · exact List.forall_mem_cons.mpr ⟨not_not.mp hsender, ih⟩

/-- What is accepted has arrived. -/
theorem sender_of_accepted : ∀ r ∈ accepted clientEp xs, ∃ x ∈ xs, x.1 = r.1 := by
  induction xs generalizing clientEp with
  | nil => nofun
  | cons x xs ih =>
    obtain ⟨sender, packet⟩ := x
    have hlater : ∀ r ∈ accepted (latch clientEp sender) xs,
        ∃ x ∈ (sender, packet) :: xs, x.1 = r.1 := by
      intro r hr
      obtain ⟨x, hx, hxr⟩ := ih r hr
      exact ⟨x, List.mem_cons_of_mem _ hx, hxr⟩
    rw [accepted]
    split_ifs
    · exact hlater
    · split
      · exact hlater
      · exact List.forall_mem_cons.mpr ⟨⟨_, List.mem_cons_self, rfl⟩, hlater⟩

end Accepted

/-! ## Which senders can disturb an association -/

/-- Malformed datagrams leave what is returned to `client` alone, wherever they are put into the
datagrams that arrive; in front of the first one they come from `senders`, and elsewhere from
anyone. -/
def Undisturbed (client : Endpoint) (senders : Set Endpoint) : Prop :=
  ∀ (packet : Bytes) (xs front ys : List (Endpoint × Bytes)) (n : Nat),
    (∀ x ∈ front, Malformed x.2 ∧ x.1 ∈ senders) → Inserted xs ys →
      (receiveCalls n (fresh (front ++ (client, packet) :: ys))).map Prod.snd =
        (receiveCalls n (fresh ((client, packet) :: xs))).map Prod.snd

/-- Whatever arrives from `senders`, all that is returned comes from one of them. -/
def OneSender (senders : Set Endpoint) : Prop :=
  ∀ (xs : List (Endpoint × Bytes)) (n : Nat), (∀ x ∈ xs, x.1 ∈ senders) →
    ∀ r ∈ receiveCalls n (fresh xs), ∀ r' ∈ receiveCalls n (fresh xs), r.1 = r'.1

theorem receiveCalls_fresh (n : Nat) (xs : List (Endpoint × Bytes)) :
    receiveCalls n (fresh xs) = (accepted (fresh []).clientEp xs).take n :=
  receiveCalls_eq n (fresh xs) rfl

theorem undisturbed_of_known {client : Endpoint} {senders : Set Endpoint}
    (hclient : client.port ≠ 0) (hsenders : ∀ x ∈ senders, x = client ∨ x.port = 0) :
    Undisturbed client senders := by
  intro packet xs front ys n hfront hins
  have hjunk : ∀ x ∈ front, Malformed x.2 ∧ (x.1 = client ∨ x.1.port = 0) :=
    fun x hx => ⟨(hfront x hx).1, hsenders _ (hfront x hx).2⟩
  have hfresh : (fresh []).clientEp.port = 0 ∨ (fresh []).clientEp = client := .inl rfl
  obtain ⟨ep, hep, hys⟩ : ∃ ep, (ep.port = 0 ∨ ep = client) ∧
      accepted (fresh []).clientEp (front ++ (client, packet) :: ys) =
        accepted ep ((client, packet) :: ys) := accepted_front hfresh hjunk
  rw [receiveCalls_fresh, receiveCalls_fresh, hys, accepted_client hep hclient,
    accepted_client hfresh hclient, accepted_of_inserted hclient (.keep _ hins)]

theorem oneSender_of_known {senders : Set Endpoint} (hsenders : ∀ x ∈ senders, x.port ≠ 0) :
    OneSender senders := by
  intro xs n hxs r hr r' hr'
  rw [receiveCalls_fresh] at hr hr'
  cases xs with
  | nil => simp [accepted] at hr
  | cons x xs =>
    obtain ⟨sender, packet⟩ := x
    have hsender : sender.port ≠ 0 := hsenders _ (hxs _ List.mem_cons_self)
    rw [accepted_client (.inl rfl) hsender] at hr hr'
    rw [sender_of_known hsender r (List.mem_of_mem_take hr),
      sender_of_known hsender r' (List.mem_of_mem_take hr')]

theorem oneSender_of_subsingleton {senders : Set Endpoint} (hsenders : senders.Subsingleton) :
    OneSender senders := by
  intro xs n hxs r hr r' hr'
  rw [receiveCalls_fresh] at hr hr'
  obtain ⟨x, hx, hxr⟩ := sender_of_accepted r (List.mem_of_mem_take hr)
  obtain ⟨x', hx', hxr'⟩ := sender_of_accepted r' (List.mem_of_mem_take hr')
  rw [← hxr, ← hxr']
  exact hsenders (hxs x hx) (hxs x' hx')

/-- A datagram for `1.2.3.4:53` with one byte of data. -/
def query : Bytes := [0, 0, 0, 1, 1, 2, 3, 4, 0, 53, 9]

theorem malformed_nil : Malformed [] := rfl

/-- `query` is accepted from a sender that has just been latched. -/
theorem accepted_query {clientEp sender : Endpoint} (rest : List (Endpoint × Bytes))
    (h : latch clientEp sender = sender) :
    accepted clientEp ((sender, query) :: rest) =
      (sender, [9], .ipv4 ⟨[1, 2, 3, 4], rfl⟩ 53) :: accepted sender rest := by
  rw [accepted, h, if_neg (not_not.mpr rfl)]
  rfl

/-- Another sender's `query` is not, once the client is known. -/
theorem accepted_query_other {clientEp sender : Endpoint} (hclient : clientEp.port ≠ 0)
    (hne : sender ≠ clientEp) : accepted clientEp [(sender, query)] = [] := by
  rw [accepted, latch_of_known hclient, if_pos hne]
  rfl

theorem latch_fresh (sender : Endpoint) : latch (fresh []).clientEp sender = sender :=
  latch_of_unknown rfl

/-- A client without a port is forgotten, and the next sender takes its place. -/
theorem Undisturbed.port_ne_zero {client : Endpoint} {junk : Set Endpoint}
    (h : Undisturbed client junk) : client.port ≠ 0 := by
  intro hport
  let other : Endpoint := .v4 ⟨[6, 6, 6, 6], rfl⟩ 6
  let next : Endpoint := .v4 ⟨[7, 7, 7, 7], rfl⟩ 7
  have hcalls := h [] [(next, query)] [] [(other, []), (next, query)] 1 nofun
    (.junk other malformed_nil (.keep _ .done))
  have hlost : accepted other [(next, query)] = [] := accepted_query_other (by decide) (by decide)
  rw [receiveCalls_fresh, receiveCalls_fresh, List.nil_append, accepted_malformed malformed_nil,
    accepted_malformed malformed_nil, accepted_malformed malformed_nil, latch_fresh,
    latch_of_unknown hport, hlost, accepted_query [] (latch_of_unknown hport)] at hcalls
  cases hcalls

/-- Whoever sends something first is taken for the client. -/
theorem Undisturbed.front {client : Endpoint} {junk : Set Endpoint} (h : Undisturbed client junk) :
    ∀ x ∈ junk, x = client ∨ x.port = 0 := by
  intro x hx
  by_contra hother
  obtain ⟨hne, hport⟩ := not_or.mp hother
  have hcalls := h query [] [(x, [])] [] 1 (by simp [hx, malformed_nil]) .done
  rw [receiveCalls_fresh, receiveCalls_fresh, List.singleton_append,
    accepted_malformed malformed_nil, latch_fresh, accepted_query_other hport (Ne.symm hne),
    accepted_query [] (latch_fresh client)] at hcalls
  cases hcalls

/-- A sender without a port is forgotten, and another one is accepted. -/
theorem OneSender.ports {senders : Set Endpoint} (h : OneSender senders) :
    (∀ x ∈ senders, x.port ≠ 0) ∨ senders.Subsingleton := by
  by_contra hnot
  obtain ⟨hports, hmany⟩ := not_or.mp hnot
  push Not at hports
  obtain ⟨x, hx, hport⟩ := hports
  obtain ⟨y, hy, hne⟩ := (Set.not_subsingleton_iff.mp hmany).exists_ne x
  have hone := h [(x, query), (y, query)] 2 (by simp [hx, hy])
  rw [receiveCalls_fresh, accepted_query _ (latch_fresh x),
    accepted_query [] (latch_of_unknown hport)] at hone
  exact hne (hone _ (List.mem_cons_of_mem _ List.mem_cons_self) _ List.mem_cons_self)

/-- **An association is left alone exactly if the client has a port and, before its first
datagram, no other sender with a port sends anything.** All that is returned comes from one
sender exactly if every sender has a port, or there is only one. -/
theorem association_iff (client : Endpoint) (junk senders : Set Endpoint) :
    (Undisturbed client junk ↔ client.port ≠ 0 ∧ ∀ x ∈ junk, x = client ∨ x.port = 0) ∧
      (OneSender senders ↔ (∀ x ∈ senders, x.port ≠ 0) ∨ senders.Subsingleton) := by
  refine ⟨⟨fun h => ⟨h.port_ne_zero, h.front⟩, fun h => undisturbed_of_known h.1 h.2⟩,
    ⟨fun h => h.ports, fun h => ?_⟩⟩
  rcases h with hports | hsingle
  · exact oneSender_of_known hports
  · exact oneSender_of_subsingleton hsingle

/-- An empty datagram from `6.6.6.6:6` in front cuts the client off. -/
theorem junk_cuts_client_off :
    receiveCalls 1 (fresh [(.v4 ⟨[10, 0, 0, 1], rfl⟩ 5000, query)]) =
        [(.v4 ⟨[10, 0, 0, 1], rfl⟩ 5000, [9], .ipv4 ⟨[1, 2, 3, 4], rfl⟩ 53)] ∧
      receiveCalls 1 (fresh [(.v4 ⟨[6, 6, 6, 6], rfl⟩ 6, []),
        (.v4 ⟨[10, 0, 0, 1], rfl⟩ 5000, query)]) = [] ∧ Malformed [] := by
  exact ⟨by decide +kernel, by decide +kernel, rfl⟩

end Socks5UdpStream

end Shine
