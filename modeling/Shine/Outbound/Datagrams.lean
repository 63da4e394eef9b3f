import Shine.Lib.Interference
import Shine.Outbound.ClientStreams
import Shine.Outbound.DirectUdp

/-!
# What the outbounds do with datagrams (`DirectOutbound::handleUdp`, `ShineOutbound::handle`)

Both relay with two loops at a time: one takes datagrams from the client and sends them on, the
other takes the answers and sends them to the client. Here the client, the resolver, the clock
and the remote end answer anything, and the two loops interleave in any order. A `Lane` records
what one loop received and what became of it, and an `Exchange` also what the resolver has answered
for each domain.

`relay_faithful` says when the calls are made, that what leaves the relay is in order what came
in, with nothing lost but what the code gives up on, and how the relay ends. The direct outbound
sends a datagram for a domain to an endpoint that the resolver has given for the domain, be it for
this datagram or, out of the cache, for an earlier one that named another port.
-/

namespace Shine

open Co Handler

/-- What becomes of a datagram of the client. -/
inductive Fate where
  | sent (dest : Endpoint)
  /-- Passed to the session on the link. -/
  | passed (target : Address)
  /-- `sendTo` on that session has failed. -/
  | failed (target : Address)
  /-- Its domain could not be resolved. -/
  | dropped

/-- One loop: what it has received, the last one as long as it is in its hands, and what became
of the others; whether it has found its source to be at an end, and how often it has closed the
other side. -/
structure Lane (β : Type) where
  got : List Datagram
  held : Option Datagram
  done : List β
  ended : Bool
  closes : Nat

namespace Lane

variable {β : Type}

def init : Lane β := ⟨[], none, [], false, 0⟩

/-- A datagram is received. -/
def receive (l : Lane β) (d : Datagram) : Lane β := { l with got := l.got ++ [d], held := some d }

/-- What is held is done with. -/
def settle (l : Lane β) (b : β) : Lane β := { l with held := none, done := l.done ++ [b] }

def finish (l : Lane β) : Lane β := { l with ended := true }

def close (l : Lane β) : Lane β := { l with closes := l.closes + 1 }

end Lane

/-- The two loops: from the client, and to it as the frames that are enqueued. -/
structure Exchange where
  up : Lane (Bytes × Fate)
  down : Lane ShineFrame
  /-- The domains that have been resolved, with the endpoints. -/
  found : List (Bytes × Endpoint)

namespace Exchange

/-- Before the first call. -/
def init : Exchange := ⟨.init, .init, []⟩

/-- What the calls of the loop from the client do. -/
def execUp (u : Lane (Bytes × Fate)) : (op : HandlerOp) → op.Ans → Lane (Bytes × Fate) → Prop
  | .takeInjected, some d, u' => u' = u.receive d
  | .session _ .checkReceive, false, u' => u' = u.finish
  | .session _ .receiveDatagram, some d, u' => u' = u.receive d
  | .session _ .receiveDatagram, none, u' => u' = u.finish
  | .remote (.resolveOne _), .error _, u' =>
    ∀ d, u.held = some d → u' = u.settle (d.1, .dropped)
  | .remote (.asyncSendTo data dest), _, u' => u' = u.settle (data, .sent dest)
  | .remote (.sendTo data target), .ok (), u' => u' = u.settle (data, .passed target)
  | .remote (.sendTo data target), .error _, u' => u' = (u.settle (data, .failed target)).finish
  | .remote .close, _, u' => u' = u.close
  | _, _, u' => u' = u

/-- What the calls of the loop to the client do. -/
def execDown (l : Lane ShineFrame) : (op : HandlerOp) → op.Ans → Lane ShineFrame → Prop
  | .remote .asyncReceiveFrom, .ok (data, sender), l' =>
    l' = l.receive (data, DirectOutbound.source sender)
  | .remote .asyncReceiveFrom, .error _, l' => l' = l.finish
  | .remote .receiveFrom, .ok d, l' => l' = l.receive d
  | .remote .receiveFrom, .error _, l' => l' = l.finish
  | .session _ .checkWrite, .error _, l' => l' = l.finish
  | .session _ (.enqueueFrame f), _, l' => l' = l.settle f
  | .session _ .close, _, l' => l' = l.close
  | _, _, l' => l' = l

/-- What the resolver has answered, after a call. -/
def learn (found : List (Bytes × Endpoint)) : (op : HandlerOp) → op.Ans → List (Bytes × Endpoint)
  | .remote (.resolveOne (.domain name _)), .ok ep => (name, ep) :: found
  | _, _ => found

/-- The calls of the loop from the client. -/
def UpOp : HandlerOp → Prop
  | .takeInjected | .session _ .checkReceive | .session _ .receiveDatagram
  | .remote (.resolveOne _) | .remote .now | .remote (.asyncSendTo ..) | .remote (.sendTo ..)
  | .remote .close => True
  | _ => False

/-- The calls of the loop to the client. -/
def DownOp : HandlerOp → Prop
  | .remote .asyncReceiveFrom | .remote .receiveFrom | .session _ .checkWrite
  | .session _ (.enqueueFrame _) | .session _ .close => True
  | _ => False

/-- A call belongs to one of the two loops. -/
def exec (w : Exchange) (op : HandlerOp) (r : op.Ans) (w' : Exchange) : Prop :=
  (UpOp op → execUp w.up op r w'.up) ∧ (DownOp op → execDown w.down op r w'.down) ∧
    (¬ UpOp op → w'.up = w.up) ∧ (¬ DownOp op → w'.down = w.down) ∧
    w'.found = learn w.found op r

/-- Where a datagram for this target goes: to its own endpoint, or for a domain to an endpoint that
has been found for the domain. The port that the target names beside its domain has no part in
it. -/
def Destined (found : List (Bytes × Endpoint)) : Address → Endpoint → Prop
  | .ipv4 bytes port, dest => dest = .v4 bytes port
  | .ipv6 bytes port, dest => dest = .v6 bytes port
  | .domain name _, dest => (name, dest) ∈ found

/-- The target is a domain. -/
def IsDomain (t : Address) : Prop := ∃ name port, t = .domain name port

/-- The fate is one of this datagram: its payload goes to its destination, or to its target on the
link; only a domain is ever dropped. -/
def Serves (found : List (Bytes × Endpoint)) (d : Datagram) (r : Bytes × Fate) : Prop :=
  r.1 = d.1 ∧ match r.2 with
    | .sent dest => Destined found d.2 dest
    | .passed target | .failed target => target = d.2
    | .dropped => IsDomain d.2

/-- The frame that brings a datagram to the client. -/
def frameOf (sid : UInt64) (d : Datagram) : ShineFrame := .udpData sid d.2.toBinary d.1

end Exchange

/-- Nothing is in hand and there may be more. -/
structure Lane.Idle {β : Type} (l : Lane β) : Prop where
  held : l.held = none
  ended : l.ended = false
  closes : l.closes = 0

/-- The datagram is in hand. -/
structure Lane.Holds {β : Type} (d : Datagram) (l : Lane β) : Prop where
  held : l.held = some d
  ended : l.ended = false
  closes : l.closes = 0

/-- The loop has ended, and has closed the other side so many times. -/
structure Lane.Over {β : Type} (n : Nat) (l : Lane β) : Prop where
  ended : l.ended = true
  closes : l.closes = n

section Lanes

variable {β : Type} {l l' : Lane β} {d : Datagram}

theorem Lane.Idle.receive (h : l.Idle) (hl : l' = l.receive d) : l'.Holds d := by
  subst hl
  exact ⟨rfl, h.ended, h.closes⟩

theorem Lane.Idle.finish (h : l.Idle) (hl : l' = l.finish) : l'.Over 0 := by
  subst hl
  exact ⟨rfl, h.closes⟩

theorem Lane.Holds.settle {b : β} (h : l.Holds d) (hl : l' = l.settle b) : l'.Idle := by
  subst hl
  exact ⟨rfl, h.ended, h.closes⟩

theorem Lane.Holds.finish (h : l.Holds d) (hl : l' = l.finish) : l'.Over 0 := by
  subst hl
  exact ⟨rfl, h.closes⟩

theorem Lane.Over.close {n : Nat} (h : l.Over n) (hl : l' = l.close) : l'.Over (n + 1) := by
  subst hl
  exact ⟨h.ended, congrArg (· + 1) h.closes⟩

end Lanes

namespace Exchange

/-- **When the relay makes its calls.** It receives only with nothing in hand; it resolves the
target, and sends the payload, of what is in hand, to its destination; what it brings to the
client is what is in hand; and it closes a side once, after the other has failed it. -/
def Proper (sid : UInt64) (w : Exchange) : HandlerOp → Prop
  | .takeInjected | .session _ .checkReceive | .session _ .receiveDatagram => w.up.Idle
  | .remote (.resolveOne t) => IsDomain t ∧ ∃ data, w.up.Holds (data, t)
  | .remote .now => ∃ d, w.up.Holds d
  | .remote (.asyncSendTo data dest) =>
    ∃ t, w.up.Holds (data, t) ∧ Destined w.found t dest
  | .remote (.sendTo data target) => w.up.Holds (data, target)
  | .remote .close => w.up.Over 0
  | .remote .asyncReceiveFrom | .remote .receiveFrom => w.down.Idle
  | .session _ .checkWrite => ∃ d, w.down.Holds d
  | .session _ (.enqueueFrame f) => ∃ d, w.down.Holds d ∧ f = frameOf sid d
  | .session _ .close => w.down.Over 0
  | _ => False

variable {sid : UInt64}

/-- The endpoints in the cache have been found for their domains. -/
def CacheFound (cache : DirectOutbound.Cache) (found : List (Bytes × Endpoint)) : Prop :=
  ∀ e ∈ cache, (e.1, e.2.1) ∈ found

theorem CacheFound.set {cache : DirectOutbound.Cache} {found : List (Bytes × Endpoint)}
    (h : CacheFound cache found) {name : Bytes} {dest : Endpoint} (hmem : (name, dest) ∈ found)
    (now : Int) : CacheFound (cache.set name dest now) found := by
  intro e he
  rcases List.mem_cons.mp he with rfl | he
  · exact hmem
  · exact h e (List.mem_of_mem_filter he)

/-- What a loop has received is what it is done with, in order, and what is in hand; `P` relates
the former to what became of it. -/
def Kept {β : Type} (P : List Datagram → List β → Prop) (l : Lane β) : Prop :=
  ∃ served, l.got = served ++ l.held.toList ∧ P served l.done

section Kept

variable {β : Type} {P : List Datagram → List β → Prop} {l l' : Lane β} {d : Datagram}

theorem Kept.receive (h : Kept P l) (hl : l.held = none) (hl' : l' = l.receive d) : Kept P l' := by
  obtain ⟨served, hgot, hP⟩ := h
  subst hl'
  refine ⟨served, ?_, hP⟩
  rw [hl, Option.toList_none, List.append_nil] at hgot
  rw [Lane.receive, hgot]
  rfl

theorem Kept.settle {b : β} (h : Kept P l) (hl : l.held = some d) (hl' : l' = l.settle b)
    (hb : ∀ served done, P served done → P (served ++ [d]) (done ++ [b])) : Kept P l' := by
  obtain ⟨served, hgot, hP⟩ := h
  subst hl'
  refine ⟨served ++ [d], ?_, hb _ _ hP⟩
  rw [Lane.settle, hgot, hl, Option.toList_some, Option.toList_none, List.append_nil]

theorem Kept.keep (h : Kept P l) (hl' : l' = l) : Kept P l' := by
  subst hl'
  exact h

theorem Kept.finish (h : Kept P l) (hl' : l' = l.finish) : Kept P l' := by
  subst hl'
  exact h

theorem Kept.close (h : Kept P l) (hl' : l' = l.close) : Kept P l' := by
  subst hl'
  exact h

end Kept

theorem Serves.mono {found found' : List (Bytes × Endpoint)} {d : Datagram} {r : Bytes × Fate}
    (h : Serves found d r) (hsub : found ⊆ found') : Serves found' d r := by
  obtain ⟨data, t⟩ := d
  obtain ⟨payload, fate⟩ := r
  refine ⟨h.1, ?_⟩
  cases fate with
  | sent dest =>
    cases t with
    | ipv4 bytes port => exact h.2
    | ipv6 bytes port => exact h.2
    | domain name port => exact hsub h.2
  | passed target => exact h.2
  | failed target => exact h.2
  | dropped => exact h.2

end Exchange

end Shine
