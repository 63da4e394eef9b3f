import Shine.Lib.Coroutine
import Shine.Transport.Link

/-!
# Streams and the pipe between two of them (`transport/pipe.cpp`, `session.cpp`)

`ISessionStream` and `IDatagramStream` are records of coroutines, over any operations.
`bidiCopy` joins two streams whatever they are made of.

The second part has the methods of `Session` as coroutines. Their operations are the
pieces of code between two suspensions, `SessionOp`; what a piece does to the link is
`SessionOp.run`, which has no result where the coroutine stays suspended.
-/

namespace Shine

/-- A datagram with the address it is for, or comes from. -/
abbrev Datagram := Bytes × Address

/-- `ISessionStream`. A `read` returns the bytes that it puts in the buffer. -/
structure SessionStream (Op : Type) (Ans : Op → Type) where
  read : Nat → Co Op Ans (StatusOr Bytes)
  write : Bytes → Co Op Ans (StatusOr Unit)
  shutdownWrite : Co Op Ans Unit
  close : Co Op Ans Unit

/-- `IDatagramStream`. -/
structure DatagramStream (Op : Type) (Ans : Op → Type) where
  sendTo : Bytes → Address → Co Op Ans (StatusOr Unit)
  receiveFrom : Co Op Ans (StatusOr Datagram)
  close : Co Op Ans Unit

section Pipe

variable {Op : Type} {Ans : Op → Type}

/-- One turn of the loop of `halfCopy`. -/
def copyTurn (src dst : SessionStream Op Ans) : Co Op Ans (Unit ⊕ Unit) := do
  match ← src.read (32 * 1024) with
  | .error _ => return .inr ()
  | .ok [] => return .inr ()
  | .ok data =>
    match ← dst.write data with
    | .error _ => return .inr ()
    | .ok () => return .inl ()

/-- `halfCopy`. -/
def halfCopy (src dst : SessionStream Op Ans) : Co Op Ans Unit := do
  Co.loop (fun _ => copyTurn src dst) ()
  dst.shutdownWrite

/-- `bidiCopy`. -/
def bidiCopy (a b : SessionStream Op Ans) : Co Op Ans Unit := do
  Co.par (halfCopy a b) (halfCopy b a)
  a.close
  b.close

end Pipe

/-! ## The methods of `Session` -/

/-- How `read` goes on after its first piece. -/
inductive ReadReply where
  | bytes (out : Bytes)
  | eof
  | wait
  deriving DecidableEq

/-- The pieces of the methods of `Session`. -/
inductive SessionOp where
  /-- `read` with a buffer of `n` bytes, up to `async_receive`. -/
  | readStart (n : Nat)
  /-- The completion of `async_receive` in `read`. -/
  | receive (n : Nat)
  /-- `maybeSendWindow` up to `enqueueFrame`. -/
  | takeWindow
  /-- The checks at the start of `write` and `sendTo`. -/
  | checkWrite
  /-- `write`: wait for credit and take it for the next chunk. -/
  | takeChunk (remaining : Nat)
  | enqueueFrame (f : ShineFrame)
  | shutdownWrite
  | close
  /-- `receiveFrom` up to `async_receive`. -/
  | checkReceive
  /-- The completion of `async_receive` in `receiveFrom`. -/
  | receiveDatagram
  deriving DecidableEq

namespace SessionOp

/-- What the pieces hand on. -/
abbrev Ans : SessionOp → Type
  | .readStart _ => ReadReply
  | .receive _ => Option Bytes
  | .takeWindow => Option UInt32
  | .checkWrite => StatusOr Unit
  | .takeChunk _ => Option Nat
  | .enqueueFrame _ | .shutdownWrite | .close => Unit
  | .checkReceive => Bool
  | .receiveDatagram => Option Datagram

/-- The completion of `udp_inbox_->async_receive`, which fails on a closed inbox that
is empty. -/
def receiveUdp (l : Link) (p : Nat) (s : Session) : Option (Option Datagram × Link) :=
  match s.io with
  | .tcp .. => none
  | .udp inbox =>
    match inbox.receive with
    | some (d, inbox') => some (some d, l.modify p fun s => { s with io := .udp inbox' })
    | none => if inbox.closed then some (none, l) else none

/-- The effect of a piece of a method of the session object `s` at pointer `p`. -/
def apply (l : Link) (p : Nat) (s : Session) : (op : SessionOp) → Option (op.Ans × Link)
  | .readStart n =>
    match s.readStart n with
    | .bytes out s' => some (.bytes out, l.modify p fun _ => s')
    | .eof => some (.eof, l)
    | .wait => some (.wait, l)
  | .receive n =>
    match s.receive n with
    | .bytes out s' => some (some out, l.modify p fun _ => s')
    | .eof => some (none, l)
    | .wait => none
  | .takeWindow =>
    if l.closed then some (none, l)
    else some (s.takeWindow.1, l.modify p fun _ => s.takeWindow.2)
  | .checkWrite =>
    if l.closed then some (.error (.unavailable (ascii "link closed")), l)
    else if s.writeClosed then
      some (.error (.failedPrecondition (ascii "session write side closed")), l)
    else some (.ok (), l)
  | .takeChunk remaining =>
    let n := s.chunkSize remaining l.opts.maxDataFrame
    if n ≠ 0 then some (some n, l.modify p fun s => s.takeCredit n)
    else if s.sendCredit ≤ 0 ∧ l.closed then some (none, l)
    else none
  | .enqueueFrame f => some ((), l.enqueueFrame f)
  | .shutdownWrite => some ((), l.shutdownWrite p)
  | .close => some ((), l.close p)
  | .checkReceive => some (!(s.state = .closed || s.state = .halfClosedRemote), l)
  | .receiveDatagram => receiveUdp l p s

/-- The effect of a piece on the link. -/
def run (l : Link) (p : Nat) (op : SessionOp) : Option (op.Ans × Link) :=
  (l.heap p).bind fun s => op.apply l p s

/-- What a piece can do to the link: nothing, change the session object but neither its
sid nor its state, enqueue a frame, or one of the two calls that close. -/
theorem run_cases {l l' : Link} {p : Nat} {op : SessionOp} {r : op.Ans}
    (h : op.run l p = some (r, l')) :
    l' = l ∨
    (∃ s f, l.heap p = some s ∧ (f s).sid = s.sid ∧ (f s).state = s.state ∧ l' = l.modify p f) ∨
    (∃ f, op = .enqueueFrame f ∧ l' = l.enqueueFrame f) ∨
    (op = .shutdownWrite ∧ l' = l.shutdownWrite p) ∨ (op = .close ∧ l' = l.close p) := by
  obtain ⟨s, hs, happly⟩ := Option.bind_eq_some_iff.mp h
  cases op with
  | readStart n =>
    simp only [apply] at happly
    split at happly <;> cases happly
    · rename_i hread
      obtain ⟨-, -, -, -, -, hstate, -, hsid, -⟩ := Session.readStart_bytes hread
      exact .inr (.inl ⟨s, _, hs, hsid, hstate, rfl⟩)
    · exact .inl rfl
    · exact .inl rfl
  | receive n =>
    simp only [apply] at happly
    split at happly <;> cases happly
    · rename_i hread
      obtain ⟨-, -, -, -, -, -, -, -, -, hstate, -, hsid, -⟩ := Session.receive_bytes hread
      exact .inr (.inl ⟨s, _, hs, hsid, hstate, rfl⟩)
    · exact .inl rfl
  | takeWindow =>
    simp only [apply] at happly
    split_ifs at happly <;> cases happly
    · exact .inl rfl
    · refine .inr (.inl ⟨s, _, hs, ?_, ?_, rfl⟩) <;> unfold Session.takeWindow <;>
        split_ifs <;> rfl
  | checkWrite =>
    simp only [apply] at happly
    split_ifs at happly <;> cases happly <;> exact .inl rfl
  | takeChunk remaining =>
    simp only [apply] at happly
    split_ifs at happly <;> cases happly
    · exact .inr (.inl ⟨s, _, hs, rfl, rfl, rfl⟩)
    · exact .inl rfl
  | enqueueFrame f =>
    cases happly
    exact .inr (.inr (.inl ⟨f, rfl, rfl⟩))
  | shutdownWrite =>
    cases happly
    exact .inr (.inr (.inr (.inl ⟨rfl, rfl⟩)))
  | close =>
    cases happly
    exact .inr (.inr (.inr (.inr ⟨rfl, rfl⟩)))
  | checkReceive =>
    cases happly
    exact .inl rfl
  | receiveDatagram =>
    simp only [apply, receiveUdp] at happly
    split at happly
    · cases happly
    · split at happly
      · cases happly
        exact .inr (.inl ⟨s, _, hs, rfl, rfl, rfl⟩)
      · split_ifs at happly
        cases happly
        exact .inl rfl

end SessionOp

namespace Session

section Calls

variable {Op : Type} {Ans : Op → Type} (piece : (op : SessionOp) → Co Op Ans op.Ans) (sid : UInt64)

/-- `Session::maybeSendWindow`. -/
def maybeSendWindow : Co Op Ans Unit := do
  match ← piece .takeWindow with
  | none => return ()
  | some delta => piece (.enqueueFrame (.window sid delta))

/-- `Session::read`. -/
def read (n : Nat) : Co Op Ans (StatusOr Bytes) := do
  match ← piece (.readStart n) with
  | .bytes out =>
    maybeSendWindow piece sid
    return .ok out
  | .eof => return .ok []
  | .wait =>
    match ← piece (.receive n) with
    | none => return .ok []
    | some out =>
      maybeSendWindow piece sid
      return .ok out

/-- One turn of the loop of `Session::write`. -/
def writeTurn (rest : Bytes) : Co Op Ans (Bytes ⊕ StatusOr Unit) := do
  if rest = [] then return .inr (.ok ())
  else match ← piece (.takeChunk rest.length) with
    | none => return .inr (.error (.unavailable (ascii "link closed")))
    | some n =>
      piece (.enqueueFrame (.data sid (rest.take n)))
      return .inl (rest.drop n)

/-- `Session::write`. -/
def write (data : Bytes) : Co Op Ans (StatusOr Unit) := do
  match ← piece .checkWrite with
  | .error st => return .error st
  | .ok () => Co.loop (writeTurn piece sid) data

/-- `Session::sendTo`. -/
def sendTo (data : Bytes) (target : Address) : Co Op Ans (StatusOr Unit) := do
  match ← piece .checkWrite with
  | .error st => return .error st
  | .ok () =>
    piece (.enqueueFrame (.udpData sid target.toBinary data))
    return .ok ()

/-- `Session::receiveFrom`. -/
def receiveFrom : Co Op Ans (StatusOr Datagram) := do
  if ← piece .checkReceive then
    match ← piece .receiveDatagram with
    | none => return .error (.unavailable (ascii "session closed"))
    | some d => return .ok d
  else return .error (.unavailable (ascii "session closed"))

/-- A session as an `ISessionStream`. -/
def stream : SessionStream Op Ans where
  read := read piece sid
  write := write piece sid
  shutdownWrite := piece .shutdownWrite
  close := piece .close

end Calls

end Session

end Shine
