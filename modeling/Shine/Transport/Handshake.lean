import Shine.Transport.Server

/-!
# The two handshakes against each other (`transport/link.cpp`)

`handshakeClient` and `handshakeServer` run on the two ends of a connection. Each decides
by its own password whether there is an AUTH, and a frame that it does not expect fails
the link in the handshake and is ignored afterwards.

`Handshake` is both sides and the frames between them. A frame on the connection is one
value here: how TCP splits its bytes makes no difference to what a side decodes
(`decoding_ignores_segmentation`).
-/

namespace Shine

/-! ## The client coroutine -/

/-- Where the client coroutine stands. -/
inductive ClientPc where
  | sendHello
  /-- `handshakeClient` waits for its first frame. -/
  | hello
  | sendAuth
  /-- `handshakeClient` waits for its second frame. -/
  | reply
  /-- `handshakeClient` has returned to `start`. -/
  | returned
  | reader
  | finished
  deriving DecidableEq, Repr

/-- A client link and its coroutine. -/
structure Client where
  link : Link
  pc : ClientPc

/-- The HELLO of either side. -/
def helloFrame : ShineFrame := .hello (ascii "1") (ascii "mux,flow")

/-- The answer to a wrong password. -/
def badPassword : ShineFrame := .err (ascii "AUTH") (ascii "bad password")

namespace Client

/-- The coroutine as `start` spawns it. -/
def start (opts : LinkOptions) (now : UInt64) : Client := ⟨.new opts false now, .sendHello⟩

/-- `failLink`, and on to `pc`. -/
def fail (c : Client) (pc : ClientPc) : Client := ⟨c.link.failLink, pc⟩

/-- The pieces that do not look at the read buffer. -/
def jump (c : Client) : Option Client :=
  match c.pc with
  | .sendHello => some ⟨c.link.enqueueFrame helloFrame, .hello⟩
  | .sendAuth => some ⟨c.link.enqueueFrame (.auth c.link.opts.password), .reply⟩
  | .returned => some ⟨c.link, if c.link.closed then .finished else .reader⟩
  | .reader => if c.link.closed then some ⟨c.link, .finished⟩ else none
  | .hello | .reply | .finished => none

/-- The coroutine is at a piece that decodes a frame. -/
def decoding (c : Client) : Bool :=
  match c.pc with
  | .hello | .reply => true
  | .reader => !c.link.closed
  | _ => false

/-- What the first frame of the handshake does. -/
def onHello (c : Client) : Attempt → Client
  | .frame _ (.hello ..) =>
    ⟨c.link, if c.link.opts.password = [] then .returned else .sendAuth⟩
  | _ => c.fail .returned

/-- What the second frame of the handshake does. -/
def onReply (c : Client) : Attempt → Client
  | .frame _ .ok => ⟨c.link, .returned⟩
  | _ => c.fail .returned

/-- What a frame does in the reader. -/
def onFrame (c : Client) (now : UInt64) : Attempt → Client
  | .frame _ f => ⟨c.link.dispatchFrame now f, c.pc⟩
  | _ => c.fail .finished

/-- What a decoded frame or an error does. -/
def take (c : Client) (now : UInt64) (a : Attempt) : Client :=
  match c.pc with
  | .hello => c.onHello a
  | .reply => c.onReply a
  | _ => c.onFrame now a

end Client

/-! ## Both sides -/

/-- The two coroutines, the frames on the connection, all that each side has taken off it,
and whether each has set `handshake_done_`. -/
structure Handshake where
  client : Client
  server : Server
  toServer : List ShineFrame
  toClient : List ShineFrame
  serverRead : List ShineFrame
  clientRead : List ShineFrame
  clientDone : Bool
  serverDone : Bool

namespace Handshake

/-- What can happen: a side runs to its next suspension, its writer puts a frame on the
connection, it reads a frame, it sees that the other side has closed the connection, or
its own closed socket drops a frame. -/
inductive Event where
  | clientRuns
  | clientWrites
  | clientReads
  | clientEof
  | clientDrops
  | serverRuns
  | serverWrites
  | serverReads
  | serverEof
  | serverDrops
  deriving DecidableEq

variable (h : Handshake)

/-- Take the first frame of a queue. -/
def pop : List ShineFrame → Option (ShineFrame × List ShineFrame)
  | [] => none
  | f :: rest => some (f, rest)

/-- The frame as the parser of the reading side makes it out. -/
def received (l : Link) (f : ShineFrame) : Attempt := attempt l.opts.maxPayload (encode f)

/-- What a read reports when the other side has closed the connection. -/
def eof : Attempt := .refused (.unavailable (ascii "eof"))

/-- One step. -/
def step : Event → Option Handshake
  | .clientRuns => h.client.jump.map fun c =>
    { h with client := c, clientDone := h.clientDone || c.pc = .reader }
  | .clientWrites =>
    if h.client.link.closed then none
    else (pop h.client.link.writeChan).map fun (f, rest) =>
      { h with
        client := ⟨{ h.client.link with writeChan := rest }, h.client.pc⟩
        toServer := h.toServer ++ [f] }
  | .clientReads =>
    if h.client.decoding then
      (pop h.toClient).map fun (f, rest) =>
        { h with
          client := h.client.take 0 (received h.client.link f)
          toClient := rest
          clientRead := h.clientRead ++ [f] }
    else none
  | .clientEof =>
    if h.client.decoding ∧ h.server.link.closed ∧ h.toClient = [] then
      some { h with client := h.client.take 0 eof }
    else none
  | .clientDrops =>
    if h.client.link.closed then
      (pop h.toClient).map fun (f, rest) =>
        { h with toClient := rest, clientRead := h.clientRead ++ [f] }
    else none
  | .serverRuns => h.server.jump.map fun s =>
    { h with server := s, serverDone := h.serverDone || s.pc = .reader }
  | .serverWrites =>
    if h.server.link.closed then none
    else (pop h.server.link.writeChan).map fun (f, rest) =>
      { h with
        server := { h.server with link := { h.server.link with writeChan := rest } }
        toClient := h.toClient ++ [f] }
  | .serverReads =>
    if h.server.decoding then
      (pop h.toServer).map fun (f, rest) =>
        { h with
          server := h.server.take 0 (received h.server.link f)
          toServer := rest
          serverRead := h.serverRead ++ [f] }
    else none
  | .serverEof =>
    if h.server.decoding ∧ h.client.link.closed ∧ h.toServer = [] then
      some { h with server := h.server.take 0 eof }
    else none
  | .serverDrops =>
    if h.server.link.closed then
      (pop h.toServer).map fun (f, rest) =>
        { h with toServer := rest, serverRead := h.serverRead ++ [f] }
    else none

/-- All runs. -/
def system : Lts Handshake Event := ⟨step⟩

/-- Two links that have just been started. -/
def start (co so : LinkOptions) (handler : Bool) : Handshake where
  client := .start co 0
  server := .start so handler 0
  toServer := []
  toClient := []
  serverRead := []
  clientRead := []
  clientDone := false
  serverDone := false

/-- Nothing is in flight, and neither side can go on. -/
structure Quiescent (h : Handshake) : Prop where
  clientWaits : h.client.jump = none
  serverWaits : h.server.jump = none
  toServer : h.toServer = []
  toClient : h.toClient = []
  clientWritten : h.client.link.closed = false → h.client.link.writeChan = []
  serverWritten : h.server.link.closed = false → h.server.link.writeChan = []

end Handshake

end Shine
