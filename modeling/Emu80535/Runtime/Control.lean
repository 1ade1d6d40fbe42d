import Emu80535.Core.State

/-! The control socket loop, as one connection and its client see it. -/

namespace Emu80535.Control

/-! ### The session and the kernel -/

/-- `FRAME`, the size of both buffers of a peer. -/
def frameBytes : Nat := 65536

/-- The byte that ends requests and responses. -/
def lineFeed : Byte := 0x0A#8

/-- What the session makes of a request: whether it returned `EMUIF_OK`, and what it wrote. -/
structure Reply where
  ok : Bool
  bytes : List Byte
  deriving DecidableEq, Repr

/-- Whether `read_peer` passes a reply on. -/
def Reply.answered (r : Reply) : Bool :=
  r.ok && !r.bytes.isEmpty && decide (r.bytes.length < frameBytes)

/-- The session operations the loop performs for a client. -/
structure Service (σ : Type) where
  request : List Byte → σ → Reply × σ
  close : σ → σ
  /-- `emu_session_client_ready`. -/
  clientReady : σ → Bool
  /-- `emu_session_client_open`. -/
  clientOpen : σ → Bool
  /-- `emu_session_state` is `EMUIF_STATE_TERMINATED`. -/
  terminated : σ → Bool

/-- What the kernel lets a nonblocking call do: wait, move so many bytes, or fail. -/
inductive Grant where
  | later
  | bytes (count : Nat)
  | failed
  deriving DecidableEq, Repr

/-- What `recv` returns. -/
inductive Received where
  | later
  | ended
  | data (bytes : List Byte)
  | failed

/-- The receiving half of a socket: what the client sent and nobody received, and whether it is all. -/
structure Socket where
  incoming : List Byte
  ended : Bool

/-- `recv` with `MSG_PEEK`: a grant for data moves at least one byte and at most the limit. -/
def Socket.peek (s : Socket) (limit : Nat) : Grant → Received
  | .later => .later
  | .failed => .failed
  | .bytes count =>
    -- A socket without bytes waits, unless the client has ended its stream.
    if s.incoming = [] then if s.ended then .ended else .later
    else .data (s.incoming.take (min (max 1 count) limit))

/-- What remains once bytes have been received. -/
def Socket.consume (s : Socket) (bytes : List Byte) : Socket :=
  { s with incoming := s.incoming.drop bytes.length }

/-! ### A connection -/

/-- `struct peer`, where the buffers hold what is in use of them. -/
structure Peer where
  input : List Byte
  output : List Byte
  written : Nat
  hello : Bool
  closing : Bool

/-- Which call of `peer_close` closed a connection. -/
inductive Cause where
  | emptyFrame
  | longFrame
  /-- The request failed or was not answered. -/
  | unanswered
  /-- The session had closed the client, and its last response is written. -/
  | released
  /-- The client sends no more. -/
  | streamEnd
  /-- The session is terminated. -/
  | terminated
  /-- The socket failed. -/
  | lost
  deriving DecidableEq, Repr

/-- A slot of the peer table that a client has been accepted into. -/
inductive Slot where
  | serving (p : Peer)
  | closed (cause : Cause)

/-- One connection: the session behind it, its slot and its socket. -/
structure Connection (σ : Type) where
  session : σ
  slot : Slot
  socket : Socket

/-- What happens on a connection. -/
inductive Event where
  /-- The client sends bytes. -/
  | sent (bytes : List Byte)
  /-- A request is handed to the session; the flag tells whether the client is open after it. -/
  | asked (frame : List Byte) (reply : Reply) (stays : Bool)
  /-- Response bytes are written. -/
  | wrote (bytes : List Byte)

namespace Connection

variable {σ : Type} (service : Service σ)

/-- `peer_close`. -/
def peerClose (cause : Cause) (c : Connection σ) : Connection σ :=
  { c with session := service.close c.session, slot := .closed cause }

/-- The end of `read_peer`, over an input buffer that ends in a line feed. -/
def request (frame : List Byte) (p : Peer) (c : Connection σ) : Connection σ × List Event :=
  let answer := service.request frame c.session
  let c := { c with session := answer.2 }
  let asked := [Event.asked frame answer.1 (service.clientOpen c.session)]
  -- An answer is sent with the line feed that ends it.
  if answer.1.answered then
    ({ c with slot := .serving { p with
        input := []
        output := answer.1.bytes ++ [lineFeed]
        written := 0
        hello := service.clientReady c.session
        closing := !service.clientOpen c.session } }, asked)
  -- Anything else closes the connection without an answer.
  else (c.peerClose service .unanswered, asked)

/-- How much of what was peeked at is received: up to the line feed `memchr` finds, or all. -/
def takeOf (seen : List Byte) : Nat :=
  match seen.idxOf? lineFeed with
  | some i => i + 1
  | none => seen.length

/-- `read_peer`, over what the kernel grants to the two calls of `recv`. -/
def readPeer (peeked granted : Grant) (p : Peer) (c : Connection σ) : Connection σ × List Event :=
  -- What is waiting is looked at first, up to the room in the buffer.
  match c.socket.peek (frameBytes - p.input.length) peeked with
  | .later => (c, [])
  | .failed => (c.peerClose service .lost, [])
  | .ended => (c.peerClose service .streamEnd, [])
  | .data seen =>
    -- Then it is received up to the first line feed, so no frame takes bytes of the next one.
    match c.socket.peek (takeOf seen) granted with
    | .later => (c, [])
    | .failed => (c.peerClose service .lost, [])
    | .ended => (c.peerClose service .streamEnd, [])
    | .data bytes =>
      let input := p.input ++ bytes
      let c := { c with socket := c.socket.consume bytes }
      -- The frame goes on, unless the buffer is full.
      if input.getLast? ≠ some lineFeed then
        if input.length = frameBytes then (c.peerClose service .longFrame, [])
        else ({ c with slot := .serving { p with input := input } }, [])
      -- A line feed alone is no frame.
      else if input.length = 1 then (c.peerClose service .emptyFrame, [])
      else c.request service input.dropLast p

/-- `write_peer`, over what the kernel grants to `send`. -/
def writePeer (granted : Grant) (p : Peer) (c : Connection σ) : Connection σ × List Event :=
  match granted with
  | .later => (c, [])
  | .failed => (c.peerClose service .lost, [])
  | .bytes count =>
    let bytes := (p.output.drop p.written).take (max 1 count)
    let written := p.written + bytes.length
    -- The response is complete.
    if written = p.output.length then
      -- The session had closed the client, so the connection closes behind its answer.
      if p.closing then (c.peerClose service .released, [.wrote bytes])
      else ({ c with slot := .serving { p with output := [], written := 0 } }, [.wrote bytes])
    else ({ c with slot := .serving { p with written := written } }, [.wrote bytes])

/-- The bits of `revents` the loop tests. -/
structure Ready where
  /-- `POLLERR | POLLNVAL`. -/
  error : Bool
  /-- `POLLOUT`. -/
  output : Bool
  /-- `POLLIN | POLLHUP`. -/
  input : Bool

/-- What `runtime_control_run` does for a peer after `poll`. -/
def serve (ready : Ready) (peeked granted : Grant) (c : Connection σ) :
    Connection σ × List Event :=
  match c.slot with
  | .closed _ => (c, [])
  | .serving p =>
    if ready.error then (c.peerClose service .lost, [])
    -- Output that waits comes before the next request.
    else if ready.output ∧ p.output ≠ [] then c.writePeer service granted p
    -- No request is read while its predecessor is being answered.
    else if ready.input ∧ p.output = [] then c.readPeer service peeked granted p
    else (c, [])

/-- What `runtime_control_run` does for a peer before `poll`; timeouts are left out. -/
def sweep (c : Connection σ) : Connection σ :=
  match c.slot with
  | .closed _ => c
  | .serving p =>
    -- A terminated session lets its clients read their last response.
    if service.terminated c.session ∧ p.output = [] then c.peerClose service .terminated else c

/-! ### Runs -/

/-- What can happen next: on the client's side, in the loop, or to the session meanwhile. -/
inductive Step : Connection σ → List Event → Connection σ → Prop
  | send {c : Connection σ} (bytes : List Byte) (more : c.socket.ended = false) :
    Step c [.sent bytes]
      { c with socket := { c.socket with incoming := c.socket.incoming ++ bytes } }
  | finish (c : Connection σ) : Step c [] { c with socket := { c.socket with ended := true } }
  | serve (c : Connection σ) (ready : Ready) (peeked granted : Grant) :
    Step c (c.serve service ready peeked granted).2 (c.serve service ready peeked granted).1
  | sweep (c : Connection σ) : Step c [] (c.sweep service)
  /-- Other connections, the listener and the pump may change the session in any way. -/
  | elsewhere (c : Connection σ) (session : σ) : Step c [] { c with session := session }

/-- A connection as `accept_peer` leaves it. -/
def accepted (session : σ) : Connection σ where
  session := session
  slot := .serving { input := [], output := [], written := 0, hello := false, closing := false }
  socket := { incoming := [], ended := false }

/-- The events on a connection since it was accepted. -/
inductive Run : List Event → Connection σ → Prop
  | accepted (session : σ) : Run [] (accepted session)
  | step {es fs : List Event} {c d : Connection σ} (run : Run es c) (step : Step service c fs d) :
    Run (es ++ fs) d

end Connection

end Emu80535.Control
