import RoomHub.WebSocket.Inbound

/-!
# The server's end of a WebSocket connection

A `Socket` answers pings with pongs and a close frame with a close frame. Answers wait
beside the frames that are to be sent and go out with the next flush, which reading and
writing both cause. What is flushed leaves over the link, which may hold everything back
for a while or be broken.

Once a close frame came from the client nothing else is sent but the answer to it, and
that only with a flush that was still under way. Once the server has sent a close frame of
its own no further frame is sent.
-/

namespace RoomHub.WebSocket

/-- Whether bytes leave over the link, are held back, or are refused. -/
inductive Link where
  | clear
  | stalled
  | broken
  deriving DecidableEq, Repr

/-- How far the closing of a connection has come. -/
inductive Phase where
  | active
  | closedByServer
  | closedByClient
  | terminated
  deriving DecidableEq, Repr

/-- The server's end of a connection. `sent` holds the frames that left over the link and
were not collected yet. -/
structure Socket where
  inbound : Inbound
  atEnd : Bool
  phase : Phase
  outgoing : List Outgoing
  answer : Option Outgoing
  unflushed : Bool
  link : Link
  sent : List Outgoing
  deriving DecidableEq, Repr

/-- How a flush or a send ends: everything left, something is held back, the link is
broken, or the connection is closed. -/
inductive Flushed where
  | done
  | blocked
  | failed
  | closed
  deriving DecidableEq, Repr

/-- What reading finds: nothing yet, a failure, the end of the connection, or a
message. -/
inductive Read where
  | waiting
  | failed
  | ended
  | item (i : Item)
  deriving DecidableEq, Repr

namespace Socket

/-- A connection that was just opened. -/
def opened : Socket :=
  { inbound := .empty, atEnd := false, phase := .active, outgoing := [], answer := none
    unflushed := false, link := .clear, sent := [] }

/-- Whether frames may still be read. -/
def canRead (s : Socket) : Bool :=
  match s.phase with
  | .active | .closedByServer => true
  | .closedByClient | .terminated => false

/-- Hands the frames that wait to the link. -/
def transmit (s : Socket) : Flushed × Socket :=
  match s.link with
  | .clear => (.done, { s with sent := s.sent ++ s.outgoing, outgoing := [] })
  | .stalled => if s.outgoing.isEmpty then (.done, s) else (.blocked, s)
  | .broken => (.failed, s)

/-- Sends all that waits, answers included. When the client has closed the connection
this ends it. -/
def flush (s : Socket) : Flushed × Socket :=
  let s := { s with outgoing := s.outgoing ++ s.answer.toList, answer := none }
  match s.transmit with
  | (.done, s) =>
    if s.canRead then (.done, { s with unflushed := false })
    else (.closed, { s with phase := .terminated })
  | other => other

/-- Begins to send a frame. -/
def send (f : Outgoing) (s : Socket) : Flushed × Socket :=
  match s.phase with
  | .active =>
    let phase := match f with
      | .close _ => .closedByServer
      | _ => .active
    flush { s with outgoing := s.outgoing ++ [f], phase := phase }
  | _ => (.failed, s)

/-- The codes that a client may close with. -/
def isAllowedCode (code : Nat) : Bool :=
  [1000, 1001, 1002, 1003, 1007, 1008, 1009, 1010, 1011, 1012, 1013].contains code ||
    (3000 ≤ code && code < 5000)

/-- The answer to a close frame: the same code and reason, or a complaint when the code
is not allowed. -/
def closeAnswer (r : Option CloseReason) : Outgoing :=
  .close (r.map fun r => if isAllowedCode r.code then r else ⟨1002, "Protocol violation"⟩)

/-- Takes notice of a message: a ping and a close frame are answered. -/
def notice (i : Item) (s : Socket) : Socket :=
  match i, s.phase with
  | .ping payload, .active => { s with answer := some (.pong payload) }
  | .close r, .active => { s with phase := .closedByClient, answer := some (closeAnswer r) }
  | _, _ => s

/-- Sends answers that wait before more is read. -/
def flushAnswers (s : Socket) : Flushed × Socket :=
  if s.answer.isSome ∨ s.unflushed then
    match s.flush with
    | (.blocked, s) => (.blocked, { s with unflushed := true })
    | other => other
  else if s.canRead then (.done, s)
  else (.closed, { s with phase := .terminated })

/-- Reads the next message from the bytes that came in. -/
def readNext (limit : Nat) (s : Socket) : Read × Socket :=
  match s.inbound.next limit with
  | (.item i, inbound) => (.item i, notice i { s with inbound := inbound })
  | (.refused, inbound) => (.failed, { s with inbound := inbound })
  | (.waiting, inbound) =>
    if s.atEnd then (.failed, { s with inbound := inbound, phase := .terminated })
    else (.waiting, { s with inbound := inbound })

/-- Reads the next message. Answers that are held back do not hold reading up; a broken
link does. -/
def read (limit : Nat) (s : Socket) : Read × Socket :=
  match s.flushAnswers with
  | (.failed, s) => (.failed, s)
  | (.closed, s) => (.ended, s)
  | (_, s) => s.readNext limit

/-- More bytes came from the client. -/
def receive (bs : List UInt8) (s : Socket) : Socket :=
  { s with inbound := s.inbound.receive bs }

/-- The client is gone without a close frame. -/
def cut (s : Socket) : Socket := { s with atEnd := true, link := .broken }

/-- Changes the link; a broken link stays broken. -/
def setLink (l : Link) (s : Socket) : Socket :=
  if s.link = .broken then s else { s with link := l }

/-- Takes the frames that left over the link. -/
def collect (s : Socket) : List Outgoing × Socket := (s.sent, { s with sent := [] })

end Socket

end RoomHub.WebSocket
