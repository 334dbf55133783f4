import RoomHub.Lifecycle
import RoomHub.Session.ReadSide
import RoomHub.Session.WriteSide
import RoomHub.Settings.HubSettings

/-!
# Sessions

A session is one client's connection to a room: its socket, the side that reads and the
side that writes. The two meet only in the close signal of the connection's outbox. When
the reading side has ended the connection leaves its room and the close signal is
tripped; when the writing side ends it trips the signal itself, which ends the reading
side. The session is over when both have ended.
-/

namespace RoomHub

/-- A client's connection to a room. -/
structure Session where
  handle : Handle
  stage : Stage
  socket : WebSocket.Socket
  reading : Except Ending ReadSide
  writing : WriteSide
  left : Bool

/-- What is known of a session that is over: whose it was, how both sides ended, the last
stage of its connection, and the frames that left but were not collected. -/
structure Departure where
  connection : ConnectionId
  user : UserId
  read : Ending
  write : Ending
  stage : Stage
  unsent : List WebSocket.Outgoing

namespace Session

/-- The session of a connection that has joined its room. -/
def begin (cfg : HubSettings) (now : Time) (c : Handle) : Session :=
  { handle := c
    stage := (Stage.connecting.advance .active).2
    socket := .opened
    reading := .ok (.start cfg.idleTimeout now)
    writing := .start cfg.pingInterval now
    left := false }

/-- Whether the close signal of the session's connection is tripped. -/
def isCancelled (s : Session) (w : World) : Bool := w.hub.isCancelled s.handle.id

/-- The world with the close signal of the session's connection tripped. -/
def cancel (s : Session) (w : World) : World := { w with hub := w.hub.cancel s.handle.id }

/-! ## Reading -/

/-- What came from the client, when reading found something. -/
def arrivalOf : WebSocket.Read → Option Arrival
  | .waiting => none
  | .failed => some .failed
  | .ended => some .ended
  | .item i => some (.item i)

/-- Reads messages until none is left, or the side ends. Every message takes bytes, so
their number bounds the fuel that is needed. -/
def readWithin (cfg : HubSettings) (now : Time) : Nat → Session → World → Session × World
  | 0, s, w => (s, w)
  | fuel + 1, s, w =>
    match s.reading with
    | .error _ => (s, w)
    | .ok side =>
      if s.isCancelled w then ({ s with reading := .error .cancelled }, w)
      else
        let (found, socket) := s.socket.read cfg.maxFrame
        match arrivalOf found with
        | none => ({ s with socket := socket, reading := side.wait now }, w)
        | some arrival =>
          let (reading, w) := (side.take s.handle cfg.idleTimeout now arrival).run w
          readWithin cfg now fuel { s with socket := socket, reading := reading } w

/-- Reads all that can be read. -/
def readAll (cfg : HubSettings) (now : Time) (s : Session) (w : World) : Session × World :=
  readWithin cfg now (s.socket.inbound.buffer.length + 2) s w

/-! ## Writing -/

/-- What the session's queue offers. It comes to its end with its outbox. Nobody is left to fill it
from the moment the connection is out of its room, a little before the close signal is tripped, so
an empty queue might be taken for ended already then. The side would close just as it does for the
signal and name another reason; that it may be so early is left out here. -/
def offer (s : Session) (w : World) : QueueOffer :=
  match w.hub.outboxes[s.handle.id]? with
  | none => .finished
  | some o =>
    match o.queue with
    | e :: _ => .event e
    | [] => .nothing

/-- The world with the first event of the session's queue taken. -/
def takeEvent (s : Session) (w : World) : World :=
  { w with hub := (w.hub.take s.handle.id 1).2 }

/-- Begins to send a frame. -/
def beginSend (cfg : HubSettings) (now : Time) (f : WebSocket.Outgoing) (s : Session) :
    Session :=
  let (flushed, socket) := s.socket.send f
  { s with
    socket := socket
    writing := s.writing.afterSend (now + cfg.writeTimeout.toNanos) now flushed }

/-- Begins to send the close frame, for a reason. -/
def beginClose (cfg : HubSettings) (now : Time) (reason : Ending) (s : Session) : Session :=
  let (flushed, socket) := s.socket.send (.close none)
  { s with
    socket := socket
    writing := s.writing.afterClose (now + cfg.writeTimeout.toNanos) reason now flushed }

/-- Takes one step of the writing side: `false` when there is nothing to do. -/
def writeStep (cfg : HubSettings) (now : Time) (s : Session) (w : World) :
    Bool × Session × World :=
  match s.writing.phase with
  | .ended _ => (false, s, w)
  | .sending limit =>
    let (flushed, socket) := s.socket.flush
    let side := s.writing.afterSend limit now flushed
    (side ≠ s.writing, { s with socket := socket, writing := side }, w)
  | .closing limit reason =>
    let (flushed, socket) := s.socket.flush
    let side := s.writing.afterClose limit reason now flushed
    (side ≠ s.writing, { s with socket := socket, writing := side }, w)
  | .ready =>
    match WriteSide.choose (s.isCancelled w) (s.offer w) (s.writing.nextPing ≤ now) with
    | .close reason => (true, s.beginClose cfg now reason, w)
    | .event e => (true, s.beginSend cfg now (.text (Wire.encodeEvent e)), s.takeEvent w)
    | .ping =>
      let next := WriteSide.pingAfter cfg.pingInterval now s.writing.nextPing
      (true, beginSend cfg now .ping { s with writing := { s.writing with nextPing := next } }, w)
    | .wait => (false, s, w)

/-- Trips the close signal once the writing side has ended. -/
def afterWriting (s : Session) (w : World) : World :=
  match s.writing.phase with
  | .ended _ => s.cancel w
  | _ => w

/-- Takes steps of the writing side while there is something to do. -/
def writeWithin (cfg : HubSettings) (now : Time) : Nat → Session → World → Session × World
  | 0, s, w => (s, w)
  | fuel + 1, s, w =>
    match s.writeStep cfg now w with
    | (false, s, w) => (s, w)
    | (true, s, w) => writeWithin cfg now fuel s (s.afterWriting w)

/-- How many pings are overdue. -/
def overduePings (cfg : HubSettings) (now : Time) (s : Session) : Nat :=
  (now - s.writing.nextPing) / cfg.pingInterval.toNanos + 1

/-- Writes all that can be written: what is being sent, the queue, the pings that are
due, and the close frame. -/
def writeAll (cfg : HubSettings) (now : Time) (s : Session) (w : World) : Session × World :=
  let waiting := ((w.hub.outboxes[s.handle.id]?).map (·.queue.length)).getD 0
  writeWithin cfg now (waiting + s.overduePings cfg now + 3) s w

/-! ## Ending -/

/-- Leaves the room and trips the close signal, once the reading side has ended. -/
def leaveIfDone (s : Session) (w : World) : Session × World :=
  match s.reading, s.left with
  | .error _, false =>
    let (_, w) := (Membership.leave s.handle.id).run w
    ({ s with left := true, stage := (s.stage.advance .draining).2 }, s.cancel w)
  | _, _ => (s, w)

/-- What is known of the session, once both sides have ended and the room is left. -/
def over? (s : Session) : Option Departure :=
  match s.reading, s.writing.phase, s.left with
  | .error read, .ended write, true =>
    some ⟨s.handle.id, s.handle.participant.user, read, write, (s.stage.advance .closed).2,
      s.socket.sent⟩
  | _, _, _ => none

/-! ## Timers -/

/-- The times at which something is due. -/
def timers (s : Session) (w : World) : List Time :=
  (match s.reading with
    | .ok side => [side.deadline]
    | .error _ => []) ++
  (match s.writing.phase with
    | .ready => if s.isCancelled w then [] else [s.writing.nextPing]
    | .sending limit => [limit]
    | .closing limit _ => [limit]
    | .ended _ => [])

end Session

end RoomHub
