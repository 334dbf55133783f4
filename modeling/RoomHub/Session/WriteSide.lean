import RoomHub.Event
import RoomHub.Session.Ending
import RoomHub.WebSocket.Socket
import RoomHub.Wire.ServerFrame

/-!
# The side of a session that writes

It sends one frame at a time: an event from the queue if there is one, else a ping when
its time has come. Once the close signal is tripped, or the queue has come to its end, it
sends nothing but a close frame, and then ends. A frame that cannot be sent, or not in
time, ends it at once, without a close frame.
-/

namespace RoomHub

/-- What the writing side is doing: nothing, sending a frame until a time, sending the
close frame until a time, or nothing any more. -/
inductive WritePhase where
  | ready
  | sending (limit : Time)
  | closing (limit : Time) (reason : Ending)
  | ended (reason : Ending)
  deriving DecidableEq, Repr

/-- What the writing side remembers: what it is doing and when the next ping is due. -/
structure WriteSide where
  phase : WritePhase
  nextPing : Time
  deriving DecidableEq, Repr

/-- What the queue offers: an event, nothing at present, or nothing any more. -/
inductive QueueOffer where
  | event (e : Event)
  | nothing
  | finished
  deriving DecidableEq, Repr

/-- What the writing side does next when it is ready. -/
inductive WriteChoice where
  | close (reason : Ending)
  | event (e : Event)
  | ping
  | wait
  deriving DecidableEq, Repr

namespace WriteSide

/-- The writing side of a session that begins. -/
def start (ping : Duration) (now : Time) : WriteSide := ⟨.ready, now + ping.toNanos⟩

/-- What comes next: the close signal before everything, the queue before a ping. -/
def choose (cancelled : Bool) (offer : QueueOffer) (pingDue : Bool) : WriteChoice :=
  if cancelled then .close .cancelled
  else match offer with
    | .event e => .event e
    | .finished => .close .queueClosed
    | .nothing => if pingDue then .ping else .wait

/-- How late a ping may be for the next one to keep its place. -/
def pingSlack : Time := 5 * nanosPerMilli

/-- When the ping after one that is sent now is due. A ping that comes much too late
moves all that follow. -/
def pingAfter (ping : Duration) (now due : Time) : Time :=
  if due + pingSlack < now then now + ping.toNanos else due + ping.toNanos

/-- The side after a send began or went on: it is ready for more, goes on with the send,
or ends. -/
def afterSend (limit : Time) (side : WriteSide) (now : Time) :
    WebSocket.Flushed → WriteSide
  | .done | .closed => { side with phase := .ready }
  | .failed => { side with phase := .ended .writeError }
  | .blocked =>
    { side with phase := if limit ≤ now then .ended .writeTimeout else .sending limit }

/-- The side after the close frame was begun or went on. However that ends, the reason
stays. -/
def afterClose (limit : Time) (reason : Ending) (side : WriteSide) (now : Time) :
    WebSocket.Flushed → WriteSide
  | .blocked =>
    { side with phase := if limit ≤ now then .ended reason else .closing limit reason }
  | _ => { side with phase := .ended reason }

end WriteSide

end RoomHub
