import RoomHub.Duration

/-!
# How a session ends, and when

Each of the two sides of a session, the one that reads and the one that writes, ends for
a reason of its own. Times inside a running server are nanoseconds since it started;
timers are noticed at whole milliseconds.
-/

namespace RoomHub

/-- Nanoseconds since the server started. -/
abbrev Time := Nat

/-- The nanoseconds of a millisecond. -/
abbrev nanosPerMilli : Nat := 1000000

/-- The first whole millisecond at or after a time. -/
def Time.ceilMilli (t : Time) : Time :=
  (t + (nanosPerMilli - 1)) / nanosPerMilli * nanosPerMilli

/-- Why one side of a session ended. -/
inductive Ending where
  | peerClosed
  | idleTimeout
  | readError
  | writeError
  | writeTimeout
  | queueClosed
  | cancelled
  deriving DecidableEq, Repr

/-- The words for an ending. -/
def Ending.toText : Ending → String
  | peerClosed => "peer closed"
  | idleTimeout => "idle timeout"
  | readError => "read error"
  | writeError => "write error"
  | writeTimeout => "write timeout"
  | queueClosed => "outbound queue closed"
  | cancelled => "closed by hub"

end RoomHub
