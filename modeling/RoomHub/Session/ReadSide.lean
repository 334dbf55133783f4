import RoomHub.Membership
import RoomHub.Posting
import RoomHub.Session.Ending
import RoomHub.WebSocket.Inbound
import RoomHub.Wire.ClientFrame

/-!
# The side of a session that reads

It waits for messages until a deadline. A pong moves the deadline; nothing else does. A
text is read as a client frame and acted upon: a chat is posted, and the call is joined
or left. The side remembers whether its connection is in the call, so a frame that would
change nothing asks nothing of the hub. A frame that cannot be read is ignored, and so is
a chat that cannot be posted.
-/

namespace RoomHub

/-- What may come from a client: a message, a failure, or the end of the connection. -/
inductive Arrival where
  | item (i : WebSocket.Item)
  | failed
  | ended
  deriving DecidableEq, Repr

/-- What the reading side remembers. -/
structure ReadSide where
  deadline : Time
  inCall : Bool
  deriving DecidableEq, Repr

namespace ReadSide

/-- The reading side of a session that begins. -/
def start (idle : Duration) (now : Time) : ReadSide := ⟨now + idle.toNanos, false⟩

/-- Acts upon a frame: whether the connection is in the call afterwards. -/
def actOn (c : Handle) (inCall : Bool) : ClientFrame → Program Bool
  | .chat content => do
    let _ ← Posting.send c.room c.participant.user content
    return inCall
  | .joinCall =>
    if inCall then return true
    else do
      let _ ← Membership.joinCall c.id c.room
      return true
  | .leaveCall =>
    if inCall then do
      let _ ← Membership.leaveCall c.id c.room
      return false
    else return false

/-- Acts upon a text: whether the connection is in the call afterwards. -/
def actOnText (c : Handle) (inCall : Bool) (text : String) : Program Bool :=
  match ClientFrame.parse? text with
  | some f => actOn c inCall f
  | none => return inCall

/-- Takes what came from the client: the side goes on or ends. -/
def take (c : Handle) (idle : Duration) (now : Time) (side : ReadSide) :
    Arrival → Program (Except Ending ReadSide)
  | .item (.text s) => do
    let inCall ← actOnText c side.inCall s
    return .ok { side with inCall := inCall }
  | .item (.pong _) => return .ok { side with deadline := now + idle.toNanos }
  | .item (.ping _) => return .ok side
  | .item (.binary _) => return .ok side
  | .item (.close _) => return .error .peerClosed
  | .failed => return .error .readError
  | .ended => return .error .peerClosed

/-- The side when nothing came by a time: it ends at its deadline. -/
def wait (now : Time) (side : ReadSide) : Except Ending ReadSide :=
  if side.deadline ≤ now then .error .idleTimeout else .ok side

end ReadSide

end RoomHub
