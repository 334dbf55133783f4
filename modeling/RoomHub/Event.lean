import RoomHub.Message

/-!
# Events

What the hub tells a connection: a message, the recent messages of a room, who is
connected to it, and who is in its call.
-/

namespace RoomHub

/-- Something the hub tells a connection. -/
inductive Event where
  | chat (message : Message)
  | history (messages : List Message)
  | participants (people : List Participant)
  | callParticipants (people : List Participant)
  deriving DecidableEq, Repr, Inhabited

namespace Event

/-- The word for a kind of event. -/
def kind : Event → String
  | chat _ => "chat"
  | history _ => "history"
  | participants _ => "participants"
  | callParticipants _ => "call_participants"

end Event

end RoomHub
