import RoomHub.Wire.Payload

/-!
# What the server sends

Each event becomes one JSON object whose member `type` is the kind of the event.
-/

namespace RoomHub.Wire

/-- The JSON form of an event. -/
def frameOfEvent (e : Event) : Json :=
  .record (("type", .text e.kind) ::
    match e with
    | .chat m => [("message", (MessagePayload.ofMessage m).toJson)]
    | .history ms =>
      [("messages", .array (ms.map fun m => (MessagePayload.ofMessage m).toJson))]
    | .participants ps => [("participants", people (ps.map .ofParticipant))]
    | .callParticipants ps => [("call_users", people (ps.map .ofParticipant))])

/-- The text of an event's frame. -/
def encodeEvent (e : Event) : String := (frameOfEvent e).render

end RoomHub.Wire
