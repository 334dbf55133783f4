import RoomHub.Event
import RoomHub.Proofs.Calendar.Moments

/-!
# What events carry

The messages of an event, the room they are of, and their moments. A frame shows moments
down to the millisecond, so what is shown of an event is the event with its moments rounded
down.
-/

namespace RoomHub

/-! ## Messages in events -/

/-- The messages that an event carries. -/
def Event.messages : Event → List Message
  | .chat m => [m]
  | .history ms => ms
  | .participants _ | .callParticipants _ => []

/-- All messages of an event are of a room. -/
def Event.IsAbout (r : RoomId) (e : Event) : Prop := ∀ m ∈ e.messages, m.room = r

/-- A chat is about the room of its message. -/
theorem Event.isAbout_chat (m : Message) : (Event.chat m).IsAbout m.room := by
  intro m' hm'
  rw [List.mem_singleton.mp hm']

/-- An event without messages is about any room. -/
theorem Event.isAbout_of_messages_eq_nil {e : Event} (h : e.messages = []) (r : RoomId) :
    e.IsAbout r := by
  intro m hm
  rw [h] at hm
  cases hm

/-! ## Moments of an event -/

/-- The message with its moment rounded down to the millisecond. -/
def Message.floorMillis (m : Message) : Message := { m with createdAt := m.createdAt.floorMillis }

/-- Rounding to milliseconds leaves a message of a whole millisecond as it is. -/
theorem Message.floorMillis_eq_self {m : Message} (hwhole : m.createdAt.nanos % 1000000 = 0) :
    m.floorMillis = m := by
  have hnanos : m.createdAt.nanos / 1000000 * 1000000 = m.createdAt.nanos := by omega
  have hmoment : m.createdAt.floorMillis = m.createdAt := congrArg Instant.mk hnanos
  unfold floorMillis
  rw [hmoment]

namespace Event

/-- The event with its moments rounded down to the millisecond. -/
def floorMillis : Event → Event
  | chat m => chat m.floorMillis
  | history ms => history (ms.map Message.floorMillis)
  | participants ps => participants ps
  | callParticipants ps => callParticipants ps

/-- Rounding leaves an event as it is when all its messages are of whole milliseconds. -/
theorem floorMillis_eq_self {e : Event}
    (hwhole : ∀ m ∈ e.messages, m.createdAt.nanos % 1000000 = 0) : e.floorMillis = e := by
  have hmessage : ∀ m ∈ e.messages, m.floorMillis = m :=
    fun m hm => m.floorMillis_eq_self (hwhole m hm)
  cases e with
  | chat m => exact congrArg chat (hmessage m List.mem_cons_self)
  | history ms => exact congrArg history ((List.map_congr_left hmessage).trans (List.map_id ms))
  | participants ps => rfl
  | callParticipants ps => rfl

end Event

end RoomHub
