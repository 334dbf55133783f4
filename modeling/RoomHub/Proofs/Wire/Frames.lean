import RoomHub.Proofs.Event
import RoomHub.Proofs.Id
import RoomHub.Proofs.Json.RoundTrip
import RoomHub.Proofs.Wire.Payload
import RoomHub.Wire.ServerFrame

/-!
# A frame determines its event

A reader for frames, put together from the readers for payloads, identifiers, kinds and
moments. Each of them undoes what was written, down to the millisecond of a moment:

> `event?_frameOfEvent`: an event is found again in its frame, its moments rounded down to
> the millisecond;
> `shows_frameOfEvent`: what stands in the frame, member by member;
> `encodeEvent_determines`: both of the frame's text, so that equal texts are of equal events.
-/

namespace RoomHub

/-- The word of a kind names it. -/
def MessageKind.ofText? : String → Option MessageKind
  | "text" => some .text
  | "image" => some .image
  | _ => none

/-- The word of a kind is read as that kind. -/
theorem MessageKind.ofText?_toText (k : MessageKind) : ofText? k.toText = some k := by
  cases k <;> rfl

namespace Wire

/-! ## The reader -/

/-- Reads a message. -/
def message? (v : Json) : Option Message := do
  let p ← MessagePayload.ofJson? v
  return {
    id := p.id
    room := ← (RoomId.parse p.room).toOption
    user := ← (UserId.parse p.user).toOption
    name := p.name
    content := p.content
    kind := ← MessageKind.ofText? p.kind
    mediaUrl := p.mediaUrl
    createdAt := ← Calendar.moment? p.createdAt }

/-- Reads a participant. -/
def participant? (v : Json) : Option Participant := do
  let p ← PersonPayload.ofJson? v
  return ⟨← (UserId.parse p.id).toOption, p.name⟩

/-- Reads a frame. -/
def event? (v : Json) : Option Event :=
  match v.fields? ["type", "message", "messages", "participants", "call_users"] with
  | some [some (.string (some "chat")), some v, none, none, none] =>
    (message? v).map .chat
  | some [some (.string (some "history")), none, some v, none, none] =>
    (v.asList? message?).map .history
  | some [some (.string (some "participants")), none, none, some v, none] =>
    (v.asList? participant?).map .participants
  | some [some (.string (some "call_participants")), none, none, none, some v] =>
    (v.asList? participant?).map .callParticipants
  | _ => none

/-- Reads the text of a frame. -/
def decodeEvent? (s : String) : Option Event := (Json.parse? s).bind event?

/-- A message is read back, its time down to the millisecond. -/
theorem message?_toJson {m : Message} (hid : IsInt64 m.id) :
    message? (MessagePayload.ofMessage m).toJson = some m.floorMillis := by
  unfold message?
  rw [MessagePayload.ofJson?_toJson hid]
  simp only [MessagePayload.ofMessage, Option.bind_eq_bind, Option.bind_some,
    RoomId.parse_toText, UserId.parse_toText, MessageKind.ofText?_toText,
    Calendar.moment?_rfc3339, Except.toOption]
  rfl

theorem participant?_toJson (p : Participant) :
    participant? (PersonPayload.ofParticipant p).toJson = some p := by
  unfold participant?
  rw [PersonPayload.ofJson?_toJson]
  simp only [PersonPayload.ofParticipant, Option.bind_eq_bind, Option.bind_some,
    UserId.parse_toText, Except.toOption]
  rfl

/-- A roster is read back. -/
theorem asList?_people (ps : List Participant) :
    (people (ps.map .ofParticipant)).asList? participant? = some ps := by
  have hmap : people (ps.map .ofParticipant) =
      .array (ps.map fun p => (PersonPayload.ofParticipant p).toJson) := by
    unfold people
    rw [List.map_map]
    rfl
  rw [hmap, Json.asList?_map (h := id) fun p _ => participant?_toJson p, List.map_id]

/-- The name of the member that an event's content stands in. -/
def contentName : Event → String
  | .chat _ => "message"
  | .history _ => "messages"
  | .participants _ => "participants"
  | .callParticipants _ => "call_users"

/-- An event's content. -/
def content : Event → Json
  | .chat m => (MessagePayload.ofMessage m).toJson
  | .history ms => .array (ms.map fun m => (MessagePayload.ofMessage m).toJson)
  | .participants ps => people (ps.map .ofParticipant)
  | .callParticipants ps => people (ps.map .ofParticipant)

/-- The members of an event's frame. -/
def frameEntries (e : Event) : List (String × Json) :=
  [("type", .text e.kind), (contentName e, content e)]

theorem frameOfEvent_eq (e : Event) : frameOfEvent e = .record (frameEntries e) := by
  cases e <;> rfl

theorem nodup_frameEntries (e : Event) : ((frameEntries e).map (·.1)).Nodup := by
  have hkeys : (frameEntries e).map (·.1) = ["type", contentName e] := rfl
  rw [hkeys]
  cases e <;> simp [contentName]

/-- An event is found again in its frame, its moments rounded down to the millisecond. -/
theorem event?_frameOfEvent {e : Event} (hids : ∀ m ∈ e.messages, IsInt64 m.id) :
    event? (frameOfEvent e) = some e.floorMillis := by
  unfold event?
  rw [frameOfEvent_eq, Json.fields?_record (nodup_frameEntries e)]
  cases e with
  | chat m =>
    show (message? (MessagePayload.ofMessage m).toJson).map Event.chat = _
    rw [message?_toJson (hids m List.mem_cons_self)]
    rfl
  | history ms =>
    show ((Json.array (ms.map _)).asList? message?).map Event.history = _
    have hread : ∀ m ∈ ms, message? (MessagePayload.ofMessage m).toJson = some m.floorMillis :=
      fun m hm => message?_toJson (hids m hm)
    rw [Json.asList?_map hread]
    rfl
  | participants ps =>
    show ((people (ps.map .ofParticipant)).asList? participant?).map Event.participants = _
    rw [asList?_people]
    rfl
  | callParticipants ps =>
    show ((people (ps.map .ofParticipant)).asList? participant?).map Event.callParticipants = _
    rw [asList?_people]
    rfl

/-- The text of a frame is read back as its event, times down to the millisecond. -/
theorem decodeEvent?_encodeEvent {e : Event} (hids : ∀ m ∈ e.messages, IsInt64 m.id) :
    decodeEvent? (encodeEvent e) = some e.floorMillis := by
  unfold decodeEvent? encodeEvent
  rw [Json.parse?_render, Option.bind_some, event?_frameOfEvent hids]

/-! ## The layout -/

/-- The members of a participant's object. -/
structure ShowsParticipant (p : Participant) (members : List (Option String × Json)) : Prop where
  user : ∃ text, Json.membersNamed "id" members = [.text text] ∧ UserId.parse text = .ok p.user
  name : Json.membersNamed "username" members = [.text p.name]

/-- The members of a message's object. The media address is missing when there is none. -/
structure ShowsMessage (m : Message) (members : List (Option String × Json)) : Prop where
  id : Json.membersNamed "id" members = [.int m.id]
  room : ∃ text, Json.membersNamed "room_id" members = [.text text] ∧
    RoomId.parse text = .ok m.room
  user : ∃ text, Json.membersNamed "user_id" members = [.text text] ∧
    UserId.parse text = .ok m.user
  name : Json.membersNamed "username" members = [.text m.name]
  content : Json.membersNamed "content" members = [.text m.content]
  kind : ∃ text, Json.membersNamed "message_type" members = [.text text] ∧
    MessageKind.ofText? text = some m.kind
  mediaUrl : Json.membersNamed "media_url" members = (m.mediaUrl.map Json.text).toList
  createdAt : ∃ text, Json.membersNamed "created_at" members = [.text text] ∧
    Calendar.moment? text = some m.createdAt.floorMillis

/-- The member that holds an event's content, its items in order. -/
def Shows (members : List (Option String × Json)) : Event → Prop
  | .chat m => ∃ ms, Json.membersNamed "message" members = [.object ms] ∧ ShowsMessage m ms
  | .history ms => ∃ shown : Message → List (Option String × Json),
      Json.membersNamed "messages" members = [.array (ms.map fun m => .object (shown m))] ∧
        ∀ m ∈ ms, ShowsMessage m (shown m)
  | .participants ps => ∃ shown : Participant → List (Option String × Json),
      Json.membersNamed "participants" members = [.array (ps.map fun p => .object (shown p))] ∧
        ∀ p ∈ ps, ShowsParticipant p (shown p)
  | .callParticipants ps => ∃ shown : Participant → List (Option String × Json),
      Json.membersNamed "call_users" members = [.array (ps.map fun p => .object (shown p))] ∧
        ∀ p ∈ ps, ShowsParticipant p (shown p)

/-- A participant is written with an id and a name. -/
theorem showsParticipant_entries (p : Participant) :
    ShowsParticipant p ((PersonPayload.ofParticipant p).entries.map fun m => (some m.1, m.2)) := by
  have hmembers := Json.membersNamed_record (PersonPayload.ofParticipant p).nodup_entries
  exact {
    user := ⟨p.user.toText, hmembers "id", UserId.parse_toText p.user⟩
    name := hmembers "username" }

/-- A message is written with all its fields. -/
theorem showsMessage_entries (m : Message) :
    ShowsMessage m ((MessagePayload.ofMessage m).entries.map fun m => (some m.1, m.2)) := by
  have hmembers := Json.membersNamed_record (MessagePayload.ofMessage m).nodup_entries
  -- the members behind the media address are found once it is known whether there is one
  have hurl : (MessagePayload.ofMessage m).entries.lookup "media_url" =
      m.mediaUrl.map Json.text := by
    unfold MessagePayload.entries MessagePayload.ofMessage
    cases m.mediaUrl <;> rfl
  have hat : (MessagePayload.ofMessage m).entries.lookup "created_at" =
      some (.text (Calendar.rfc3339 m.createdAt)) := by
    unfold MessagePayload.entries MessagePayload.ofMessage
    cases m.mediaUrl <;> rfl
  exact {
    id := hmembers "id"
    room := ⟨m.room.toText, hmembers "room_id", RoomId.parse_toText m.room⟩
    user := ⟨m.user.toText, hmembers "user_id", UserId.parse_toText m.user⟩
    name := hmembers "username"
    content := hmembers "content"
    kind := ⟨m.kind.toText, hmembers "message_type", MessageKind.ofText?_toText m.kind⟩
    mediaUrl := hurl ▸ hmembers "media_url"
    createdAt := ⟨Calendar.rfc3339 m.createdAt, by rw [hmembers "created_at", hat]; rfl,
      Calendar.moment?_rfc3339 m.createdAt⟩ }

/-- What stands in a frame. -/
theorem shows_frameOfEvent (e : Event) :
    ∃ members, frameOfEvent e = .object members ∧
      Json.membersNamed "type" members = [.text e.kind] ∧ Shows members e := by
  have hmembers := Json.membersNamed_record (nodup_frameEntries e)
  refine ⟨_, frameOfEvent_eq e, hmembers "type", ?_⟩
  cases e with
  | chat m => exact ⟨_, hmembers "message", showsMessage_entries m⟩
  | history ms => exact ⟨_, hmembers "messages", fun m _ => showsMessage_entries m⟩
  | participants ps =>
    refine ⟨_, (hmembers "participants").trans ?_, fun p _ => showsParticipant_entries p⟩
    exact congrArg (fun items => [Json.array items]) List.map_map
  | callParticipants ps =>
    refine ⟨_, (hmembers "call_users").trans ?_, fun p _ => showsParticipant_entries p⟩
    exact congrArg (fun items => [Json.array items]) List.map_map

/-- For every event, whatever its texts and moments, with numbers of 64 bits: its frame is the
text of one JSON object, of which the member `type` is the event's kind and one other member
shows the content, a list in its order even when it is empty. The event is found again in the
text, its moments rounded down to the millisecond. So two events of whole milliseconds with
one text are one event. -/
theorem encodeEvent_determines (e : Event) (hids : ∀ m ∈ e.messages, IsInt64 m.id) :
    (∃ members, Json.parse? (encodeEvent e) = some (.object members) ∧
      Json.membersNamed "type" members = [.text e.kind] ∧ Shows members e) ∧
    decodeEvent? (encodeEvent e) = some e.floorMillis ∧
    ((∀ m ∈ e.messages, m.createdAt.nanos % 1000000 = 0) →
      ∀ e' : Event, (∀ m ∈ e'.messages, IsInt64 m.id) →
        (∀ m ∈ e'.messages, m.createdAt.nanos % 1000000 = 0) →
          encodeEvent e = encodeEvent e' → e = e') := by
  refine ⟨?_, decodeEvent?_encodeEvent hids, ?_⟩
  · obtain ⟨members, hobject, htype, hshows⟩ := shows_frameOfEvent e
    refine ⟨members, ?_, htype, hshows⟩
    rw [encodeEvent, Json.parse?_render, hobject]
  · intro hwhole e' hids' hwhole' htext
    have hread : some e.floorMillis = some e'.floorMillis := by
      rw [← decodeEvent?_encodeEvent hids, htext, decodeEvent?_encodeEvent hids']
    rw [Event.floorMillis_eq_self hwhole, Event.floorMillis_eq_self hwhole'] at hread
    exact Option.some.inj hread

/-- A nanosecond before the year -1, and texts that need escapes. -/
theorem encodeEvent_determines_negative_year :
    IsInt64 (-1) ∧
      decodeEvent? (encodeEvent
          (.chat ⟨-1, ⟨⟨0⟩⟩, ⟨⟨1⟩⟩, "\"", "\n", .image, none, ⟨-62198755200000000001⟩⟩)) =
        some (.chat ⟨-1, ⟨⟨0⟩⟩, ⟨⟨1⟩⟩, "\"", "\n", .image, none, ⟨-62198755200001000000⟩⟩) := by
  have hids : ∀ m ∈ (Event.chat
      ⟨-1, ⟨⟨0⟩⟩, ⟨⟨1⟩⟩, "\"", "\n", .image, none, ⟨-62198755200000000001⟩⟩).messages,
        IsInt64 m.id := by decide
  exact ⟨by decide, (encodeEvent_determines _ hids).2.1⟩

end Wire
end RoomHub
