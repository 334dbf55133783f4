import RoomHub.Event
import RoomHub.Json
import RoomHub.Presence

/-!
# What is shown to clients

The records that frames and HTTP answers carry, each with its JSON form and a reader for
it. A reader takes an object with the fields in any order and other members beside them,
or an array of the fields in order. Writing a record and reading it gives it back.
-/

namespace RoomHub.Wire

/-- A message as clients see it. -/
structure MessagePayload where
  id : Int
  room : String
  user : String
  name : String
  content : String
  kind : String
  mediaUrl : Option String
  createdAt : String
  deriving DecidableEq, Repr

/-- A participant as clients see them. -/
structure PersonPayload where
  id : String
  name : String
  deriving DecidableEq, Repr

/-- The answer of the health check. -/
structure HealthPayload where
  status : String
  deriving DecidableEq, Repr

/-- The people of a room. -/
structure PresencePayload where
  room : String
  members : List PersonPayload
  participants : List PersonPayload
  callUsers : List PersonPayload
  deriving DecidableEq, Repr

/-- The people in the call of a room. -/
structure CallPayload where
  room : String
  callUsers : List PersonPayload
  deriving DecidableEq, Repr

/-- An error as a caller sees it. -/
structure ErrorPayload where
  error : String
  deriving DecidableEq, Repr

/-! ## From the domain -/

/-- Shows a message. -/
def MessagePayload.ofMessage (m : Message) : MessagePayload :=
  ⟨m.id, m.room.toText, m.user.toText, m.name, m.content, m.kind.toText, m.mediaUrl,
    Calendar.rfc3339 m.createdAt⟩

/-- Shows a participant. -/
def PersonPayload.ofParticipant (p : Participant) : PersonPayload := ⟨p.user.toText, p.name⟩

/-- Shows the people of a room. -/
def PresencePayload.ofPresence (p : Presence) : PresencePayload :=
  ⟨p.room.toText, p.members.map .ofParticipant, p.participants.map .ofParticipant,
    p.callParticipants.map .ofParticipant⟩

/-- Shows the people in the call of a room. -/
def CallPayload.ofParticipants (r : RoomId) (ps : List Participant) : CallPayload :=
  ⟨r.toText, ps.map .ofParticipant⟩

/-! ## Writing -/

/-- The JSON form; a missing media address is left out. -/
def MessagePayload.toJson (m : MessagePayload) : Json :=
  .record ([("id", .int m.id), ("room_id", .text m.room), ("user_id", .text m.user),
    ("username", .text m.name), ("content", .text m.content),
    ("message_type", .text m.kind)] ++
    (m.mediaUrl.toList.map fun url => ("media_url", .text url)) ++
    [("created_at", .text m.createdAt)])

/-- The JSON form. -/
def PersonPayload.toJson (p : PersonPayload) : Json :=
  .record [("id", .text p.id), ("username", .text p.name)]

/-- A list of people. -/
def people (ps : List PersonPayload) : Json := .array (ps.map PersonPayload.toJson)

/-- The JSON form. -/
def HealthPayload.toJson (h : HealthPayload) : Json := .record [("status", .text h.status)]

/-- The JSON form. -/
def PresencePayload.toJson (p : PresencePayload) : Json :=
  .record [("room_id", .text p.room), ("members", people p.members),
    ("participants", people p.participants), ("call_users", people p.callUsers)]

/-- The JSON form. -/
def CallPayload.toJson (c : CallPayload) : Json :=
  .record [("room_id", .text c.room), ("call_users", people c.callUsers)]

/-- The JSON form. -/
def ErrorPayload.toJson (e : ErrorPayload) : Json := .record [("error", .text e.error)]

/-! ## Reading -/

/-- A text that may be missing or `null`. -/
def optionalText? : Option Json → Option (Option String)
  | none => some none
  | some v => v.asOption? Json.asString?

/-- Reads a message. -/
def MessagePayload.ofJson? (v : Json) : Option MessagePayload :=
  match v.fields? ["id", "room_id", "user_id", "username", "content", "message_type",
      "media_url", "created_at"] with
  | some [some id, some room, some user, some name, some content, some kind, url, some at'] =>
    return ⟨← id.asInt64?, ← room.asString?, ← user.asString?, ← name.asString?,
      ← content.asString?, ← kind.asString?, ← optionalText? url, ← at'.asString?⟩
  | _ => none

/-- Reads a participant. -/
def PersonPayload.ofJson? (v : Json) : Option PersonPayload :=
  match v.fields? ["id", "username"] with
  | some [some id, some name] => return ⟨← id.asString?, ← name.asString?⟩
  | _ => none

/-- Reads a list of people. -/
def people? (v : Json) : Option (List PersonPayload) := v.asList? PersonPayload.ofJson?

/-- Reads the answer of the health check. -/
def HealthPayload.ofJson? (v : Json) : Option HealthPayload :=
  match v.fields? ["status"] with
  | some [some status] => status.asString?.map HealthPayload.mk
  | _ => none

/-- Reads the people of a room. -/
def PresencePayload.ofJson? (v : Json) : Option PresencePayload :=
  match v.fields? ["room_id", "members", "participants", "call_users"] with
  | some [some room, some members, some participants, some callUsers] =>
    return ⟨← room.asString?, ← people? members, ← people? participants,
      ← people? callUsers⟩
  | _ => none

/-- Reads the people in the call of a room. -/
def CallPayload.ofJson? (v : Json) : Option CallPayload :=
  match v.fields? ["room_id", "call_users"] with
  | some [some room, some callUsers] => return ⟨← room.asString?, ← people? callUsers⟩
  | _ => none

/-- Reads an error. -/
def ErrorPayload.ofJson? (v : Json) : Option ErrorPayload :=
  match v.fields? ["error"] with
  | some [some error] => error.asString?.map ErrorPayload.mk
  | _ => none

/-! ## Normal form -/

/-- The kinds of records. -/
inductive PayloadKind where
  | message
  | participant
  | health
  | presence
  | callParticipants
  | error
  deriving DecidableEq, Repr

namespace PayloadKind

/-- The kind that a word names. -/
def ofText? : String → Option PayloadKind
  | "message" => some message
  | "participant" => some participant
  | "health" => some health
  | "presence" => some presence
  | "call_participants" => some callParticipants
  | "error" => some error
  | _ => none

/-- Reads a record of this kind and gives its JSON form. -/
def normal? (kind : PayloadKind) (v : Json) : Option Json :=
  match kind with
  | message => (MessagePayload.ofJson? v).map MessagePayload.toJson
  | participant => (PersonPayload.ofJson? v).map PersonPayload.toJson
  | health => (HealthPayload.ofJson? v).map HealthPayload.toJson
  | presence => (PresencePayload.ofJson? v).map PresencePayload.toJson
  | callParticipants => (CallPayload.ofJson? v).map CallPayload.toJson
  | error => (ErrorPayload.ofJson? v).map ErrorPayload.toJson

/-- The one text that the program itself writes for the record of a text. -/
def normalise? (kind : PayloadKind) (text : String) : Option String :=
  (Json.parse? text).bind fun v => (kind.normal? v).map Json.render

end PayloadKind

end RoomHub.Wire
