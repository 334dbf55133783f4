import RoomHub.Access
import RoomHub.Http.Cors
import RoomHub.Http.Target
import RoomHub.Presence
import RoomHub.Wire.Payload

/-!
# Answering requests

Four resources: the socket of a room, the health check, the people of a room, and those
in its call. The last three answer at once; the first lets a caller who asks for it
properly go on as a connection of the room. Every check of the caller runs before
anything else happens, and a caller without access learns the first check that failed.
-/

namespace RoomHub.Http

/-- A resource, with the room as it is written in the path. -/
inductive Route where
  | socket (room : String)
  | health
  | presence (room : String)
  | callParticipants (room : String)
  deriving DecidableEq, Repr

/-- The resource at a path. A room at the end of a path is not empty. -/
def Route.ofPath? (path : List Char) : Option Route :=
  match segments path with
  | ["", "ws", "rooms", room] => if room.isEmpty then none else some (socket room)
  | ["", "api", "health"] => some health
  | ["", "api", "rooms", room, "presence"] => some (presence room)
  | ["", "api", "rooms", room, "call-participants"] => some (callParticipants room)
  | _ => none

/-- What a server needs to answer requests. -/
structure Site where
  verify : Verifier
  cors : Cors

/-- What follows from a request: a response, or a connection of a person to a room. -/
inductive Reply where
  | response (r : Response)
  | upgrade (room : RoomId) (who : Participant)
  deriving DecidableEq, Repr

/-! ## Refusals -/

/-- A status and the words for a caller who is refused. -/
structure Refusal where
  status : Nat
  message : String
  deriving DecidableEq, Repr

namespace Refusal

/-- The text that should name a room does not. -/
def invalidRoomId : Refusal := ⟨400, "invalid room id"⟩

/-- What a caller without access is told. -/
def ofAccess : AccessError → Refusal
  | .unauthorized .missing => ⟨401, "missing token"⟩
  | .unauthorized .blankName => ⟨401, "invalid token payload"⟩
  | .unauthorized (.invalid _) => ⟨401, "invalid token"⟩
  | .roomNotFound _ => ⟨404, "room not found"⟩
  | .forbidden _ _ => ⟨403, "forbidden"⟩
  | .store _ => ⟨500, "failed to check membership"⟩

/-- What a caller is told when the store refuses. -/
def ofStore : StoreError → Refusal
  | .roomNotFound _ => ⟨404, "room not found"⟩
  | _ => ⟨500, "internal error"⟩

/-- The response that refuses. -/
def response (r : Refusal) : Response :=
  .json r.status (Wire.ErrorPayload.toJson ⟨r.message⟩)

end Refusal

/-! ## Checking the caller -/

/-- Who asks, and for which room, when every check is passed. -/
def authorizeRequest (verify : Verifier) (token : Option String) (room : String) :
    Program (Except Refusal (Participant × RoomId)) :=
  match Access.authenticate verify token with
  | .error e => return .error (.ofAccess e)
  | .ok who =>
    match RoomId.parse room with
    | .error _ => return .error .invalidRoomId
    | .ok r => do
      match ← Access.authorize who r with
      | .error e => return .error (.ofAccess e)
      | .ok () => return .ok (who, r)

/-- The token in the `Authorization` header: what follows `Bearer` and a space, trimmed. -/
def bearerToken? (req : Request) : Option String := do
  let value ← req.header? "authorization"
  let text ← Request.visibleText? value
  let scheme := "Bearer ".toList
  if scheme.isPrefixOf text.toList then
    return Text.trim (String.ofList (text.toList.drop scheme.length))
  else none

/-! ## The resources -/

/-- Answers with the room of a path, once its escapes are undone. -/
def withRoom (room : String) (k : String → Program Reply) : Program Reply :=
  match parameter? room with
  | some r => k r
  | none => return .response (.text 400 "Invalid URL: Invalid UTF-8 in `room_id`")

/-- The health check. -/
def health : Response := .json 200 (Wire.HealthPayload.toJson ⟨"ok"⟩)

/-- The people of a room. -/
def presence (verify : Verifier) (req : Request) (room : String) : Program Reply := do
  match ← authorizeRequest verify (bearerToken? req) room with
  | .error e => return .response e.response
  | .ok (_, r) =>
    match ← Presence.ofRoom r with
    | .error e => return .response (Refusal.ofStore e).response
    | .ok p => return .response (.json 200 (Wire.PresencePayload.ofPresence p).toJson)

/-- The people in the call of a room. -/
def callParticipants (verify : Verifier) (req : Request) (room : String) : Program Reply := do
  match ← authorizeRequest verify (bearerToken? req) room with
  | .error e => return .response e.response
  | .ok (_, r) =>
    let people ← Presence.ofCall r
    return .response (.json 200 (Wire.CallPayload.ofParticipants r people).toJson)

/-- Whether a run of characters occurs in another. -/
def occursIn (word : List Char) : List Char → Bool
  | [] => word.isEmpty
  | c :: cs => word.isPrefixOf (c :: cs) || occursIn word cs

/-- What is wrong with a request for a socket, in the order of the checks. -/
def handshakeFault? (upgradable : Bool) (req : Request) : Option Response :=
  let lower := fun (value : List UInt8) =>
    (Text.Utf8.text? value).map fun s => s.toList.map Char.toLower
  let contains := fun (name word : String) =>
    ((req.header? name).bind lower).any (occursIn word.toList)
  let equals := fun (name word : String) =>
    ((req.header? name).bind lower).any (· = word.toList)
  if req.method ≠ "GET" then some (.text 405 "Request method must be `GET`")
  else if !contains "connection" "upgrade" then
    some (.text 400 "Connection header did not include 'upgrade'")
  else if !equals "upgrade" "websocket" then
    some (.text 400 "`Upgrade` header did not include 'websocket'")
  else if (req.header? "sec-websocket-key").isNone then
    some (.text 400 "`Sec-WebSocket-Key` header missing")
  else if !equals "sec-websocket-version" "13" then
    some (.text 400 "`Sec-WebSocket-Version` header did not include '13'")
  else if !upgradable then
    some (.text 426 "WebSocket request couldn't be upgraded since no upgrade state was present")
  else none

/-- The socket of a room. -/
def socket (verify : Verifier) (upgradable : Bool) (req : Request) (room : String) :
    Program Reply :=
  match handshakeFault? upgradable req with
  | some fault => return .response fault
  | none => withRoom room fun room => do
    match queryField? (queryOf req.target) "token" with
    | none =>
      return .response
        (.text 400 "Failed to deserialize query string: duplicate field `token`")
    | some token =>
      match ← authorizeRequest verify token room with
      | .error e => return .response e.response
      | .ok (who, r) => return .upgrade r who

/-- Answers a request for a resource. -/
def Route.answer (verify : Verifier) (upgradable : Bool) (req : Request) :
    Route → Program Reply
  | .socket room => Http.socket verify upgradable req room
  | .health => return .response Http.health
  | .presence room => withRoom room (Http.presence verify req)
  | .callParticipants room => withRoom room (Http.callParticipants verify req)

/-! ## Every request -/

/-- The header that names the methods of a resource. -/
def allowHeader : String × String := ("allow", "GET,HEAD")

/-- Answers a request before the headers for other origins are added. -/
def answerPlain (site : Site) (upgradable : Bool) (req : Request) : Program Reply :=
  match Route.ofPath? (pathOf req.target) with
  | none => return .response (.empty 404)
  | some route =>
    if req.method = "GET" then route.answer site.verify upgradable req
    else if req.method = "HEAD" then do
      match ← route.answer site.verify upgradable req with
      | .response r => return .response r.withoutBody
      | .upgrade r who => return .upgrade r who
    else return .response ((Response.empty 405).withHeaders [allowHeader])

/-- Answers a request. A request with the method `OPTIONS` asks beforehand what is
allowed and never reaches a resource. -/
def answer (site : Site) (upgradable : Bool) (req : Request) : Program Reply := do
  let cors := site.cors.headers (req.header? "origin")
  if req.method = "OPTIONS" then
    let allow := if (Route.ofPath? (pathOf req.target)).isSome then [allowHeader] else []
    return .response ⟨200, cors ++ Cors.preflightHeaders ++ allow, ""⟩
  else
    match ← answerPlain site upgradable req with
    | .response r => return .response (r.withHeaders cors)
    | .upgrade r who => return .upgrade r who

end RoomHub.Http
