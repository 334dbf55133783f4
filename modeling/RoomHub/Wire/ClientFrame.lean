import RoomHub.Json

/-!
# What clients send

A client frame is a JSON object with a member `type`, or an array that begins with the
type. A chat frame holds a text, empty when it is missing; joining and leaving the call
need nothing else. Members of other names mean nothing, and a type or a content that is
repeated or no text makes the frame unreadable.
-/

namespace RoomHub

/-- A frame from a client. -/
inductive ClientFrame where
  | chat (content : String)
  | joinCall
  | leaveCall
  deriving DecidableEq, Repr

namespace ClientFrame

/-- The frame of a type, given the contents that stand beside it. -/
def ofType? (type : Json) (contents : List Json) : Option ClientFrame :=
  match type.asString?, contents with
  | some "chat", [] => some (chat "")
  | some "chat", [content] => content.asString?.map chat
  | some "call_join", _ => some joinCall
  | some "call_leave", _ => some leaveCall
  | _, _ => none

/-- Reads a frame written as an object. -/
def ofMembers? (members : List (Option String × Json)) : Option ClientFrame :=
  match Json.membersNamed "type" members with
  | [type] => ofType? type (Json.membersNamed "content" members)
  | _ => none

/-- Reads a frame written as an array. Only a chat frame has something after its type. -/
def ofItems? : List Json → Option ClientFrame
  | [] => none
  | type :: rest =>
    if rest.isEmpty ∨ type.asString? = some "chat" then ofType? type rest else none

/-- Reads a frame from a value that can be used as a whole. -/
def ofJson? (v : Json) : Option ClientFrame :=
  if !v.plain then none
  else match v with
    | .object members => ofMembers? members
    | .array items => ofItems? items
    | _ => none

/-- Reads the text of a frame. -/
def parse? (text : String) : Option ClientFrame := (Json.parse? text).bind ofJson?

end ClientFrame

end RoomHub
