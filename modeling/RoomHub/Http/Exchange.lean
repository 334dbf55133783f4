import RoomHub.Json
import RoomHub.Text.Utf8

/-!
# Requests and responses

A request has a method, a target and headers with their values as bytes. A response has a
status, headers and a body of text.
-/

namespace RoomHub.Http

/-- A request. -/
structure Request where
  method : String
  target : String
  headers : List (String × List UInt8)
  deriving DecidableEq, Repr

namespace Request

/-- A name in lower case. -/
def lowerName (name : String) : String := String.ofList (name.toList.map Char.toLower)

/-- The first value of a header; names are compared without regard to letter case. -/
def header? (r : Request) (name : String) : Option (List UInt8) :=
  (r.headers.find? fun h => lowerName h.1 = name).map (·.2)

/-- A header value as text, when it is made of visible ASCII characters, spaces and
tabs. -/
def visibleText? (value : List UInt8) : Option String :=
  if value.all fun b => b = 0x09 || (0x20 ≤ b && b < 0x7F) then Text.Utf8.text? value
  else none

end Request

/-- A response. -/
structure Response where
  status : Nat
  headers : List (String × String)
  body : String
  deriving DecidableEq, Repr

namespace Response

/-- A response without a body. -/
def empty (status : Nat) : Response := ⟨status, [], ""⟩

/-- A response with a JSON body. -/
def json (status : Nat) (v : Json) : Response :=
  ⟨status, [("content-type", "application/json")], v.render⟩

/-- A response with a plain text. -/
def text (status : Nat) (s : String) : Response :=
  ⟨status, [("content-type", "text/plain; charset=utf-8")], s⟩

/-- Adds headers. -/
def withHeaders (r : Response) (hs : List (String × String)) : Response :=
  { r with headers := r.headers ++ hs }

/-- The response without its body. -/
def withoutBody (r : Response) : Response := { r with body := "" }

end Response

end RoomHub.Http
