import RoomHub.Id
import RoomHub.Json

/-!
# Seed data

The rooms and members that a store starts with, as a JSON text lists them. A list that is
missing is empty; a repeated field, a value of another type or a text that is no
identifier makes the whole text unreadable, and fields of other names are skipped.
-/

namespace RoomHub.Seed

/-- A member of a seeded room. -/
structure Member where
  id : UserId
  name : String
  deriving DecidableEq, Repr

/-- A seeded room. -/
structure Room where
  id : RoomId
  name : String
  members : List Member
  deriving DecidableEq, Repr

/-- Reads an identifier. -/
def id? (kind : IdKind) (v : Json) : Option (Id kind) := v.asString?.bind (Id.parse? kind)

/-- Reads a list, which may be missing. -/
def list? {α : Type} (f : Json → Option α) : Option Json → Option (List α)
  | none => some []
  | some v => v.asList? f

/-- Reads a member. -/
def member? (v : Json) : Option Member :=
  match v.fields? ["id", "username"] with
  | some [some id, some name] => return ⟨← id? .user id, ← name.asString?⟩
  | _ => none

/-- Reads a room. -/
def room? (v : Json) : Option Room :=
  match v.fields? ["id", "name", "members"] with
  | some [some id, some name, members] =>
    return ⟨← id? .room id, ← name.asString?, ← list? member? members⟩
  | _ => none

/-- Reads the rooms of a seed text. -/
def parse? (text : String) : Option (List Room) := do
  let v ← Json.parse? text
  match v.fields? ["rooms"] with
  | some [rooms] => list? room? rooms
  | _ => none

/-- Why a seed could not be loaded. -/
inductive Failure where
  | unreadable (path reason : String)
  | malformed
  deriving DecidableEq, Repr

/-- The text shown for a seed that could not be loaded; the parser's own words about a
malformed text are not part of it. -/
def Failure.message : Failure → String
  | unreadable path reason => s!"failed to read seed file '{path}': {reason}"
  | malformed => "failed to parse seed data"

/-- Reads the rooms of a seed text. -/
def parse (text : String) : Except Failure (List Room) :=
  match parse? text with
  | some rooms => .ok rooms
  | none => .error .malformed

end RoomHub.Seed
