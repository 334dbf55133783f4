import RoomHub.Uuid

/-!
# Identifiers of rooms, users and connections

The three kinds share one representation and are told apart by their type.
-/

namespace RoomHub

/-- What an identifier names. -/
inductive IdKind where
  | room
  | user
  | connection
  deriving DecidableEq, Repr

/-- An identifier of one kind. -/
structure Id (kind : IdKind) where
  uuid : Uuid
  deriving DecidableEq, Repr, Inhabited, Hashable

abbrev RoomId := Id .room

abbrev UserId := Id .user

abbrev ConnectionId := Id .connection

namespace Id

variable {kind : IdKind}

instance : Ord (Id kind) := ⟨compareOn uuid⟩

instance : Std.TransOrd (Id kind) := inferInstanceAs (Std.TransCmp (compareOn uuid))

instance : Std.LawfulEqOrd (Id kind) where
  eq_of_compare {a b} h := by
    cases a; cases b
    exact congrArg _ (Std.LawfulEqOrd.eq_of_compare (α := Uuid) h)

/-- Reads an identifier in any layout of `Uuid`. -/
def parse? (kind : IdKind) (s : String) : Option (Id kind) := (Uuid.parse? s).map Id.mk

/-- The hyphenated lower-case layout. -/
def toText (id : Id kind) : String := id.uuid.toText

instance : ToString (Id kind) := ⟨toText⟩

end Id

/-- A value that the domain refuses. -/
inductive ValueError where
  | invalidRoomId (text : String)
  | invalidUserId (text : String)
  | emptyContent
  deriving DecidableEq, Repr

namespace ValueError

/-- The text shown for a refused value. -/
def message : ValueError → String
  | invalidRoomId text => s!"invalid room id: '{text}'"
  | invalidUserId text => s!"invalid user id: '{text}'"
  | emptyContent => "message content must not be empty"

end ValueError

/-- Reads a room's identifier. -/
def RoomId.parse (s : String) : Except ValueError RoomId :=
  match Id.parse? .room s with
  | some id => .ok id
  | none => .error (.invalidRoomId s)

/-- Reads a user's identifier. -/
def UserId.parse (s : String) : Except ValueError UserId :=
  match Id.parse? .user s with
  | some id => .ok id
  | none => .error (.invalidUserId s)

end RoomHub
