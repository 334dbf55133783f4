import RoomHub.Program

/-!
# Who belongs to a room, who is there, who is in its call

Three lists, read one after the other. Between two of them other tasks may step in.
-/

namespace RoomHub

/-- The people of a room. -/
structure Presence where
  room : RoomId
  members : List Participant
  participants : List Participant
  callParticipants : List Participant
  deriving DecidableEq, Repr

namespace Presence

/-- Reads the people of a room. -/
def ofRoom (r : RoomId) : Program (Except StoreError Presence) := do
  match ← Program.perform (.listMembers r) with
  | .error e => return .error e
  | .ok members =>
    let participants ← Program.perform (.participants r)
    let callers ← Program.perform (.callParticipants r)
    return .ok ⟨r, members, participants, callers⟩

/-- Reads the people in the call of a room. -/
def ofCall (r : RoomId) : Program (List Participant) :=
  Program.perform (.callParticipants r)

end Presence

end RoomHub
