import RoomHub.Participant

/-!
# Who is in the call of a room

A user may join the call from several connections; the tracker counts them, and the user
stays in the call until the last one leaves. Each user is shown under the name of their
latest join. A user whose count reaches zero is removed, and so is a room without users,
so the size of the table is the number of rooms with a call.
-/

namespace RoomHub

/-- How many connections of a user are in a call, and how the user is shown. -/
structure CallEntry where
  count : Nat
  participant : Participant
  deriving DecidableEq, Repr

/-- The users in the call of each room. -/
structure CallTracker where
  rooms : Std.ExtTreeMap RoomId (Std.ExtTreeMap UserId CallEntry)

namespace CallTracker

/-- The tracker without calls. -/
def empty : CallTracker := ⟨∅⟩

instance : Inhabited CallTracker := ⟨empty⟩

/-- The users in the call of a room. -/
def users (t : CallTracker) (r : RoomId) : Std.ExtTreeMap UserId CallEntry :=
  t.rooms.getD r ∅

/-- How many connections of a user are in the call of a room. -/
def count (t : CallTracker) (r : RoomId) (u : UserId) : Nat :=
  match (t.users r)[u]? with
  | some entry => entry.count
  | none => 0

/-- Replaces the users of a room; a room without users is removed. -/
def setUsers (t : CallTracker) (r : RoomId) (us : Std.ExtTreeMap UserId CallEntry) :
    CallTracker :=
  if us.isEmpty then ⟨t.rooms.erase r⟩ else ⟨t.rooms.insert r us⟩

/-- One more connection of a participant is in the call: the new count. -/
def markIn (r : RoomId) (p : Participant) (t : CallTracker) : Nat × CallTracker :=
  let n := t.count r p.user + 1
  (n, t.setUsers r ((t.users r).insert p.user ⟨n, p⟩))

/-- One connection of a user fewer is in the call: the new count, zero when the user was
not in the call. -/
def markOut (r : RoomId) (u : UserId) (t : CallTracker) : Nat × CallTracker :=
  match (t.users r)[u]? with
  | none => (0, t)
  | some entry =>
    let n := entry.count - 1
    let us := t.users r
    (n, t.setUsers r (if n = 0 then us.erase u else us.insert u { entry with count := n }))

/-- The users in the call of a room, in roster order. -/
def snapshot (t : CallTracker) (r : RoomId) : List Participant :=
  Participant.sort ((t.users r).toList.map (·.2.participant))

/-- The number of rooms with a call. -/
def roomCount (t : CallTracker) : Nat := t.rooms.size

end CallTracker

end RoomHub
