import RoomHub.Program

/-!
# Joining and leaving

A connection that joins a room is registered first and told the state of the room after:
the presence of everyone goes to the whole room, then the newcomer gets the recent
messages and once more who is in the call. Since it is registered before the messages are
read, a message that the reading misses reaches it as a broadcast.

Every change of presence is followed by a broadcast of snapshots taken after it.
-/

namespace RoomHub.Membership

/-- How many events a connection is sent while it joins. An outbox of this capacity is
not overfilled by them. -/
def bootstrapEvents : Nat := 4

/-- Joins the room of a connection; `false` when the connection is registered already. -/
def join (historyLimit : Nat) (c : Handle) : Program Bool := do
  match ← Program.perform (.attach c) with
  | false => return false
  | true =>
    let _ ← Program.perform (.broadcastPresence c.room .room)
    match ← Program.perform (.recentMessages c.room historyLimit) with
    | .ok messages => let _ ← Program.perform (.pushTo c.id (.history messages))
    | .error _ => pure ()
    let _ ← Program.perform (.pushCallParticipants c.id)
    return true

/-- Leaves the room that a connection is in; `false` when it is in none. -/
def leave (c : ConnectionId) : Program Bool := do
  match ← Program.perform (.detach c) with
  | none => return false
  | some m =>
    let _ ← Program.perform (.broadcastPresence m.handle.room .room)
    return true

/-- Moves a connection into the call of its room or out of it, and tells the room when
that was a change. -/
def setCall (c : ConnectionId) (r : RoomId) (on : Bool) : Program Bool := do
  match ← Program.perform (.setInCall c on) with
  | false => return false
  | true =>
    let _ ← Program.perform (.broadcastPresence r .call)
    return true

/-- Joins the call of a room. -/
def joinCall (c : ConnectionId) (r : RoomId) : Program Bool := setCall c r true

/-- Leaves the call of a room. -/
def leaveCall (c : ConnectionId) (r : RoomId) : Program Bool := setCall c r false

end RoomHub.Membership
