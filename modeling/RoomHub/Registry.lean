import RoomHub.Participant

/-!
# Which connection is in which room

The registry keeps the connections of each room, and beside it the room of each
connection. A connection is in one room at most, and a room without connections is
removed, so the number of entries is the number of rooms in use.
-/

namespace RoomHub

/-- What the hub knows of a connection: its room and whose it is. -/
structure Handle where
  id : ConnectionId
  room : RoomId
  participant : Participant
  deriving DecidableEq, Repr, Inhabited

/-- A registered connection and whether it is in the call of its room. -/
structure Member where
  handle : Handle
  inCall : Bool
  deriving DecidableEq, Repr

/-- The connections of each room, and the room of each connection. -/
structure Registry where
  rooms : Std.ExtTreeMap RoomId (Std.ExtTreeMap ConnectionId Member)
  locations : Std.ExtTreeMap ConnectionId RoomId

namespace Registry

/-- The registry without connections. -/
def empty : Registry := ⟨∅, ∅⟩

instance : Inhabited Registry := ⟨empty⟩

/-- The members of a room. -/
def members (g : Registry) (r : RoomId) : Std.ExtTreeMap ConnectionId Member :=
  g.rooms.getD r ∅

/-- The member with an identifier, found through its room. -/
def member? (g : Registry) (c : ConnectionId) : Option Member := do
  let r ← g.locations[c]?
  (g.members r)[c]?

/-- The handle of a connection. -/
def connection? (g : Registry) (c : ConnectionId) : Option Handle :=
  (g.member? c).map (·.handle)

/-- Registers a connection out of the call; refused when its identifier is taken. -/
def attach (h : Handle) (g : Registry) : Bool × Registry :=
  if g.locations.contains h.id then (false, g)
  else
    (true,
      { rooms := g.rooms.insert h.room ((g.members h.room).insert h.id ⟨h, false⟩)
        locations := g.locations.insert h.id h.room })

/-- Removes a connection and hands out what was registered. -/
def detach (c : ConnectionId) (g : Registry) : Option Member × Registry :=
  match g.locations[c]? with
  | none => (none, g)
  | some r =>
    let left := (g.members r).erase c
    ((g.members r)[c]?,
      { rooms := if left.isEmpty then g.rooms.erase r else g.rooms.insert r left
        locations := g.locations.erase c })

/-- Sets whether a connection is in the call. Hands out its handle when that was a
change, and changes nothing otherwise. -/
def setInCall (c : ConnectionId) (on : Bool) (g : Registry) : Option Handle × Registry :=
  match g.locations[c]? with
  | none => (none, g)
  | some r =>
    match (g.members r)[c]? with
    | none => (none, g)
    | some m =>
      if m.inCall = on then (none, g)
      else
        (some m.handle,
          { g with rooms := g.rooms.insert r ((g.members r).insert c { m with inCall := on }) })

/-- The connections of a room, by identifier. -/
def connections (g : Registry) (r : RoomId) : List Handle :=
  (g.members r).toList.map (·.2.handle)

/-- The people connected to a room, each once, in roster order. A user with several
connections is shown as the last of them says. -/
def participants (g : Registry) (r : RoomId) : List Participant :=
  let byUser := (g.connections r).foldl
    (fun (t : Std.ExtTreeMap UserId Participant) h => t.insert h.participant.user h.participant) ∅
  Participant.sort (byUser.toList.map (·.2))

/-- The number of connections of a room. -/
def connectionCount (g : Registry) (r : RoomId) : Nat := (g.members r).size

/-- The number of rooms with a connection. -/
def roomCount (g : Registry) : Nat := g.rooms.size

end Registry

end RoomHub
