import RoomHub.Message
import RoomHub.Seed

/-!
# Rooms, members and messages in memory

A store holds the rooms with their members and messages, and the number of the last
message. Numbers run over all rooms, from one, without gaps. A call that fails leaves the
store as it was, and a stored message never changes.
-/

namespace RoomHub

/-- Why a store refuses a call. -/
inductive StoreError where
  | roomNotFound (room : RoomId)
  | userNotFound (user : UserId)
  | unavailable (reason : String)
  deriving DecidableEq, Repr

/-- The text shown for a refused call. -/
def StoreError.message : StoreError → String
  | .roomNotFound r => s!"room '{r}' not found"
  | .userNotFound u => s!"user '{u}' not found"
  | .unavailable reason => s!"store unavailable: {reason}"

/-- The members of a room, by identifier, and its messages, oldest first. -/
structure StoredRoom where
  members : Std.ExtTreeMap UserId String
  messages : Array Message

/-- A room without members and messages. -/
def StoredRoom.empty : StoredRoom := ⟨∅, #[]⟩

/-- The rooms and the number of the last message. -/
structure Store where
  rooms : Std.ExtTreeMap RoomId StoredRoom
  lastMessageId : Int

namespace Store

/-- The store without rooms. -/
def empty : Store := ⟨∅, 0⟩

instance : Inhabited Store := ⟨empty⟩

/-! ## Building -/

/-- The members that a seed lists; the last entry of a user counts. -/
def seedMembers (ms : List Seed.Member) : Std.ExtTreeMap UserId String :=
  ms.foldl (fun t m => t.insert m.id m.name) ∅

/-- The store that a seed describes; the last entry of a room counts. -/
def ofSeed (rooms : List Seed.Room) : Store :=
  { rooms := rooms.foldl (fun t r => t.insert r.id ⟨seedMembers r.members, #[]⟩) ∅
    lastMessageId := 0 }

/-- Creates a room; `false` when it exists. -/
def createRoom (r : RoomId) (s : Store) : Bool × Store :=
  if s.rooms.contains r then (false, s)
  else (true, { s with rooms := s.rooms.insert r .empty })

/-- Adds a member to a room, or renames a member. -/
def addMember (r : RoomId) (u : UserId) (name : String) (s : Store) :
    Except StoreError Unit × Store :=
  match s.rooms[r]? with
  | none => (.error (.roomNotFound r), s)
  | some room =>
    (.ok (),
      { s with rooms := s.rooms.insert r { room with members := room.members.insert u name } })

/-! ## Asking -/

/-- Whether a room exists. -/
def roomExists (s : Store) (r : RoomId) : Bool := s.rooms.contains r

/-- Whether a user is a member of a room. -/
def isMember (s : Store) (r : RoomId) (u : UserId) : Bool :=
  match s.rooms[r]? with
  | some room => room.members.contains u
  | none => false

/-- The members of a room, in roster order. -/
def listMembers (s : Store) (r : RoomId) : Except StoreError (List Participant) :=
  match s.rooms[r]? with
  | none => .error (.roomNotFound r)
  | some room => .ok (Participant.sort (room.members.toList.map fun m => ⟨m.1, m.2⟩))

/-- How many messages are handed out when a caller names no sensible number. -/
def defaultHistory : Nat := 50

/-- How many messages are handed out at most. -/
def maxHistory : Nat := 200

/-- The number of messages handed out for a requested number. -/
def clampHistory (limit : Nat) : Nat :=
  if limit = 0 ∨ limit > maxHistory then defaultHistory else limit

/-- The last messages of a room, oldest first. -/
def recentMessages (s : Store) (r : RoomId) (limit : Nat) :
    Except StoreError (List Message) :=
  match s.rooms[r]? with
  | none => .error (.roomNotFound r)
  | some room =>
    .ok (room.messages.toList.drop (room.messages.size - clampHistory limit))

/-! ## Adding messages -/

/-- Stores a draft of a member as the next message. -/
def persist (now : Instant) (r : RoomId) (u : UserId) (d : Draft) (s : Store) :
    Except StoreError Message × Store :=
  match s.rooms[r]? with
  | none => (.error (.roomNotFound r), s)
  | some room =>
    match room.members[u]? with
    | none => (.error (.userNotFound u), s)
    | some name =>
      let m : Message :=
        ⟨s.lastMessageId + 1, r, u, name, d.content, d.kind, d.mediaUrl, now⟩
      (.ok m,
        { rooms := s.rooms.insert r { room with messages := room.messages.push m }
          lastMessageId := s.lastMessageId + 1 })

end Store

end RoomHub
