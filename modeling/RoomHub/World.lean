import RoomHub.Hub
import RoomHub.Store

/-!
# The world of a running hub

A `World` holds everything that operations share: the hub, the store, the moment that
the store's clock shows, and which of the store's methods are out of order. An
`Operation` is one atomic step on it. Tasks that run at the same time interleave at these
steps and at no finer ones.
-/

namespace RoomHub

/-- The methods of the store that may be out of order. -/
inductive StoreMethod where
  | roomExists
  | isMember
  | listMembers
  | persist
  | recentMessages
  deriving DecidableEq, Repr

/-- Why each method of the store fails, if it does. -/
abbrev Outage := StoreMethod → Option String

/-- No method fails. -/
def Outage.none : Outage := fun _ => Option.none

/-- The outage with one method changed. -/
def Outage.set (m : StoreMethod) (reason : Option String) (o : Outage) : Outage :=
  fun m' => if m' = m then reason else o m'

/-- Everything that operations share. -/
structure World where
  hub : Hub
  store : Store
  clock : Instant
  outage : Outage

namespace World

/-- A world with a store and nobody connected. -/
def ofStore (s : Store) (clock : Instant) : World := ⟨.empty, s, clock, .none⟩

/-- The answer of a store method: the reason when it is out of order. -/
def ask {α : Type} (w : World) (m : StoreMethod) (answer : Except StoreError α) :
    Except StoreError α :=
  match w.outage m with
  | some reason => .error (.unavailable reason)
  | none => answer

end World

/-- One atomic step on the world. -/
inductive Operation where
  | roomExists (room : RoomId)
  | isMember (room : RoomId) (user : UserId)
  | listMembers (room : RoomId)
  | persist (room : RoomId) (user : UserId) (draft : Draft)
  | recentMessages (room : RoomId) (limit : Nat)
  | attach (handle : Handle)
  | detach (connection : ConnectionId)
  | setInCall (connection : ConnectionId) (on : Bool)
  | broadcast (room : RoomId) (event : Event)
  | broadcastPresence (room : RoomId) (scope : Scope)
  | pushTo (connection : ConnectionId) (event : Event)
  | pushCallParticipants (connection : ConnectionId)
  | participants (room : RoomId)
  | callParticipants (room : RoomId)
  deriving DecidableEq, Repr

namespace Operation

/-- The type of what a step answers. -/
@[reducible] def Answer : Operation → Type
  | roomExists _ => Except StoreError Bool
  | isMember _ _ => Except StoreError Bool
  | listMembers _ => Except StoreError (List Participant)
  | persist _ _ _ => Except StoreError Message
  | recentMessages _ _ => Except StoreError (List Message)
  | attach _ => Bool
  | detach _ => Option Member
  | setInCall _ _ => Bool
  | broadcast _ _ => Report
  | broadcastPresence _ _ => Report
  | pushTo _ _ => Except PushError Unit
  | pushCallParticipants _ => Except PushError Unit
  | participants _ => List Participant
  | callParticipants _ => List Participant

end Operation

namespace World

/-- The world with a step on the hub taken. -/
def onHub {α : Type} (f : Hub → α × Hub) (w : World) : α × World :=
  let (a, h) := f w.hub
  (a, { w with hub := h })

/-- Takes one step. -/
def perform : (op : Operation) → World → op.Answer × World
  | .roomExists r, w => (w.ask .roomExists (.ok (w.store.roomExists r)), w)
  | .isMember r u, w => (w.ask .isMember (.ok (w.store.isMember r u)), w)
  | .listMembers r, w => (w.ask .listMembers (w.store.listMembers r), w)
  | .persist r u d, w =>
    match w.outage .persist with
    | some reason => (.error (.unavailable reason), w)
    | none =>
      let (a, s) := w.store.persist w.clock r u d
      (a, { w with store := s })
  | .recentMessages r n, w => (w.ask .recentMessages (w.store.recentMessages r n), w)
  | .attach h, w => w.onHub (Hub.attach h)
  | .detach c, w => w.onHub (Hub.detach c)
  | .setInCall c on, w => w.onHub (Hub.setInCall c on)
  | .broadcast r e, w => w.onHub (Hub.broadcast r e)
  | .broadcastPresence r s, w => w.onHub (Hub.broadcastPresence r s)
  | .pushTo c e, w => w.onHub (Hub.pushTo c e)
  | .pushCallParticipants c, w => w.onHub (Hub.pushCallParticipants c)
  | .participants r, w => (w.hub.participants r, w)
  | .callParticipants r, w => (w.hub.callParticipants r, w)

end World

end RoomHub
