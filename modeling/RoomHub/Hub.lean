import RoomHub.CallTracker
import RoomHub.Outbox
import RoomHub.Registry

/-!
# The hub

The hub holds the registry, the call tracker and the outbox of every connection. Each
operation below is one atomic step: it reads one state and leaves one state. Sending to a
room offers the event to each of its connections in turn; since every connection has an
outbox of its own, the turn does not matter.
-/

namespace RoomHub

/-- How many outboxes took an event, and how many were evicted by it. -/
structure Report where
  delivered : Nat
  evicted : Nat
  deriving DecidableEq, Repr, Inhabited

namespace Report

/-- Nothing was offered. -/
def zero : Report := ⟨0, 0⟩

/-- Counts one more delivery. -/
def count (d : Delivery) (r : Report) : Report :=
  match d with
  | .queued => { r with delivered := r.delivered + 1 }
  | .evicted => { r with evicted := r.evicted + 1 }
  | .closed => r

instance : Add Report := ⟨fun a b => ⟨a.delivered + b.delivered, a.evicted + b.evicted⟩⟩

end Report

/-- Which snapshots a change of presence sends out. -/
inductive Scope where
  | room
  | call
  deriving DecidableEq, Repr

/-- Why an event could not be pushed to one connection. -/
inductive PushError where
  | notAttached (connection : ConnectionId)
  | evicted (connection : ConnectionId)
  | closed (connection : ConnectionId)
  deriving DecidableEq, Repr

/-- The text shown for a failed push, with `label` for the connection. -/
def PushError.message (label : ConnectionId → String) : PushError → String
  | .notAttached c => s!"connection '{label c}' not attached"
  | .evicted c => s!"connection '{label c}' evicted: outbound queue full"
  | .closed c => s!"connection '{label c}' already closed"

/-- The registry, the call tracker and the outboxes. -/
structure Hub where
  registry : Registry
  calls : CallTracker
  outboxes : Std.ExtTreeMap ConnectionId Outbox

namespace Hub

/-- The hub without connections. -/
def empty : Hub := ⟨.empty, .empty, ∅⟩

instance : Inhabited Hub := ⟨empty⟩

/-! ## Outboxes -/

/-- Gives a connection its outbox. -/
def addOutbox (c : ConnectionId) (o : Outbox) (h : Hub) : Hub :=
  { h with outboxes := h.outboxes.insert c o }

/-- Takes the outbox of a connection away. -/
def removeOutbox (c : ConnectionId) (h : Hub) : Hub := { h with outboxes := h.outboxes.erase c }

/-- Changes the outbox of a connection, if it has one. -/
def updateOutbox (c : ConnectionId) (f : Outbox → Outbox) (h : Hub) : Hub :=
  match h.outboxes[c]? with
  | some o => { h with outboxes := h.outboxes.insert c (f o) }
  | none => h

/-- Offers an event to one connection. A connection without an outbox is closed. -/
def deliver (c : ConnectionId) (e : Event) (h : Hub) : Delivery × Hub :=
  match h.outboxes[c]? with
  | none => (.closed, h)
  | some o =>
    let (d, o') := o.offer e
    (d, { h with outboxes := h.outboxes.insert c o' })

/-- Takes up to `n` events from the queue of a connection. -/
def take (c : ConnectionId) (n : Nat) (h : Hub) : List Event × Hub :=
  match h.outboxes[c]? with
  | none => ([], h)
  | some o =>
    let (es, o') := o.take n
    (es, { h with outboxes := h.outboxes.insert c o' })

/-- Trips the close signal of a connection. -/
def cancel (c : ConnectionId) (h : Hub) : Hub := h.updateOutbox c Outbox.cancel

/-- Whether the close signal of a connection is tripped. -/
def isCancelled (h : Hub) (c : ConnectionId) : Bool :=
  match h.outboxes[c]? with
  | some o => o.cancelled
  | none => true

/-! ## Membership -/

/-- Registers a connection; refused when its identifier is taken. -/
def attach (handle : Handle) (h : Hub) : Bool × Hub :=
  let (ok, g) := h.registry.attach handle
  (ok, { h with registry := g })

/-- Removes a connection, from the call as well if it was in it. -/
def detach (c : ConnectionId) (h : Hub) : Option Member × Hub :=
  match h.registry.detach c with
  | (none, g) => (none, { h with registry := g })
  | (some m, g) =>
    let calls :=
      if m.inCall then (h.calls.markOut m.handle.room m.handle.participant.user).2
      else h.calls
    (some m, { h with registry := g, calls := calls })

/-- Moves a connection into the call of its room or out of it; `false` when it was there
already or is not registered. -/
def setInCall (c : ConnectionId) (on : Bool) (h : Hub) : Bool × Hub :=
  match h.registry.setInCall c on with
  | (none, g) => (false, { h with registry := g })
  | (some handle, g) =>
    let calls :=
      if on then (h.calls.markIn handle.room handle.participant).2
      else (h.calls.markOut handle.room handle.participant.user).2
    (true, { h with registry := g, calls := calls })

/-! ## Snapshots -/

/-- The people connected to a room. -/
def participants (h : Hub) (r : RoomId) : List Participant := h.registry.participants r

/-- The people in the call of a room. -/
def callParticipants (h : Hub) (r : RoomId) : List Participant := h.calls.snapshot r

/-! ## Sending -/

/-- Offers an event to connections in the given order and counts what became of it. -/
def fanOut (e : Event) : List ConnectionId → Hub → Report × Hub
  | [], h => (.zero, h)
  | c :: cs, h =>
    let (d, h) := h.deliver c e
    let (r, h) := fanOut e cs h
    (r.count d, h)

/-- Offers an event to every connection of a room. -/
def broadcast (r : RoomId) (e : Event) (h : Hub) : Report × Hub :=
  fanOut e ((h.registry.connections r).map (·.id)) h

/-- Offers the snapshots of a room to its connections: of the people connected to it,
when the scope is the room, and of those in its call. Both are taken from one state. -/
def broadcastPresence (r : RoomId) (scope : Scope) (h : Hub) : Report × Hub :=
  let people := Event.participants (h.participants r)
  let callers := Event.callParticipants (h.callParticipants r)
  match scope with
  | .call => h.broadcast r callers
  | .room =>
    let (first, h) := h.broadcast r people
    let (second, h) := h.broadcast r callers
    (first + second, h)

/-- Offers an event to one registered connection. -/
def pushTo (c : ConnectionId) (e : Event) (h : Hub) : Except PushError Unit × Hub :=
  match h.registry.connection? c with
  | none => (.error (.notAttached c), h)
  | some _ =>
    match h.deliver c e with
    | (.queued, h) => (.ok (), h)
    | (.evicted, h) => (.error (.evicted c), h)
    | (.closed, h) => (.error (.closed c), h)

/-- Offers a registered connection the snapshot of its room's call. -/
def pushCallParticipants (c : ConnectionId) (h : Hub) : Except PushError Unit × Hub :=
  match h.registry.connection? c with
  | none => (.error (.notAttached c), h)
  | some handle => h.pushTo c (.callParticipants (h.callParticipants handle.room))

end Hub

end RoomHub
