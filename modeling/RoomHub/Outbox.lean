import RoomHub.Event

/-!
# Outboxes

Each connection owns an outbox: a queue of bounded length that the hub fills and the
connection's writer empties, and a close signal. Offering an event never waits. It goes
to the end of the queue; or, when the queue is full, it is lost and the close signal is
tripped, which is called eviction; or, when the close signal is tripped already or the
receiving end is closed, nothing happens. So the events that were queued are always the
first ones that were offered.
-/

namespace RoomHub

/-- What became of an offered event. -/
inductive Delivery where
  | queued
  | evicted
  | closed
  deriving DecidableEq, Repr

/-- The receiving end of a queue: taking events, closed with the queue still readable, or
gone together with the queue. -/
inductive Receiver where
  | listening
  | closed
  | dropped
  deriving DecidableEq, Repr

/-- The queue and the close signal of a connection. -/
structure Outbox where
  capacity : Nat
  queue : List Event
  receiver : Receiver
  cancelled : Bool
  capacity_pos : 0 < capacity
  deriving DecidableEq, Repr

namespace Outbox

/-- An empty outbox; `none` without room for one event. -/
def create? (capacity : Nat) : Option Outbox :=
  if h : 0 < capacity then some ⟨capacity, [], .listening, false, h⟩ else none

/-- The complaint about an outbox without room for one event. -/
def noCapacityMessage : String := "mpsc bounded channel requires buffer > 0"

/-- Whether an offered event would be considered at all. -/
def isOpen (o : Outbox) : Bool := !o.cancelled && o.receiver = .listening

/-- Whether the queue has no room left. -/
def isFull (o : Outbox) : Bool := o.capacity ≤ o.queue.length

/-- Offers an event: it is queued, or evicts the connection, or is ignored. -/
def offer (e : Event) (o : Outbox) : Delivery × Outbox :=
  if !o.isOpen then (.closed, o)
  else if o.isFull then (.evicted, { o with cancelled := true })
  else (.queued, { o with queue := o.queue ++ [e] })

/-- Takes up to `n` events from the front of the queue. -/
def take (n : Nat) (o : Outbox) : List Event × Outbox :=
  (o.queue.take n, { o with queue := o.queue.drop n })

/-- Closes the receiving end; what is queued can still be taken. -/
def closeReceiver (o : Outbox) : Outbox :=
  if o.receiver = .listening then { o with receiver := .closed } else o

/-- Drops the receiving end together with the queue. -/
def dropReceiver (o : Outbox) : Outbox := { o with receiver := .dropped, queue := [] }

/-- Trips the close signal. -/
def cancel (o : Outbox) : Outbox := { o with cancelled := true }

end Outbox

end RoomHub
