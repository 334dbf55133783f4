import RoomHub.Proofs.Venue.Guests
import RoomHub.Simulation

/-!
# Any number of guests

A `Venue` is a world with all the guests that there have been, and everything that was
sent. Between two acts of a guest
anything else may happen: acts of other guests, new requests, and what the owner of the
rooms does, who creates rooms, adds members, stores messages and announces them. Time
passes, and the store fails and recovers. A `Move` is one such happening.

Connections get identifiers at random. Here a request names the identifier that its
connection will get, and comes to nothing if a guest has it already.

> `change_apply`: what a move can do to a venue;
> `run_induction`: what every such change preserves holds after every run.
-/

namespace RoomHub

/-- A world, the time on the clock of the timers, every guest so far, and everything that
was sent so far. -/
structure Venue where
  world : World
  now : Time
  guests : List Guest
  log : List Sending

namespace Venue

/-- Something that may happen. -/
inductive Move where
  | request (id : ConnectionId) (site : Http.Site) (upgradable : Bool) (request : Http.Request)
  | act (guest : Nat) (act : Act)
  | createRoom (room : RoomId)
  | addMember (room : RoomId) (user : UserId) (name : String)
  | persist (room : RoomId) (user : UserId) (draft : Draft)
  | announce (message : Message)
  | setOutage (outage : Outage)
  | setClock (clock : Instant)
  | setNow (now : Time)

/-- A venue in which nothing has happened yet: nobody is connected, and the store holds
what a seed says. -/
def opening (seed : List Seed.Room) (clock : Instant) (outage : Outage) : Venue :=
  ⟨⟨.empty, Store.ofSeed seed, clock, outage⟩, 0, [], []⟩

/-- The venue after an operation that belongs to no guest. -/
def perform (v : Venue) (op : Operation) : Venue :=
  { v with world := (v.world.perform op).2, log := v.log ++ op.sends v.world.hub }

/-- The venue after something happened to the store. -/
def onStore (v : Venue) (store : Store) : Venue :=
  { v with world := { v.world with store := store } }

/-- The venue with a guest and the world changed, and something sent. -/
def put (v : Venue) (i : Nat) (g : Guest) (w : World) (sent : List Sending) : Venue :=
  { v with guests := v.guests.set i g, world := w, log := v.log ++ sent }

/-- The venue after an act of a guest; of one that does not exist, nothing. -/
def act (cfg : HubSettings) (i : Nat) (a : Act) (v : Venue) : Venue :=
  match v.guests[i]? with
  | none => v
  | some g =>
    v.put i (g.act cfg v.now a v.world).1 (g.act cfg v.now a v.world).2 (Guest.sends a g v.world)

/-- The venue after a move. -/
def apply (cfg : HubSettings) (v : Venue) : Move → Venue
  | .request id site upgradable request =>
    if v.guests.any (·.id = id) then v
    else { v with guests := v.guests ++ [.fresh id site upgradable request] }
  | .act i a => v.act cfg i a
  | .createRoom r => v.onStore (v.world.store.createRoom r).2
  | .addMember r u name => v.onStore (v.world.store.addMember r u name).2
  | .persist r u d => v.perform (.persist r u d)
  | .announce m => v.perform (.broadcast m.room (.chat m))
  | .setOutage o => { v with world := { v.world with outage := o } }
  | .setClock t => { v with world := { v.world with clock := t } }
  | .setNow t => { v with now := t }

/-- The venue after a run. -/
def run (cfg : HubSettings) (v : Venue) (moves : List Move) : Venue := moves.foldl (apply cfg) v

/-! ## What a move can do -/

variable {cfg : HubSettings} {v v' : Venue}

/-- What a move can do to a venue: a guest comes or changes, the owner of the rooms stores
or announces a message, or the world changes around the hub while the store keeps what it
has. -/
inductive Change (cfg : HubSettings) (v : Venue) : Venue → Prop where
  | begun (id : ConnectionId) (site : Http.Site) (upgradable : Bool) (request : Http.Request)
      (hnew : ∀ g ∈ v.guests, g.id ≠ id) :
      Change cfg v { v with guests := v.guests ++ [.fresh id site upgradable request] }
  | acted {i : Nat} {g g' : Guest} {w : World} {sent : List Sending}
      (hg : v.guests[i]? = some g) (hact : g.Change cfg v.now v.world g' w sent) :
      Change cfg v (v.put i g' w sent)
  | stored (r : RoomId) (u : UserId) (d : Draft) : Change cfg v (v.perform (.persist r u d))
  | announced (m : Message) : Change cfg v (v.perform (.broadcast m.room (.chat m)))
  | around (w : World) (now : Time) (hhub : w.hub = v.world.hub)
      (hgrows : v.world.store.Grows w.store)
      (hmessages : ∀ r, w.store.messages r = v.world.store.messages r)
      (hlast : w.store.lastMessageId = v.world.store.lastMessageId) :
      Change cfg v { v with world := w, now := now }

/-- Every move does one of the things that can happen in a venue. -/
theorem change_apply (v : Venue) (move : Move) : Change cfg v (v.apply cfg move) := by
  have hstill : Change cfg v v :=
    .around v.world v.now rfl (Store.Grows.refl _) (fun _ => rfl) rfl
  cases move with
  | request id site upgradable request =>
    show Change cfg v (if v.guests.any (·.id = id) then v else _)
    split
    next => exact hstill
    next hnone =>
      refine .begun id site upgradable request fun g hg heq => hnone ?_
      exact List.any_eq_true.mpr ⟨g, hg, by simpa using heq⟩
  | act i a =>
    show Change cfg v (v.act cfg i a)
    unfold act
    split
    next => exact hstill
    next g hg => exact .acted hg (Guest.change_act a g v.world)
  | createRoom r =>
    exact .around _ v.now rfl Store.grows_createRoom (fun _ => Store.messages_createRoom)
      Store.lastMessageId_createRoom
  | addMember r u name =>
    exact .around _ v.now rfl Store.grows_addMember (fun _ => Store.messages_addMember)
      Store.lastMessageId_addMember
  | persist r u d => exact .stored r u d
  | announce m => exact .announced m
  | setOutage o => exact .around _ v.now rfl (Store.Grows.refl _) (fun _ => rfl) rfl
  | setClock _ => exact .around _ v.now rfl (Store.Grows.refl _) (fun _ => rfl) rfl
  | setNow t => exact .around v.world t rfl (Store.Grows.refl _) (fun _ => rfl) rfl

/-- What every change preserves holds after every run. -/
theorem run_induction {P : Venue → Prop} (hstart : P v)
    (hchange : ∀ v v', P v → Change cfg v v' → P v') (moves : List Move) :
    P (v.run cfg moves) := by
  induction moves generalizing v with
  | nil => exact hstart
  | cons move moves ih => exact ih (hchange v _ hstart (change_apply v move))

/-- A guest after a change of one is that one, or another that was there. -/
theorem mem_put {i : Nat} {g' u : Guest} {w : World} {sent : List Sending}
    (hu : u ∈ (v.put i g' w sent).guests) : u = g' ∨ u ∈ v.guests :=
  (List.mem_or_eq_of_mem_set hu).symm

/-! ## A visit -/

/-- A site where every token proves that ann asks. -/
def visitSite : Http.Site := ⟨fun _ => .ok ⟨⟨⟨5⟩⟩, "ann"⟩, ⟨.listed [], false⟩⟩

/-- A request for the socket of the lobby. -/
def visitRequest : Http.Request :=
  Simulation.socketRequest "/ws/rooms/00000000-0000-0000-0000-000000000007?token=t"

/-- Ann comes, joins the lobby and says something. -/
def coming : List Move :=
  [.request ⟨⟨1⟩⟩ visitSite true visitRequest, .act 0 .step, .act 0 .step, .act 0 .proceed] ++
    List.replicate 5 (.act 0 .step) ++
    [.act 0 .proceed, .act 0 (.arrive (.item (.text "[\"chat\",\"hello\"]"))), .act 0 .step,
      .act 0 .step, .act 0 .proceed]

/-- Her connection ends, and she is gone. -/
def going : List Move :=
  [.act 0 (.arrive .ended), .act 0 .proceed, .act 0 .proceed, .act 0 .step, .act 0 .step,
    .act 0 .proceed, .act 0 .write, .act 0 .write, .act 0 .proceed]

/-- The venue in which there is nothing but the lobby, of which ann is a member, after a
run. -/
def visited (moves : List Move) : Venue :=
  (opening [⟨⟨⟨7⟩⟩, "lobby", [⟨⟨⟨5⟩⟩, "ann"⟩]⟩] .epoch .none).run .default moves

end Venue

end RoomHub
