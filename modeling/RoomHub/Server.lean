import RoomHub.Http.Router
import RoomHub.Session

/-!
# The server

A `Server` is a state machine without input or output of its own: requests, bytes and the
passing of time go in, responses and frames come out, and whoever runs it connects it to
the world outside. `settle` lets every session do all it can at the present time; nothing
moves in between.
-/

namespace RoomHub

/-- What a server is set up with. -/
structure ServerSetup where
  settings : HubSettings
  site : Http.Site

/-- A running server. -/
structure Server where
  setup : ServerSetup
  world : World
  now : Time
  sessions : List Session

namespace Server

/-- A server that nobody is connected to. -/
def start (setup : ServerSetup) (world : World) : Server := ⟨setup, world, 0, []⟩

/-- The server with the world changed. -/
def onWorld (f : World → World) (s : Server) : Server := { s with world := f s.world }

/-! ## Requests -/

/-- Answers a request that cannot become a connection. -/
def respond (req : Http.Request) (s : Server) : Http.Reply × Server :=
  let (reply, w) := (Http.answer s.setup.site false req).run s.world
  (reply, { s with world := w })

/-- Opens a session for a person in a room, over a connection with a new identifier. -/
def openSession (id : ConnectionId) (room : RoomId) (who : Participant) (s : Server) :
    Server :=
  match Outbox.create? s.setup.settings.capacity with
  | none => s
  | some outbox =>
    let handle : Handle := ⟨id, room, who⟩
    let w := { s.world with hub := s.world.hub.addOutbox id outbox }
    let (joined, w) := (Membership.join s.setup.settings.historyLimit handle).run w
    if joined then
      { s with
        world := w
        sessions := s.sessions ++ [Session.begin s.setup.settings s.now handle] }
    else { s with world := w }

/-- Answers a request that may become a connection with a new identifier. -/
def connect (id : ConnectionId) (req : Http.Request) (s : Server) : Http.Reply × Server :=
  let (reply, w) := (Http.answer s.setup.site true req).run s.world
  let s := { s with world := w }
  match reply with
  | .response r => (.response r, s)
  | .upgrade room who => (.upgrade room who, s.openSession id room who)

/-! ## Sockets -/

/-- Changes the session of a connection. -/
def onSession (id : ConnectionId) (f : Session → Session) (s : Server) : Server :=
  { s with sessions := s.sessions.map fun t => if t.handle.id = id then f t else t }

/-- Changes the socket of a connection. -/
def onSocket (id : ConnectionId) (f : WebSocket.Socket → WebSocket.Socket) (s : Server) :
    Server :=
  s.onSession id fun t => { t with socket := f t.socket }

/-- Bytes came from a client. -/
def receive (id : ConnectionId) (bs : List UInt8) : Server → Server :=
  onSocket id (WebSocket.Socket.receive bs)

/-- Takes the frames that left for a client. -/
def collect (id : ConnectionId) (s : Server) : List WebSocket.Outgoing × Server :=
  match s.sessions.find? (·.handle.id = id) with
  | none => ([], s)
  | some t => (t.socket.sent, s.onSocket id fun k => k.collect.2)

/-! ## Letting sessions move -/

/-- Lets one session after the other take a step. -/
def each (f : Session → World → Session × World) : List Session → World →
    List Session × World
  | [], w => ([], w)
  | t :: ts, w =>
    let (t, w) := f t w
    let (ts, w) := each f ts w
    (t :: ts, w)

/-- One round: every session reads, then every session writes, then those that have read
their last leave. -/
def round (s : Server) : Server :=
  let cfg := s.setup.settings
  let (ts, w) := each (Session.readAll cfg s.now) s.sessions s.world
  let (ts, w) := each (Session.writeAll cfg s.now) ts w
  let (ts, w) := each Session.leaveIfDone ts w
  { s with sessions := ts, world := w }

/-- How many rounds are needed at most until nothing moves: in each but the last two some
session ends one of its sides or leaves. -/
def roundsNeeded (s : Server) : Nat := 3 * s.sessions.length + 3

/-- Lets every session do all it can at the present time. -/
def settle (s : Server) : Server := s.roundsNeeded.repeat (fun s => s.round) s

/-- Removes the sessions that are over, and their outboxes. -/
def depart (s : Server) : List Departure × Server :=
  let gone := s.sessions.filterMap Session.over?
  let hub := gone.foldl (fun hub d => hub.removeOutbox d.connection) s.world.hub
  (gone,
    { s with
      world := { s.world with hub := hub }
      sessions := s.sessions.filter (·.over?.isNone) })

/-! ## Time -/

/-- The next time at which something is due, as a whole millisecond. -/
def nextTimer? (s : Server) : Option Time :=
  ((s.sessions.flatMap fun t => t.timers s.world).map Time.ceilMilli).min?

/-- The server at a later time. -/
def atTime (t : Time) (s : Server) : Server := { s with now := t }

end Server

end RoomHub
