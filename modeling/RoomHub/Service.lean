import RoomHub.Http.Head
import RoomHub.Startup
import RoomHub.WebSocket.Handshake

/-!
# A server in real time

A `Service` is a server as a running program uses it. Whatever happens is a turn at a
moment: `turn` lets everything move, and says which bytes have to be sent to which client.
The link of a client that is given bytes is held until word comes that they were sent, so
a client that takes nothing holds its own session back and no other.
-/

namespace RoomHub

/-- What the clocks show: the time since the server started, and the date. -/
structure Moment where
  elapsed : Time
  date : Instant
  deriving DecidableEq, Repr

/-- Bytes for a client, and whether its connection ends behind them. -/
structure Dispatch where
  connection : ConnectionId
  bytes : List UInt8
  final : Bool
  deriving DecidableEq, Repr

/-- The bytes that answer a request, and whether the client goes on as a connection. -/
structure Opening where
  bytes : List UInt8
  connected : Bool
  deriving DecidableEq, Repr

/-- A server in real time. -/
structure Service where
  ready : Startup.Ready
  server : Server

namespace Service

/-- A service that nobody has used yet. -/
def start (ready : Startup.Ready) (m : Moment) : Service :=
  ⟨ready, ready.server m.date.seconds m.date⟩

/-- The service at a moment: timers, the store's clock and the expiry of tokens go by it.
Time never goes back. -/
def atMoment (m : Moment) (s : Service) : Service :=
  { s with
    server :=
      { s.server with
        setup := ⟨s.ready.settings, s.ready.site m.date.seconds⟩
        world := { s.server.world with clock := m.date }
        now := max m.elapsed s.server.now } }

/-! ## What happens -/

/-- Bytes came from a client. -/
def received (id : ConnectionId) (bs : List UInt8) : Server → Server := Server.receive id bs

/-- What was dispatched to a client was sent. -/
def sent (id : ConnectionId) : Server → Server :=
  Server.onSocket id (WebSocket.Socket.setLink .clear)

/-- What was dispatched to a client cannot be sent. -/
def unsendable (id : ConnectionId) : Server → Server :=
  Server.onSocket id (WebSocket.Socket.setLink .broken)

/-- A client is gone. -/
def gone (id : ConnectionId) : Server → Server := Server.onSocket id WebSocket.Socket.cut

/-! ## Turns -/

/-- The bytes of frames, one after the other. -/
def bytesOf (fs : List WebSocket.Outgoing) : List UInt8 := fs.flatMap WebSocket.Outgoing.encode

/-- Takes the frames that left for every client, and holds the links they left over. -/
def handOver (s : Server) : List Dispatch × Server :=
  let busy := s.sessions.filter fun t => !t.socket.sent.isEmpty
  let hold := fun (t : Session) =>
    if t.socket.sent.isEmpty then t
    else { t with socket := t.socket.collect.2.setLink .stalled }
  (busy.map fun t => ⟨t.handle.id, bytesOf t.socket.sent, false⟩,
    { s with sessions := s.sessions.map hold })

/-- The last bytes for a client whose session is over. -/
def lastDispatch (d : Departure) : Dispatch := ⟨d.connection, bytesOf d.unsent, true⟩

/-- Something happens at a moment, and everything moves. -/
def turn (m : Moment) (happening : Server → Server) (s : Service) : List Dispatch × Service :=
  let s := s.atMoment m
  let (ended, server) := (happening s.server).settle.depart
  let (dispatches, server) := handOver server
  (ended.map lastDispatch ++ dispatches, { s with server := server })

/-- Answers a request, which may open a connection with a new identifier; `rest` are the
bytes that came behind the request. Nothing leaves for a new connection until the answer
itself was sent. -/
def request (m : Moment) (id : ConnectionId) (req : Http.Request) (rest : List UInt8)
    (s : Service) : Opening × Service :=
  let s := s.atMoment m
  let (reply, server) := s.server.connect id req
  match reply with
  | .response r => (⟨r.last.encode, false⟩, { s with server := server })
  | .upgrade _ _ =>
    let headers := server.setup.site.cors.headers (req.header? "origin")
    let hold := fun k => (WebSocket.Socket.receive rest k).setLink .stalled
    (⟨(WebSocket.Handshake.response req headers).encode, true⟩,
      { s with server := server.onSocket id hold })

end Service

end RoomHub
