import RoomHub.Server

/-!
# A server with its clients, in virtual time

A `Simulation` is a server together with clients that live in memory. Nothing happens but
what a caller does: requests, frames, faults of the link, and the passing of time. After
each of these everything moves until nothing can move any more. A client answers pings on
its own, if it is told to, and remembers what it received.
-/

namespace RoomHub

/-- Something that a client received: the answer to its request, a frame, or the end. -/
inductive Received where
  | status (status : Nat) (body : Option String)
  | frame (f : WebSocket.Outgoing)
  | eof
  deriving DecidableEq, Repr

/-- A client: its name, the connection it has, whether it answers pings, and what it
received since it was last asked. -/
structure Peer where
  label : String
  connection : Option ConnectionId
  autoPong : Bool
  received : List Received

/-- A server and its clients. -/
structure Simulation where
  server : Server
  peers : List Peer
  nextConnection : Nat
  departures : List Departure

namespace Simulation

/-- A server without clients. -/
def start (server : Server) : Simulation := ⟨server, [], 1, []⟩

/-- The client of a name. -/
def peer? (s : Simulation) (label : String) : Option Peer :=
  s.peers.find? (·.label = label)

/-- Changes the client of a name. -/
def onPeer (label : String) (f : Peer → Peer) (s : Simulation) : Simulation :=
  { s with peers := s.peers.map fun p => if p.label = label then f p else p }

/-! ## Moving -/

/-- The mask of every frame that a client sends. -/
def mask : List UInt8 := [0x12, 0x34, 0x56, 0x78]

/-- The bytes of a whole frame from a client. -/
def clientFrame (opcode : WebSocket.Opcode) (payload : List UInt8) : List UInt8 :=
  WebSocket.Frame.encodeMasked mask ⟨true, false, opcode, payload⟩

/-- The bytes with which a client answers the frames it received. -/
def pongs (fs : List WebSocket.Outgoing) : List UInt8 :=
  fs.flatMap fun
    | .ping => clientFrame .pong []
    | _ => []

/-- Hands a client what left for it: whether it has answered, and the client and the
server after that. -/
def deliverTo (p : Peer) (server : Server) : Bool × Peer × Server :=
  match p.connection with
  | none => (false, p, server)
  | some id =>
    let (fs, server) := server.collect id
    let p := { p with received := p.received ++ fs.map .frame }
    let answer := if p.autoPong then pongs fs else []
    if answer.isEmpty then (false, p, server) else (true, p, server.receive id answer)

/-- Hands every client what left for it. -/
def deliver : List Peer → Server → Bool × List Peer × Server
  | [], server => (false, [], server)
  | p :: ps, server =>
    let (answered, p, server) := deliverTo p server
    let (more, ps, server) := deliver ps server
    (answered || more, p :: ps, server)

/-- Ends the connection of a client whose session is over. -/
def endPeer (gone : List Departure) (p : Peer) : Peer :=
  match p.connection.bind fun id => gone.find? (·.connection = id) with
  | none => p
  | some d =>
    { p with connection := none, received := p.received ++ d.unsent.map .frame ++ [.eof] }

/-- Lets the server move and the clients answer, until no client answers any more. At one
time a client is pinged once at most, or twice when a ping was late, so little fuel is
needed. -/
def exchange : Nat → Simulation → Simulation
  | 0, s => s
  | fuel + 1, s =>
    let (answered, peers, server) := deliver s.peers s.server.settle
    let s := { s with peers := peers, server := server }
    if answered then exchange fuel s else s

/-- How often clients may answer at one time. -/
def exchanges : Nat := 16

/-- Lets everything move that can, and takes leave of the sessions that are over. -/
def settle (s : Simulation) : Simulation :=
  let s := exchange exchanges s
  let (gone, server) := s.server.depart
  { s with
    server := server
    peers := s.peers.map (endPeer gone)
    departures := s.departures ++ gone }

/-! ## Requests -/

/-- Sends a request that asks for a plain answer. -/
def request (req : Http.Request) (s : Simulation) : Http.Reply × Simulation :=
  let (reply, server) := s.server.respond req
  (reply, { s with server := server }.settle)

/-- The request with which a client asks for a socket. -/
def socketRequest (target : String) : Http.Request :=
  { method := "GET"
    target := target
    headers := [("connection", "Upgrade"), ("upgrade", "websocket"),
      ("sec-websocket-version", "13"), ("sec-websocket-key", "AAAAAAAAAAAAAAAAAAAAAA==")].map
        fun h => (h.1, Text.Utf8.bytes h.2) }

/-- A client of the given name asks for a socket; a client that had the name is
forgotten. -/
def connect (label target : String) (autoPong : Bool) (s : Simulation) : Simulation :=
  let id : ConnectionId := ⟨.ofNat s.nextConnection⟩
  let (reply, server) := s.server.connect id (socketRequest target)
  let peer : Peer := match reply with
    | .response r => ⟨label, none, autoPong, [.status r.status (some r.body)]⟩
    | .upgrade _ _ => ⟨label, some id, autoPong, [.status 101 none]⟩
  settle
    { s with
      server := server
      peers := s.peers.filter (·.label ≠ label) ++ [peer]
      nextConnection := s.nextConnection + 1 }

/-! ## Clients -/

/-- Does something to the socket of a client, if it has one. -/
def onSocket (label : String) (f : WebSocket.Socket → WebSocket.Socket) (s : Simulation) :
    Simulation :=
  match (s.peer? label).bind (·.connection) with
  | none => s
  | some id => settle { s with server := s.server.onSocket id f }

/-- A client sends bytes. -/
def send (label : String) (bs : List UInt8) : Simulation → Simulation :=
  onSocket label (WebSocket.Socket.receive bs)

/-- The bytes of one text message in several frames. -/
def fragments : (first : Bool) → List String → List UInt8
  | _, [] => []
  | first, part :: rest =>
    WebSocket.Frame.encodeMasked mask
      ⟨rest.isEmpty, false, if first then .text else .continuation, Text.Utf8.bytes part⟩ ++
      fragments false rest

/-- The payload of a close frame with a code. -/
def closePayload : Option Nat → List UInt8
  | none => []
  | some code => WebSocket.bytesOfNat 2 code

/-- A client is cut off without a close frame. It receives nothing any more. -/
def cut (label : String) (s : Simulation) : Simulation :=
  match (s.peer? label).bind (·.connection) with
  | none => s
  | some id =>
    let s := s.onPeer label fun p => { p with connection := none }
    settle { s with server := s.server.onSocket id WebSocket.Socket.cut }

/-! ## Time -/

/-- Moves on from timer to timer up to a time. -/
def advanceWithin (limit : Time) : Nat → Simulation → Simulation
  | 0, s => { s with server := s.server.atTime limit }.settle
  | fuel + 1, s =>
    match s.server.nextTimer? with
    | none => { s with server := s.server.atTime limit }.settle
    | some t =>
      if limit < t then { s with server := s.server.atTime limit }.settle
      else advanceWithin limit fuel { s with server := s.server.atTime (max t s.server.now) }.settle

/-- Lets a number of milliseconds pass. A timer is moved on or removed when it fires, and
fires at a whole millisecond, so this number bounds how often timers fire. -/
def advance (ms : Nat) (s : Simulation) : Simulation :=
  advanceWithin (s.server.now + ms * nanosPerMilli) (4 * (ms + 1) * (s.peers.length + 1)) s

/-! ## Asking -/

/-- What every client received since this was last asked. -/
def collect (s : Simulation) : List (String × List Received) × Simulation :=
  ((s.peers.filter (!·.received.isEmpty)).map fun p => (p.label, p.received),
    { s with peers := s.peers.map fun p => { p with received := [] } })

/-- The sessions that were over since this was last asked, by user. -/
def takeDepartures (s : Simulation) : List Departure × Simulation :=
  (s.departures.mergeSort fun a b => a.user.toText ≤ b.user.toText,
    { s with departures := [] })

end Simulation

end RoomHub
