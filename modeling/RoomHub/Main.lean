import RoomHub.Service
import Std.Async

/-!
# The program

What the library decides is carried out here: the arguments, the environment and the seed
file are read, the log is printed, connections are accepted, bytes are received and sent,
and the signals that end the program are awaited.
-/

namespace RoomHub.Main

open Std.Async Std.Net

/-- A client's end of the network. -/
abbrev Client := TCP.Socket.Client

/-- The service and the clients that are connected to it. -/
structure Running where
  service : Service
  clients : List (ConnectionId × Client)

/-- What the parts of the running program share. -/
structure Host where
  started : Nat
  running : Std.Mutex Running

/-! ## Surroundings -/

/-- The variables of the environment that count. -/
def environment : IO (String → Option String) := do
  let names := "RUST_LOG" :: Arguments.options.map (·.envName)
  let values ← names.mapM fun name => return (name, ← IO.getEnv name)
  return fun name => (values.find? (·.1 = name)).bind (·.2)

/-- The reason why a file cannot be read or an address cannot be listened on. -/
def reason : IO.Error → String
  | .noFileOrDirectory .. => "No such file or directory (os error 2)"
  | .permissionDenied .. => "Permission denied (os error 13)"
  | .inappropriateType .. => "Is a directory (os error 21)"
  | .resourceBusy .. => "Address already in use (os error 98)"
  | .unsupportedOperation .. => "Cannot assign requested address (os error 99)"
  | e => toString e

/-- The text of a file, or the reason why it cannot be read. -/
def fileText (path : String) : IO (Except String String) := do
  match ← (IO.FS.readBinFile path).toBaseIO with
  | .error e => return .error (reason e)
  | .ok bytes =>
    match String.fromUTF8? bytes with
    | some text => return .ok text
    | none => return .error "stream did not contain valid UTF-8"

/-- What the program finds around it. The one file that counts is the seed. -/
def surroundings (args : List String) : IO Surroundings := do
  let env ← environment
  let seed := (Arguments.parse args env).toOption.bind (·.seed)
  let text ← fileText (seed.getD "")
  return ⟨env, fun _ => text⟩

/-! ## Clocks and the log -/

/-- The date. -/
def date : IO Instant := do
  return ⟨(← Std.Time.Timestamp.now).toNanosecondsSinceUnixEpoch.val⟩

/-- What the clocks show. -/
def Host.moment (h : Host) : IO Moment := do
  return ⟨(← IO.monoNanosNow) - h.started, ← date⟩

/-- Prints the log entries that a filter shows. -/
def log (filter : Log.Filter) (es : List Log.Entry) : IO Unit := do
  for e in filter.apply es do
    IO.println (Startup.logLine (← date) e)
  (← IO.getStdout).flush

/-! ## Clients -/

/-- Goes on with the result of something that takes time, without waiting for it here. -/
def whenDone {α : Type} (work : Async α) (next : Except IO.Error α → IO Unit) : IO Unit := do
  let _ ← IO.mapTask next (← work.toIO)

/-- Changes what runs, and gives an answer. -/
def Host.change {α : Type} (h : Host) (f : Running → α × Running) : IO α :=
  h.running.atomically (modifyGet f)

/-- The dispatches with the clients they are for. Clients whose connection ends are
forgotten. -/
def Running.route (ds : List Dispatch) (r : Running) : List (Dispatch × Client) × Running :=
  let routed := ds.filterMap fun d =>
    (r.clients.find? (·.1 = d.connection)).map fun c => (d, c.2)
  (routed,
    { r with clients := r.clients.filter fun c =>
        !ds.any fun d => d.final && d.connection = c.1 })

/-- Something happens, and what follows from it is sent. -/
partial def Host.turn (h : Host) (happening : Server → Server) : IO Unit := do
  let m ← h.moment
  let routed ← h.change fun r =>
    let (ds, service) := r.service.turn m happening
    Running.route ds { r with service := service }
  for (d, client) in routed do
    whenDone (client.send ⟨d.bytes.toArray⟩) fun
      | .error _ => h.turn (Service.unsendable d.connection)
      | .ok () =>
        if d.final then whenDone client.shutdown fun _ => pure ()
        else h.turn (Service.sent d.connection)

/-- Goes on with the next bytes from a client, or with nothing when it is gone. -/
def receive (client : Client) (next : Option (List UInt8) → IO Unit) : IO Unit :=
  whenDone (client.recv? 65536) fun
    | .ok bytes => next (bytes.map (·.toList))
    | .error _ => next none

/-- Hands on the bytes of a connection until the client is gone. -/
partial def Host.follow (h : Host) (id : ConnectionId) (client : Client) : IO Unit :=
  receive client fun
    | some bytes => do
      h.turn (Service.received id bytes)
      h.follow id client
    | none => h.turn (Service.gone id)

/-- Gives a client its only answer. -/
def conclude (client : Client) (bytes : List UInt8) : IO Unit :=
  whenDone (client.send ⟨bytes.toArray⟩) fun _ =>
    whenDone client.shutdown fun _ => pure ()

/-- Answers the request of a client, and goes on with it when it is connected then. -/
def Host.answer (h : Host) (client : Client) (req : Http.Request) (rest : List UInt8) :
    IO Unit := do
  let id : ConnectionId := ⟨Uuid.ofRandom (← IO.rand 0 ((1 <<< 128) - 1))⟩
  let m ← h.moment
  let opening ← h.change fun r =>
    let (opening, service) := r.service.request m id req rest
    let clients := if opening.connected then (id, client) :: r.clients else r.clients
    (opening, ⟨service, clients⟩)
  if opening.connected then
    whenDone (client.send ⟨opening.bytes.toArray⟩) fun _ => h.turn (Service.sent id)
    h.follow id client
  else conclude client opening.bytes

/-- Serves a client from whom some bytes came. -/
partial def Host.serve (h : Host) (client : Client) (bytes : List UInt8) : IO Unit := do
  match Http.Head.read bytes with
  | .request req rest => h.answer client req rest
  | .tooLong => conclude client (Http.Response.empty 431).last.encode
  | .malformed => conclude client (Http.Response.empty 400).last.encode
  | .incomplete =>
    receive client fun
      | some more => h.serve client (bytes ++ more)
      | none => pure ()

/-! ## Running -/

/-- Accepts clients, each of which is served on its own. -/
partial def Host.accept (h : Host) (socket : TCP.Socket.Server) : IO Unit :=
  whenDone socket.accept fun accepted => do
    if let .ok client := accepted then h.serve client []
    h.accept socket

/-- Lets timers fire. -/
partial def Host.tick (h : Host) : IO Unit :=
  whenDone (sleep 10) fun _ => do
    h.turn id
    h.tick

/-- The address of a host and a port. -/
def addressOf (host : String) (port : UInt16) : IO SocketAddress := do
  let bare := (host.dropWhile (· = '[')).toString.takeWhile (· ≠ ']') |>.toString
  let found : List IPAddr ← match IPv4Addr.ofString host, IPv6Addr.ofString bare with
    | some a, _ => pure [.v4 a]
    | none, some a => pure [.v6 a]
    | none, none => Array.toList <$> (DNS.getAddrInfo host (toString port)).block
  match found with
  | .v4 a :: _ => return .v4 ⟨a, port⟩
  | .v6 a :: _ => return .v6 ⟨a, port⟩
  | [] => throw (IO.userError "failed to lookup address information")

/-- A socket that listens on a host and a port. -/
def listen (host : String) (port : UInt16) : IO TCP.Socket.Server := do
  let socket ← TCP.Socket.Server.mk
  socket.bind (← addressOf host port)
  socket.listen 1024
  return socket

/-- Waits for a signal that ends the program. -/
def awaitStop : IO StopSignal := do
  let interrupted ← (← Signal.Waiter.mk .sigint false).wait
  let terminated ← (← Signal.Waiter.mk .sigterm false).wait
  IO.waitAny
    [Task.map (fun _ => StopSignal.interrupt) interrupted,
      Task.map (fun _ => StopSignal.terminate) terminated]

/-- Serves until a signal comes. -/
def serve (filter : Log.Filter) (ready : Startup.Ready) : IO UInt32 := do
  let a := ready.arguments
  log filter (Startup.originEntries a.origins)
  match ← (listen a.host (UInt16.ofNat a.port)).toBaseIO with
  | .error e =>
    log filter [Startup.bindFailure (reason e)]
    return UInt32.ofNat Startup.faultCode
  | .ok socket =>
    log filter
      (Startup.listeningEntries (toString (← socket.getSockName)) (Startup.address a.host a.port))
    let started ← IO.monoNanosNow
    let running ← Std.Mutex.new ⟨Service.start ready ⟨0, ← date⟩, []⟩
    let h : Host := ⟨started, running⟩
    h.accept socket
    h.tick
    log filter (Startup.stoppingEntries (← awaitStop))
    return 0

/-- Prints what is wrong with the arguments, or the help text. -/
def explain (e : ArgumentsError) : IO Unit :=
  match e with
  | .displayHelp => IO.println (Arguments.help Startup.programName)
  | e => IO.eprintln s!"error: {e.message}\n\nFor more information, try '--help'."

/-- Runs the program. -/
def run (args : List String) : IO UInt32 := do
  let around ← surroundings args
  if let .error e := Arguments.parse args around.env then explain e
  let p := Startup.prepare around args
  log p.filter p.entries
  match p.result with
  | .error code => return UInt32.ofNat code
  | .ok ready => serve p.filter ready

end RoomHub.Main

/-- Runs the program with the arguments of the command line. -/
def main (args : List String) : IO UInt32 := RoomHub.Main.run args
