import RoomHub.Log.Filter
import RoomHub.Server
import RoomHub.Settings.Arguments

/-!
# From the command line to a running server

`Startup.prepare` does what has to be done before the server can listen: it reads the
arguments, checks the settings, loads the seed and checks the secret, in this order, and
stops at the first fault. What it says to the log and how it ends are values, so that a
real run and a described one share every decision.
-/

namespace RoomHub

/-- What a run finds around it: the variables of the environment and the files. A file
that cannot be read has a reason. -/
structure Surroundings where
  env : String → Option String
  fileText : String → Except String String

/-- A signal that ends a run. -/
inductive StopSignal where
  | interrupt
  | terminate
  deriving DecidableEq, Repr

namespace Startup

open Log

/-- The name of the program. -/
def programName : String := "parlor-server"

/-- The parts of the program that say something to the log. -/
inductive Part where
  | program
  | store
  | origins
  | listener
  | signals
  deriving DecidableEq, Repr

/-- The target of a part's log entries. All begin with the program's own. -/
def Part.target (p : Part) : String :=
  let place := match p with
    | program => []
    | store => ["infrastructure", "repository", "inmemory", "room"]
    | origins => ["ui", "cors"]
    | listener => ["ui", "server"]
    | signals => ["ui", "signal"]
  "::".intercalate (Filter.targetName programName :: place)

/-- The filter of a run: the one the environment asks for, if it is valid, else one level
for everything. -/
def logFilter (env : String → Option String) (level : String) : Filter :=
  match (env "RUST_LOG").bind Filter.parse? with
  | some f => f
  | none => .lenient (Filter.defaultText programName programName level)

/-- An entry as a line: when it was made, its level, its target and its text. -/
def logLine (date : Instant) (e : Entry) : String :=
  let level := e.level.toText
  let indent := String.ofList (List.replicate (5 - level.length) ' ')
  s!"{Calendar.rfc3339 date} {indent}{level} {e.target}: {e.toText}"

/-! ## Entries -/

/-- What is said about the rooms of a seed. -/
def seedEntries (rooms : List Seed.Room) : List Entry :=
  (rooms.map fun r =>
    ⟨.debug, Part.store.target, "Loading seeded room",
      [("room_id", r.id.toText), ("name", r.name)]⟩) ++
  [⟨.info, Part.store.target, "Seeded in-memory room store",
    [("rooms", toString (Store.ofSeed rooms).rooms.size)]⟩]

/-- What is said about the settings. -/
def settingsEntry (s : HubSettings) : Entry :=
  ⟨.info, Part.program.target, "Hub configured",
    [("idle_timeout", s.idleTimeout.toText), ("ping_interval", s.pingInterval.toText),
     ("outbound_capacity", toString s.capacity), ("history_limit", toString s.historyLimit)]⟩

/-- What is said about the origins that are left out. -/
def originEntries (origins : List String) : List Entry :=
  (Http.Cors.warnings origins).map fun o =>
    .plain .warn Part.origins.target (Http.Cors.warning o)

/-- What is said once the server listens: the address it has, and the one asked for. -/
def listeningEntries (bound asked : String) : List Entry :=
  [s!"Parlor hub listening on {bound}",
   "Connect to: ws://" ++ asked ++ "/ws/rooms/\x7broom_id\x7d?token=...",
   "Press Ctrl+C to shutdown gracefully"].map (.plain .info Part.listener.target)

/-- What is said when a signal ends the run. -/
def stoppingEntries (signal : StopSignal) : List Entry :=
  [.plain .info Part.signals.target (match signal with
    | .interrupt => "Received Ctrl+C, shutting down"
    | .terminate => "Received SIGTERM, shutting down"),
   .plain .info Part.listener.target "Server shutdown complete"]

/-- What is said when the program ends with a fault. -/
def faultEntry (text : String) : Entry := .plain .error Part.program.target text

/-- What is said when the server cannot listen. -/
def bindFailure (reason : String) : Entry := faultEntry s!"Server error: {reason}"

/-- An address as a host and a port. -/
def address (host : String) (port : Nat) : String := s!"{host}:{port}"

/-! ## Preparing -/

/-- A server that is ready to listen. -/
structure Ready where
  arguments : Arguments
  settings : HubSettings
  secret : Secret
  rooms : List Seed.Room

/-- The exit code of a run that was ended by a fault in the arguments, or by the wish for
help. -/
def argumentsCode : ArgumentsError → Nat
  | .displayHelp => 0
  | _ => 2

/-- The exit code of a run that breaks off because a length of time has no bounds. -/
def overflowCode : Nat := 101

/-- The exit code of a run that any other fault ends. -/
def faultCode : Nat := 1

/-- What came of preparing: entries for the log, and a server or an exit code. -/
structure Preparation where
  filter : Filter
  entries : List Entry
  result : Except Nat Ready

/-- The rooms of the seed file, if there is one. -/
def loadSeed (fileText : String → Except String String) (path : Option String) :
    Except Seed.Failure (List Seed.Room) :=
  match path with
  | none => .ok []
  | some p =>
    match fileText p with
    | .error reason => .error (.unreadable p reason)
    | .ok text => Seed.parse text

/-- Prepares a server for arguments that could be read. -/
def prepareWith (around : Surroundings) (a : Arguments) : List Entry × Except Nat Ready :=
  match a.hubSettings with
  | .error .idleTooLong => ([], .error overflowCode)
  | .error e => ([faultEntry s!"Invalid configuration: {e.message}"], .error faultCode)
  | .ok settings =>
    match loadSeed around.fileText a.seed with
    | .error e => ([faultEntry s!"Failed to load seed data: {e.message}"], .error faultCode)
    | .ok rooms =>
      let missing := if a.seed.isNone then
        [Entry.plain .warn Part.program.target
          "No seed file given, starting with an empty room store"] else []
      let said := missing ++ seedEntries rooms
      match Secret.ofText a.secret with
      | .error e =>
        (said ++ [faultEntry s!"Invalid JWT secret: {e.message}"], .error faultCode)
      | .ok secret => (said ++ [settingsEntry settings], .ok ⟨a, settings, secret, rooms⟩)

/-- Prepares a server for the arguments of a command line. -/
def prepare (around : Surroundings) (args : List String) : Preparation :=
  match Arguments.parse args around.env with
  | .error e => ⟨[], [], .error (argumentsCode e)⟩
  | .ok a =>
    let (entries, result) := prepareWith around a
    ⟨logFilter around.env a.logLevel, entries, result⟩

/-- What requests are answered with at the present second. -/
def Ready.site (r : Ready) (present : Int) : Http.Site :=
  { verify := Token.verify Crypto.Hmac.sha256 r.secret present
    cors := .ofOrigins r.arguments.origins }

/-- The server that preparations lead to, with the present second and the clock's
moment. -/
def Ready.server (r : Ready) (present : Int) (clock : Instant) : Server :=
  .start ⟨r.settings, r.site present⟩ (.ofStore (.ofSeed r.rooms) clock)

end Startup

end RoomHub
