import RoomHub.Startup

/-!
# Runs in described surroundings

A `Rehearsal` is a whole run of the server against a network that is only described: what
listening on an address leads to, whether a client can reach the server, which paths
clients ask for, and which signal ends the run.
-/

namespace RoomHub

/-- A network: the address that listening on a host leads to, and why clients cannot
reach the server, if they cannot. -/
structure Network where
  listen : (host : String) → Except String String
  unreachable : Option String

/-- What clients do while a server listens, and the signal that ends it. -/
structure Visit where
  paths : List String
  signal : StopSignal

namespace Rehearsal

open Log

/-- How a run ends that clients could or could not visit. -/
inductive Outcome where
  | refused (reason : String)
  | unreachable (reason : String)
  | ended (statuses : List Nat) (entries : List Entry)
  deriving Repr

/-- The status of the answer to a request for a path. -/
def statusOf (server : Server) (path : String) : Nat :=
  match (server.respond ⟨"GET", path, []⟩).1 with
  | .response r => r.status
  | .upgrade _ _ => 101

/-- Lets a server listen on a host until the signal comes. -/
def serve (net : Network) (visit : Visit) (host : String) (server : Server) : Outcome :=
  match net.listen host with
  | .error reason => .refused reason
  | .ok bound =>
    match net.unreachable, visit.paths with
    | some reason, _ :: _ => .unreachable reason
    | _, paths =>
      .ended (paths.map (statusOf server))
        (Startup.listeningEntries bound (Startup.address host 0) ++
          Startup.stoppingEntries visit.signal)

/-- How a run of the program ends: its exit code and what the log shows, or the reason
why it could not be visited. -/
inductive Run where
  | unreachable (reason : String)
  | exited (code : Nat) (shown : List Entry)
  deriving Repr

/-- Runs the program. -/
def run (net : Network) (visit : Visit) (around : Surroundings) (args : List String)
    (present : Int) (clock : Instant) : Run :=
  let p := Startup.prepare around args
  let shown := fun es => p.filter.apply (p.entries ++ es)
  match p.result with
  | .error code => .exited code (shown [])
  | .ok ready =>
    let warnings := Startup.originEntries ready.arguments.origins
    match serve net visit ready.arguments.host (ready.server present clock) with
    | .refused reason =>
      .exited Startup.faultCode (shown (warnings ++ [Startup.bindFailure reason]))
    | .unreachable reason => .unreachable reason
    | .ended _ entries => .exited 0 (shown (warnings ++ entries))

end Rehearsal

end RoomHub
