import RoomHub.Proofs.Scene.Moves
import RoomHub.Server

/-!
# Guests

A `Guest` is whoever sends a request. The request is answered; if it asks for a socket and
is granted one, the guest's connection joins the room, a session reads and writes, and when
the reading has ended the connection leaves. `Phase` says how far a guest has come, with
the program that the server is in the middle of. The programs and the session are those of
the server; here they advance by single operations, so that any number of guests and the
owner of the rooms may take their turns in any order.

There are two tasks for a guest. One goes through the phases; the other is the writing side of the
session, which only touches the socket and the queue. An `Act` is one step of either, or
something that the client does.

> `change_act`: what an act can do to a guest and to the world, case by case.
-/

namespace RoomHub

/-! ## Phases -/

/-- How far a guest has come. -/
inductive Phase where
  /-- The request is being answered. -/
  | asking (rest : Program Http.Reply)
  /-- It got a response, and that was all. -/
  | answered (response : Http.Response)
  /-- A socket was granted, but there was no outbox to be had for it. -/
  | unopened
  /-- The connection joins the room. -/
  | joining (handle : Handle) (rest : Program Bool)
  /-- The connection was not let in. -/
  | refused (handle : Handle)
  /-- The reading side waits, or has ended and waits for what comes after. -/
  | live (session : Session)
  /-- The reading side acts upon what came from the client. -/
  | acting (session : Session) (rest : Program (Except Ending ReadSide))
  /-- The reading side has ended, and the connection leaves the room. -/
  | leaving (session : Session) (rest : Program Bool)
  /-- Both sides have ended. -/
  | ended (session : Session) (departure : Departure)
  /-- The outbox is gone as well. -/
  | swept (session : Session) (departure : Departure)

namespace Phase

/-- The next operation of the program that a phase is in, and the phase after each of its
answers. -/
def next? : Phase → Option ((op : Operation) × (op.Answer → Phase))
  | asking (.step op next) => some ⟨op, fun a => asking (next a)⟩
  | joining k (.step op next) => some ⟨op, fun a => joining k (next a)⟩
  | acting s (.step op next) => some ⟨op, fun a => acting s (next a)⟩
  | leaving s (.step op next) => some ⟨op, fun a => leaving s (next a)⟩
  | _ => none

/-- The session that is going on. -/
def session? : Phase → Option Session
  | live s => some s
  | acting s _ => some s
  | leaving s _ => some s
  | _ => none

/-- The phase with the session changed. -/
def onSession (f : Session → Session) : Phase → Phase
  | live s => live (f s)
  | acting s rest => acting (f s) rest
  | leaving s rest => leaving (f s) rest
  | other => other

/-- The handle of the connection, once there is one. -/
def handle? : Phase → Option Handle
  | asking _ | answered _ | unopened => none
  | joining k _ | refused k => some k
  | live s | acting s _ | leaving s _ | ended s _ | swept s _ => some s.handle

end Phase

/-! ## Guests and acts -/

/-- A request and what has become of it: the identifier that its connection gets, what its
main task has done so far, oldest first, and the stages that its connection was to advance
to, with the answers. -/
structure Guest where
  id : ConnectionId
  site : Http.Site
  upgradable : Bool
  request : Http.Request
  turns : List Turn
  stages : List (Bool × Stage)
  phase : Phase

/-- Something that may happen to a guest. -/
inductive Act where
  /-- The main task takes the next operation of its program. -/
  | step
  /-- The main task has come to the end of a program and goes on to the next. -/
  | proceed
  /-- Something came from the client, and the reading side takes it. -/
  | arrive (arrival : Arrival)
  /-- The reading side notices the close signal. -/
  | notice
  /-- The reading side looks at its deadline. -/
  | idle
  /-- The writing side takes a step. -/
  | write
  /-- The writing side has ended and trips the close signal. -/
  | trip
  /-- Something happens to the socket. -/
  | link (socket : WebSocket.Socket)
  /-- The outbox is taken away after the session. -/
  | sweep

namespace Guest

/-- A guest whose request has only just come. -/
def fresh (id : ConnectionId) (site : Http.Site) (upgradable : Bool) (request : Http.Request) :
    Guest :=
  ⟨id, site, upgradable, request, [], [], .asking (Http.answer site upgradable request)⟩

variable (cfg : HubSettings) (now : Time)

/-- The guest after an operation was answered. -/
def took (g : Guest) (op : Operation) (next : op.Answer → Phase) (answer : op.Answer) : Guest :=
  { g with turns := g.turns ++ [⟨op, answer⟩], phase := next answer }

/-- Takes the next operation of the program, if there is one. -/
def step (g : Guest) (w : World) : Guest × World :=
  match g.phase.next? with
  | some ⟨op, next⟩ => (g.took op next (w.perform op).1, (w.perform op).2)
  | none => (g, w)

/-- The guest whose connection has an outbox and begins to join. -/
def opened (g : Guest) (k : Handle) : Guest :=
  { g with phase := .joining k (Membership.join cfg.historyLimit k) }

/-- The guest whose connection has joined. -/
def joined (g : Guest) (k : Handle) : Guest :=
  { g with
    phase := .live (Session.begin cfg now k)
    stages := g.stages ++ [Stage.connecting.advance .active] }

/-- The guest whose connection was not let in. -/
def refused (g : Guest) (k : Handle) : Guest :=
  let drained := Stage.connecting.advance .draining
  { g with phase := .refused k, stages := g.stages ++ [drained, drained.2.advance .closed] }

/-- The guest whose reading side has ended, and which begins to leave. -/
def draining (g : Guest) (s : Session) : Guest :=
  let drained := s.stage.advance .draining
  { g with
    phase := .leaving { s with stage := drained.2 } (Membership.leave s.handle.id)
    stages := g.stages ++ [drained] }

/-- The guest whose session is over. -/
def finished (g : Guest) (s : Session) (d : Departure) : Guest :=
  { g with phase := .ended s d, stages := g.stages ++ [s.stage.advance .closed] }

/-- What the next operation sends, with the answers. -/
def stepSends (g : Guest) (w : World) : List Sending :=
  match g.phase.next? with
  | some ⟨op, _⟩ => op.sends w.hub
  | none => []

/-- Goes on to the next phase, when the program of this one has come to its end. The close signal
is tripped at the end of the leaving; until then the writing side waits (see `Session.offer`). -/
def proceed (g : Guest) (w : World) : Guest × World :=
  match g.phase with
  | .asking (.done (.response r)) => ({ g with phase := .answered r }, w)
  | .asking (.done (.upgrade room who)) =>
    match Outbox.create? cfg.capacity with
    | none => ({ g with phase := .unopened }, w)
    | some o =>
      (g.opened cfg ⟨g.id, room, who⟩, { w with hub := w.hub.addOutbox g.id o })
  | .joining k (.done true) => (g.joined cfg now k, w)
  | .joining k (.done false) => (g.refused k, w)
  | .acting s (.done reading) => ({ g with phase := .live { s with reading := reading } }, w)
  | .leaving s (.done _) => ({ g with phase := .live { s with left := true } }, s.cancel w)
  | .live s =>
    match s.reading, s.left with
    | .error _, false => (g.draining s, w)
    | _, _ =>
      match s.over? with
      | some d => (g.finished s d, w)
      | none => (g, w)
  | _ => (g, w)

/-- Lets the reading side take what came from the client, if it waits. -/
def arrive (arrival : Arrival) (g : Guest) : Guest :=
  match g.phase with
  | .live s =>
    match s.reading with
    | .ok side =>
      { g with phase := .acting s (side.take s.handle cfg.idleTimeout now arrival) }
    | .error _ => g
  | _ => g

/-- Changes what the reading side is at, if it waits. -/
def onReading (f : Session → ReadSide → Except Ending ReadSide) (g : Guest) : Guest :=
  match g.phase with
  | .live s =>
    match s.reading with
    | .ok side => { g with phase := .live { s with reading := f s side } }
    | .error _ => g
  | _ => g

/-- Ends the reading side if the close signal is tripped. -/
def notice (g : Guest) (w : World) : Guest :=
  g.onReading fun s side => if s.isCancelled w then .error .cancelled else .ok side

/-- Ends the reading side if its deadline has passed. -/
def idle (g : Guest) : Guest := g.onReading fun _ side => side.wait now

/-- Changes the session, if one is going on. -/
def onSession (f : Session → Session) (g : Guest) : Guest :=
  { g with phase := g.phase.onSession f }

/-- Lets the writing side take a step. -/
def write (g : Guest) (w : World) : Guest × World :=
  match g.phase.session? with
  | some s =>
    let (_, s', w') := s.writeStep cfg now w
    (g.onSession fun _ => s', w')
  | none => (g, w)

/-- Lets the writing side trip the close signal, once it has ended. -/
def trip (g : Guest) (w : World) : World :=
  match g.phase.session? with
  | some s => s.afterWriting w
  | none => w

/-- Takes the outbox away after the session. -/
def sweep (g : Guest) (w : World) : Guest × World :=
  match g.phase with
  | .ended s d =>
    ({ g with phase := .swept s d }, { w with hub := w.hub.removeOutbox d.connection })
  | _ => (g, w)

/-- The guest and the world after an act. -/
def act : Act → Guest → World → Guest × World
  | .step, g, w => g.step w
  | .proceed, g, w => g.proceed cfg now w
  | .arrive arrival, g, w => (g.arrive cfg now arrival, w)
  | .notice, g, w => (g.notice w, w)
  | .idle, g, w => (g.idle now, w)
  | .write, g, w => g.write cfg now w
  | .trip, g, w => (g, g.trip w)
  | .link socket, g, w => (g.onSession fun s => { s with socket := socket }, w)
  | .sweep, g, w => g.sweep w

/-- What an act sends, with the answers: only the main task's operations send. -/
def sends : Act → Guest → World → List Sending
  | .step, g, w => g.stepSends w
  | _, _, _ => []

end Guest

/-! ## What an act can do -/

variable {cfg : HubSettings} {now : Time}

/-- A step of the writing side changes the socket and the side itself, and takes at most
one event from the queue. -/
theorem Session.writeStep_cases (cfg : HubSettings) (now : Time) (s : Session) (w : World) :
    ∃ b socket writing w', s.writeStep cfg now w
        = (b, { s with socket := socket, writing := writing }, w') ∧
      (w' = w ∨ w' = s.takeEvent w) := by
  unfold Session.writeStep
  split
  next => exact ⟨_, _, _, _, rfl, Or.inl rfl⟩
  next => exact ⟨_, _, _, _, rfl, Or.inl rfl⟩
  next => exact ⟨_, _, _, _, rfl, Or.inl rfl⟩
  next =>
    split
    next => exact ⟨_, _, _, _, rfl, Or.inl rfl⟩
    next => exact ⟨_, _, _, _, rfl, Or.inr rfl⟩
    next => exact ⟨_, _, _, _, rfl, Or.inl rfl⟩
    next => exact ⟨_, _, _, _, rfl, Or.inl rfl⟩

/-- After a step of the writing side the signal is tripped, or nothing happens. -/
theorem Session.afterWriting_cases (s : Session) (w : World) :
    s.afterWriting w = w ∨ s.afterWriting w = s.cancel w := by
  unfold Session.afterWriting
  split
  next => exact Or.inr rfl
  next => exact Or.inl rfl

/-- While a session is going on, the handle is the session's. -/
theorem Phase.handle?_of_session? {p : Phase} {s : Session} (h : p.session? = some s) :
    p.handle? = some s.handle := by
  cases p with
  | live | acting | leaving =>
    cases h
    rfl
  | asking | answered | unopened | joining | refused | ended | swept => cases h

theorem Phase.session?_onSession {p : Phase} {s : Session} (f : Session → Session)
    (h : p.session? = some s) : (p.onSession f).session? = some (f s) := by
  cases p with
  | live | acting | leaving =>
    cases h
    rfl
  | asking | answered | unopened | joining | refused | ended | swept => cases h

/-- A phase with a next operation is one of the four that are in the middle of a program. -/
theorem Phase.next?_cases {p : Phase} {op : Operation} {next : op.Answer → Phase}
    (h : p.next? = some ⟨op, next⟩) :
    (∃ f, p = .asking (.step op f) ∧ next = fun a => .asking (f a)) ∨
    (∃ k f, p = .joining k (.step op f) ∧ next = fun a => .joining k (f a)) ∨
    (∃ s f, p = .acting s (.step op f) ∧ next = fun a => .acting s (f a)) ∨
    (∃ s f, p = .leaving s (.step op f) ∧ next = fun a => .leaving s (f a)) := by
  unfold Phase.next? at h
  split at h
  next op' f =>
    cases h
    exact Or.inl ⟨f, rfl, rfl⟩
  next k op' f =>
    cases h
    exact Or.inr (Or.inl ⟨k, f, rfl, rfl⟩)
  next s op' f =>
    cases h
    exact Or.inr (Or.inr (Or.inl ⟨s, f, rfl, rfl⟩))
  next s op' f =>
    cases h
    exact Or.inr (Or.inr (Or.inr ⟨s, f, rfl, rfl⟩))
  next => cases h

namespace Guest

variable {g : Guest} {w : World} {s : Session} {op : Operation} {next : op.Answer → Phase}

/-- What an act can do to a guest and to the world, and what it sends. -/
inductive Change (cfg : HubSettings) (now : Time) (g : Guest) (w : World) :
    Guest → World → List Sending → Prop where
  | still : Change cfg now g w g w []
  | took {op : Operation} {next : op.Answer → Phase} (h : g.phase.next? = some ⟨op, next⟩) :
      Change cfg now g w (g.took op next (w.perform op).1) (w.perform op).2 (op.sends w.hub)
  | answered {r : Http.Response} (h : g.phase = .asking (.done (.response r))) :
      Change cfg now g w { g with phase := .answered r } w []
  | unopened {room : RoomId} {who : Participant}
      (h : g.phase = .asking (.done (.upgrade room who))) :
      Change cfg now g w { g with phase := .unopened } w []
  | opened {room : RoomId} {who : Participant} {o : Outbox}
      (h : g.phase = .asking (.done (.upgrade room who)))
      (ho : Outbox.create? cfg.capacity = some o) :
      Change cfg now g w (g.opened cfg ⟨g.id, room, who⟩)
        { w with hub := w.hub.addOutbox g.id o } []
  | joined {k : Handle} (h : g.phase = .joining k (.done true)) :
      Change cfg now g w (g.joined cfg now k) w []
  | refused {k : Handle} (h : g.phase = .joining k (.done false)) :
      Change cfg now g w (g.refused k) w []
  | heard {s : Session} {side : ReadSide} (h : g.phase = .live s) (hside : s.reading = .ok side)
      (reading : Except Ending ReadSide) :
      Change cfg now g w { g with phase := .live { s with reading := reading } } w []
  | arrived {s : Session} {side : ReadSide} (h : g.phase = .live s) (hside : s.reading = .ok side)
      (arrival : Arrival) :
      Change cfg now g w
        { g with phase := .acting s (side.take s.handle cfg.idleTimeout now arrival) } w []
  | acted {s : Session} {reading : Except Ending ReadSide}
      (h : g.phase = .acting s (.done reading)) :
      Change cfg now g w { g with phase := .live { s with reading := reading } } w []
  | drained {s : Session} {e : Ending} (h : g.phase = .live s) (hended : s.reading = .error e)
      (hthere : s.left = false) : Change cfg now g w (g.draining s) w []
  | left {s : Session} {b : Bool} (h : g.phase = .leaving s (.done b)) :
      Change cfg now g w { g with phase := .live { s with left := true } } (s.cancel w) []
  | finished {s : Session} {d : Departure} (h : g.phase = .live s) (hover : s.over? = some d) :
      Change cfg now g w (g.finished s d) w []
  | wrote {s : Session} (h : g.phase.session? = some s) (socket : WebSocket.Socket)
      (writing : WriteSide) {w' : World} (hw : w' = w ∨ w' = s.takeEvent w) :
      Change cfg now g w
        (g.onSession fun _ => { s with socket := socket, writing := writing }) w' []
  | tripped {s : Session} (h : g.phase.session? = some s) : Change cfg now g w g (s.cancel w) []
  | swept {s : Session} {d : Departure} (h : g.phase = .ended s d) :
      Change cfg now g w { g with phase := .swept s d }
        { w with hub := w.hub.removeOutbox d.connection } []

/-- Going on to the next phase is one of the changes of a guest. -/
theorem change_proceed (g : Guest) (w : World) :
    Change cfg now g w (g.proceed cfg now w).1 (g.proceed cfg now w).2 [] := by
  unfold proceed
  split
  next h => exact .answered h
  next h =>
    split
    next => exact .unopened h
    next ho => exact .opened h ho
  next h => exact .joined h
  next h => exact .refused h
  next h => exact .acted h
  next h => exact .left h
  next h =>
    split
    next hended hthere => exact .drained h hended hthere
    next =>
      split
      next hover => exact .finished h hover
      next => exact .still
  next => exact .still

theorem change_onReading (f : Session → ReadSide → Except Ending ReadSide) (g : Guest)
    (w : World) : Change cfg now g w (g.onReading f) w [] := by
  unfold onReading
  split
  next h =>
    split
    next hside => exact .heard h hside _
    next => exact .still
  next => exact .still

theorem change_arrive (arrival : Arrival) (g : Guest) (w : World) :
    Change cfg now g w (g.arrive cfg now arrival) w [] := by
  unfold arrive
  split
  next h =>
    split
    next hside => exact .arrived h hside arrival
    next => exact .still
  next => exact .still

/-- What happens to a session happens to the one that is going on, if there is one. -/
theorem onSession_eq (f : Session → Session) (h : g.phase.session? = some s) :
    g.onSession f = g.onSession fun _ => f s := by
  obtain ⟨id, site, upgradable, request, turns, stages, phase⟩ := g
  cases phase with
  | live | acting | leaving =>
    cases h
    rfl
  | asking | answered | unopened | joining | refused | ended | swept => rfl

theorem onSession_of_eq_none (f : Session → Session) (h : g.phase.session? = none) :
    g.onSession f = g := by
  obtain ⟨id, site, upgradable, request, turns, stages, phase⟩ := g
  cases phase with
  | live | acting | leaving => cases h
  | asking | answered | unopened | joining | refused | ended | swept => rfl

theorem change_write (g : Guest) (w : World) :
    Change cfg now g w (g.write cfg now w).1 (g.write cfg now w).2 [] := by
  unfold write
  cases hs : g.phase.session? with
  | none => exact .still
  | some s =>
    obtain ⟨b, socket, writing, w', heq, hw⟩ := Session.writeStep_cases cfg now s w
    simp only [heq]
    exact .wrote hs socket writing hw

theorem change_trip (g : Guest) (w : World) : Change cfg now g w g (g.trip w) [] := by
  unfold trip
  cases hs : g.phase.session? with
  | none => exact .still
  | some s =>
    show Change cfg now g w g (s.afterWriting w) []
    rcases s.afterWriting_cases w with heq | heq
    · rw [heq]; exact .still
    · rw [heq]; exact .tripped hs

/-- Every act of a guest is one of its changes. -/
theorem change_act (a : Act) (g : Guest) (w : World) :
    Change cfg now g w (g.act cfg now a w).1 (g.act cfg now a w).2 (sends a g w) := by
  cases a with
  | step =>
    show Change cfg now g w (g.step w).1 (g.step w).2 (g.stepSends w)
    unfold step stepSends
    split
    next h => exact .took h
    next => exact .still
  | proceed => exact change_proceed g w
  | arrive arrival => exact change_arrive arrival g w
  | notice => exact change_onReading _ g w
  | idle => exact change_onReading _ g w
  | write => exact change_write g w
  | trip => exact change_trip g w
  | link socket =>
    cases hs : g.phase.session? with
    | none =>
      show Change cfg now g w (g.onSession _) w []
      rw [onSession_of_eq_none _ hs]
      exact .still
    | some s =>
      show Change cfg now g w (g.onSession _) w []
      rw [onSession_eq _ hs]
      exact .wrote hs socket s.writing (Or.inl rfl)
  | sweep =>
    show Change cfg now g w (g.sweep w).1 (g.sweep w).2 []
    unfold sweep
    split
    next h => exact .swept h
    next => exact .still

end Guest

end RoomHub
