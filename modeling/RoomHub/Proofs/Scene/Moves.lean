import RoomHub.Proofs.Hub.Step
import RoomHub.Proofs.Programs
import RoomHub.Proofs.Store

/-!
# Tasks that run side by side

A `Scene` is a world on which any number of tasks run. Each task carries out one of the use
cases, one operation at a time, and between two operations of a task anything else may
happen: other tasks advance or start, receivers take events or close, close signals are
tripped, the store gets new rooms and members, fails or recovers, time passes. A `Move` is
one such happening.

A connection keeps its room and its user for life, so the calls name connections only and
`Clients` says who is behind them.

> `change_apply`: what a move can do to a scene, in five cases;
> `run_induction`: what every such change preserves holds after every run;
> `path_run`: what a task has done is a path through the program of its call.
-/

namespace RoomHub

/-! ## Calls and tasks -/

/-- The room that a connection is for, and its user. -/
structure Client where
  room : RoomId
  participant : Participant

/-- Who is behind each connection. -/
abbrev Clients := ConnectionId → Client

/-- The handle of a connection. -/
def Clients.handle (k : Clients) (c : ConnectionId) : Handle := ⟨c, (k c).room, (k c).participant⟩

/-- A use case with its arguments. -/
inductive Call where
  | join (limit : Nat) (connection : ConnectionId)
  | leave (connection : ConnectionId)
  | joinCall (connection : ConnectionId)
  | leaveCall (connection : ConnectionId)
  | send (room : RoomId) (user : UserId) (content : String)
  | post (room : RoomId) (user : UserId) (draft : Draft)
  | announce (message : Message)
  | authorize (who : Participant) (room : RoomId)
  | presence (room : RoomId)
  | callPresence (room : RoomId)

namespace Call

/-- What a use case results in. -/
@[reducible] def Answer : Call → Type
  | join .. | leave .. | joinCall .. | leaveCall .. => Bool
  | send .. | post .. => Except PostError Message
  | announce .. => Report
  | authorize .. => Except AccessError Unit
  | presence .. => Except StoreError Presence
  | callPresence .. => List Participant

/-- The program of a use case. -/
def program (k : Clients) : (call : Call) → Program call.Answer
  | join limit c => Membership.join limit (k.handle c)
  | leave c => Membership.leave c
  | joinCall c => Membership.joinCall c (k c).room
  | leaveCall c => Membership.leaveCall c (k c).room
  | send r u content => Posting.send r u content
  | post r u d => Posting.post r u d
  | announce m => Posting.announce m
  | authorize who r => Access.authorize who r
  | presence r => Presence.ofRoom r
  | callPresence r => Presence.ofCall r

end Call

/-- A running use case: what it has done, oldest first, and what is left of it. -/
structure Task where
  call : Call
  turns : List Turn
  rest : Program call.Answer

/-- The task that has not done anything yet. -/
def Task.fresh (k : Clients) (call : Call) : Task := ⟨call, [], call.program k⟩

/-- The task after its next operation. -/
def Task.took (t : Task) (op : Operation) (next : op.Answer → Program t.call.Answer)
    (answer : op.Answer) : Task :=
  { t with turns := t.turns ++ [⟨op, answer⟩], rest := next answer }

/-! ## Scenes and moves -/

/-- A world, everything that was sent so far, and the tasks. -/
structure Scene where
  world : World
  log : List Sending
  tasks : List Task

/-- The step of the hub that an operation is, if it may change the hub. -/
def Operation.step? : Operation → Option Hub.Step
  | .attach h => some (.attach h)
  | .detach c => some (.detach c)
  | .setInCall c on => some (.setInCall c on)
  | .broadcast r e => some (.broadcast r e)
  | .broadcastPresence r s => some (.broadcastPresence r s)
  | .pushTo c e => some (.pushTo c e)
  | .pushCallParticipants c => some (.pushCallParticipants c)
  | .roomExists .. | .isMember .. | .listMembers .. | .persist .. | .recentMessages ..
  | .participants .. | .callParticipants .. => none

/-- The hub after an operation. -/
def Operation.hubAfter (op : Operation) (h : Hub) : Hub :=
  match op.step? with
  | some a => Hub.act a h
  | none => h

/-- What an operation sends, with the answers. -/
def Operation.sends (op : Operation) (h : Hub) : List Sending :=
  match op.step? with
  | some a => Hub.sends a h
  | none => []

/-- Storing a message fails and does nothing, or it is the store that does it. -/
theorem World.perform_persist (w : World) (r : RoomId) (u : UserId) (d : Draft) :
    (∃ e, w.perform (.persist r u d) = (.error e, w)) ∨
    w.perform (.persist r u d)
      = ((w.store.persist w.clock r u d).1,
          { w with store := (w.store.persist w.clock r u d).2 }) := by
  cases hout : w.outage .persist with
  | some reason =>
    left
    refine ⟨.unavailable reason, ?_⟩
    simp only [World.perform, hout]
  | none =>
    right
    simp only [World.perform, hout]

/-- An operation does to the hub what its step does. -/
theorem World.hub_perform (op : Operation) (w : World) :
    (w.perform op).2.hub = op.hubAfter w.hub := by
  cases op with
  | persist r u d =>
    rcases w.perform_persist r u d with ⟨e, heq⟩ | heq
    · rw [heq]
      rfl
    · rw [heq]
      rfl
  | _ => rfl

/-! ## What an operation does to the store -/

/-- Operations only ever add messages. -/
theorem World.prefix_messages_perform (op : Operation) (w : World) (r : RoomId) :
    w.store.messages r <+: (w.perform op).2.store.messages r := by
  cases op with
  | persist r' u d =>
    rcases w.perform_persist r' u d with ⟨e, heq⟩ | heq
    · rewrite [heq]
      exact List.prefix_refl _
    · rw [heq]
      exact Store.prefix_messages_persist
  | _ => exact List.prefix_refl _

/-- No operation spoils the numbering of the messages. -/
theorem World.numbered_perform {op : Operation} {w : World} (hs : w.store.Numbered) :
    (w.perform op).2.store.Numbered := by
  cases op with
  | persist r u d =>
    rcases w.perform_persist r u d with ⟨e, heq⟩ | heq
    · rw [heq]
      exact hs
    · rw [heq]
      exact Store.numbered_persist hs
  | _ => exact hs

/-- Operations only ever add to the store. -/
theorem World.grows_perform (op : Operation) (w : World) :
    w.store.Grows (w.perform op).2.store := by
  cases op with
  | persist r u d =>
    rcases w.perform_persist r u d with ⟨e, heq⟩ | heq
    · rw [heq]
      exact Store.Grows.refl _
    · rw [heq]
      exact Store.grows_persist
  | _ => exact Store.Grows.refl _

/-- A message that was stored is in the store, in its room. -/
theorem World.mem_messages_of_persist {w : World} {r : RoomId} {u : UserId} {d : Draft}
    {m : Message} (h : (w.perform (.persist r u d)).1 = .ok m) :
    m ∈ (w.perform (.persist r u d)).2.store.messages r ∧ m.room = r := by
  rcases w.perform_persist r u d with ⟨e, heq⟩ | heq
  · rw [heq] at h
    cases h
  · rw [heq] at h ⊢
    exact Store.mem_messages_of_persist h

/-- A reading that succeeds returns the end of what is stored. -/
theorem World.recentMessages_eq_ok {w : World} {r : RoomId} {limit : Nat} {ms : List Message}
    (h : (w.perform (.recentMessages r limit)).1 = .ok ms) :
    ms = Store.lastOf limit (w.store.messages r) := by
  replace h : w.ask .recentMessages (w.store.recentMessages r limit) = .ok ms := h
  unfold World.ask at h
  split at h
  next => cases h
  next => exact Store.recentMessages_eq_ok h

/-- Something that may happen. -/
inductive Move where
  | start (call : Call)
  | advance (task : Nat)
  | receive (connection : ConnectionId) (count : Nat)
  | closeReceiver (connection : ConnectionId)
  | dropReceiver (connection : ConnectionId)
  | cancel (connection : ConnectionId)
  | createRoom (room : RoomId)
  | addMember (room : RoomId) (user : UserId) (name : String)
  | setOutage (outage : Outage)
  | setClock (clock : Instant)

namespace Scene

/-- A scene in which nothing has happened yet: nobody is connected, the outboxes that
connections will use are there, and the store holds what a seed says. -/
def opening (outboxes : Std.ExtTreeMap ConnectionId Outbox) (seed : List Seed.Room)
    (clock : Instant) (outage : Outage) : Scene :=
  ⟨⟨Hub.idle outboxes, Store.ofSeed seed, clock, outage⟩, [], []⟩

/-- The scene after a task took its next operation. -/
def advanced (s : Scene) (i : Nat) (t : Task) (op : Operation)
    (next : op.Answer → Program t.call.Answer) : Scene :=
  { world := (s.world.perform op).2
    log := s.log ++ op.sends s.world.hub
    tasks := s.tasks.set i (t.took op next (s.world.perform op).1) }

/-- The scene after a step that no task takes. -/
def onHub (s : Scene) (a : Hub.Step) : Scene :=
  { s with world := { s.world with hub := Hub.act a s.world.hub } }

/-- The scene after something happened to the store. -/
def onStore (s : Scene) (store : Store) : Scene :=
  { s with world := { s.world with store := store } }

/-- The scene after a task was given its turn. A task that has ended, or does not exist,
does nothing. -/
def advance (s : Scene) (i : Nat) : Scene :=
  match s.tasks[i]? with
  | none => s
  | some t =>
    match t.rest with
    | .done _ => s
    | .step op next => s.advanced i t op next

/-- The scene after a move. -/
def apply (k : Clients) (s : Scene) : Move → Scene
  | .start call => { s with tasks := s.tasks ++ [.fresh k call] }
  | .advance i => s.advance i
  | .receive c n => s.onHub (.receive c n)
  | .closeReceiver c => s.onHub (.closeReceiver c)
  | .dropReceiver c => s.onHub (.dropReceiver c)
  | .cancel c => s.onHub (.cancel c)
  | .createRoom r => s.onStore (s.world.store.createRoom r).2
  | .addMember r u name => s.onStore (s.world.store.addMember r u name).2
  | .setOutage o => { s with world := { s.world with outage := o } }
  | .setClock t => { s with world := { s.world with clock := t } }

/-- The scene after a run. -/
def run (k : Clients) (s : Scene) (moves : List Move) : Scene := moves.foldl (apply k) s

/-! ## What a move can do -/

variable {k : Clients} {s s' : Scene}

/-- What a move can do to a scene: a task starts or advances, a receiver or a close signal
is used, or the world changes around the hub without touching a message. -/
inductive Change (k : Clients) (s : Scene) : Scene → Prop where
  | start (call : Call) : Change k s { s with tasks := s.tasks ++ [.fresh k call] }
  | advance {i : Nat} {t : Task} {op : Operation} {next : op.Answer → Program t.call.Answer}
      (ht : s.tasks[i]? = some t) (hrest : t.rest = .step op next) :
      Change k s (s.advanced i t op next)
  | outside (a : Hub.Step) (ha : a.isOutside = true) : Change k s (s.onHub a)
  | around (w : World) (hhub : w.hub = s.world.hub)
      (hmessages : ∀ r, w.store.messages r = s.world.store.messages r)
      (hlast : w.store.lastMessageId = s.world.store.lastMessageId) :
      Change k s { s with world := w }

theorem change_apply (s : Scene) (move : Move) : Change k s (s.apply k move) := by
  cases move with
  | start call => exact .start call
  | advance i =>
    show Change k s (s.advance i)
    unfold advance
    split
    next => exact .around s.world rfl (fun _ => rfl) rfl
    next t ht =>
      -- a task that has ended leaves the scene as it is
      split
      next => exact .around s.world rfl (fun _ => rfl) rfl
      next op next hrest => exact .advance ht hrest
  | receive c n => exact .outside (.receive c n) rfl
  | closeReceiver c => exact .outside (.closeReceiver c) rfl
  | dropReceiver c => exact .outside (.dropReceiver c) rfl
  | cancel c => exact .outside (.cancel c) rfl
  | createRoom r =>
    exact .around _ rfl (fun _ => Store.messages_createRoom) Store.lastMessageId_createRoom
  | addMember r u name =>
    exact .around _ rfl (fun _ => Store.messages_addMember) Store.lastMessageId_addMember
  | setOutage o => exact .around _ rfl (fun _ => rfl) rfl
  | setClock t => exact .around _ rfl (fun _ => rfl) rfl

/-- What every change preserves holds after every run. -/
theorem run_induction {P : Scene → Prop} (hstart : P s)
    (hchange : ∀ s s', P s → Change k s s' → P s') (moves : List Move) : P (s.run k moves) := by
  induction moves generalizing s with
  | nil => exact hstart
  | cons move moves ih => exact ih (hchange s _ hstart (change_apply s move))

/-! ## The tasks after a change -/

section Advancing

variable {i : Nat} {t u : Task} {op : Operation} {next : op.Answer → Program t.call.Answer}

theorem mem_tasks_advanced (h : u ∈ (s.advanced i t op next).tasks) :
    u ∈ s.tasks ∨ u = t.took op next (s.world.perform op).1 :=
  List.mem_or_eq_of_mem_set h

/-- The task that advanced is there with one turn more. -/
theorem took_mem_advanced (ht : s.tasks[i]? = some t) :
    t.took op next (s.world.perform op).1 ∈ (s.advanced i t op next).tasks := by
  obtain ⟨hi, -⟩ := List.getElem?_eq_some_iff.mp ht
  exact List.mem_set hi _

/-- The other tasks are there as before. -/
theorem mem_advanced_or_eq (ht : s.tasks[i]? = some t) (hu : u ∈ s.tasks) :
    u ∈ (s.advanced i t op next).tasks ∨ u = t := by
  obtain ⟨j, hj⟩ := List.mem_iff_getElem?.mp hu
  by_cases hij : i = j
  · subst hij
    rw [ht] at hj
    exact Or.inr (Option.some.inj hj).symm
  · left
    refine List.mem_iff_getElem?.mpr ⟨j, ?_⟩
    show (s.tasks.set i _)[j]? = some u
    rw [List.getElem?_set_ne hij]
    exact hj

end Advancing

/-- What a task has done is a path through its program. -/
def OnPath (k : Clients) (s : Scene) : Prop :=
  ∀ t ∈ s.tasks, (t.call.program k).Path t.turns t.rest

/-- What the tasks have done stays a path through their programs. -/
theorem onPath_change (hp : OnPath k s) (hc : Change k s s') : OnPath k s' := by
  intro u hu
  cases hc with
  | start call =>
    rcases List.mem_append.mp hu with hu | hu
    · exact hp u hu
    · rw [List.mem_singleton.mp hu]
      exact .nil
  | advance ht hrest =>
    rcases mem_tasks_advanced hu with hu | rfl
    · exact hp u hu
    · exact (hp _ (List.mem_of_getElem? ht)).snoc hrest _
  | outside a ha => exact hp u hu
  | around w => exact hp u hu

/-- Along any run, what each task has done is a path through its program. -/
theorem path_run (hs : OnPath k s) (moves : List Move) : OnPath k (s.run k moves) :=
  run_induction hs (fun _ _ => onPath_change) moves

end Scene

end RoomHub
