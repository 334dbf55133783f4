import RoomHub.Proofs.Hub.Snapshots
import RoomHub.Proofs.Scene.Moves

/-!
# From the history to the broadcasts without a gap

A connection that joins is attached before its room's messages are read, and a message is
stored before it is broadcast. So a message either was stored when the messages were read,
or it is broadcast to a room that the connection is in already. `Covered` is this
alternative as an invariant, with the messages that the reading saw as its witness; it does
not matter how the operations of the tasks fall between one another.

> `handover_loses_nothing`: of the messages that were sent to the room, each was broadcast
> to the connection, or was in its history, or is older than a history of full length.
-/

namespace RoomHub

/-- The connection that a turn detached, if it found it. -/
def Turn.detached : Turn → Option ConnectionId
  | ⟨.detach c, gone⟩ => gone.map fun _ => c
  | _ => none

namespace Scene

variable {k : Clients} {s s' : Scene} {x y : Turn} {c : ConnectionId} {r : RoomId}
  {h : Handle} {m : Message}

/-! ## What has been done -/

/-- Some task has taken a turn. -/
def Did (s : Scene) (x : Turn) : Prop := ∃ t ∈ s.tasks, x ∈ t.turns

/-- Some task has taken two turns, one before the other. -/
def DidThen (s : Scene) (x y : Turn) : Prop := ∃ t ∈ s.tasks, [x, y].Sublist t.turns

theorem DidThen.fst (hxy : s.DidThen x y) : s.Did x := by
  obtain ⟨t, ht, hsub⟩ := hxy
  exact ⟨t, ht, hsub.subset List.mem_cons_self⟩

/-- Of two turns in order, both were taken before the last turn, or the later one is the last. -/
theorem pair_sublist_concat {x y z : Turn} {turns : List Turn}
    (h : [x, y].Sublist (turns ++ [z])) : [x, y].Sublist turns ∨ (x ∈ turns ∧ y = z) := by
  obtain ⟨early, late, heq, hearly, hlate⟩ := List.sublist_append_iff.mp h
  -- how much of the pair lies in the new turn: nothing, its second half, or too much
  rcases late with _ | ⟨last, _ | ⟨_, _⟩⟩
  · rw [List.append_nil] at heq
    exact Or.inl (heq ▸ hearly)
  · replace heq : [x] ++ [y] = early ++ [last] := heq
    obtain ⟨hfirst, hlast⟩ := List.append_inj' heq rfl
    subst hfirst
    cases hlast
    have hz := hlate.subset List.mem_cons_self
    exact Or.inr ⟨hearly.subset List.mem_cons_self, List.mem_singleton.mp hz⟩
  · have hlong := hlate.length_le
    simp at hlong

section Advancing

variable {i : Nat} {t : Task} {op : Operation} {next : op.Answer → Program t.call.Answer}

/-- What has been done after a task's turn was done before, or is that turn. -/
theorem Did.of_advanced (ht : s.tasks[i]? = some t) (hx : (s.advanced i t op next).Did x) :
    s.Did x ∨ x = ⟨op, (s.world.perform op).1⟩ := by
  obtain ⟨u, hu, hmem⟩ := hx
  rcases mem_tasks_advanced hu with hold | rfl
  · exact Or.inl ⟨u, hold, hmem⟩
  · rcases List.mem_append.mp hmem with hmem | hmem
    · exact Or.inl ⟨t, List.mem_of_getElem? ht, hmem⟩
    · exact Or.inr (List.mem_singleton.mp hmem)

/-- Two turns in order after a task's turn were there before, or the later one is that turn. -/
theorem DidThen.of_advanced (ht : s.tasks[i]? = some t)
    (hxy : (s.advanced i t op next).DidThen x y) :
    s.DidThen x y ∨ (s.Did x ∧ y = ⟨op, (s.world.perform op).1⟩) := by
  obtain ⟨u, hu, hsub⟩ := hxy
  rcases mem_tasks_advanced hu with hold | rfl
  · exact Or.inl ⟨u, hold, hsub⟩
  · rcases pair_sublist_concat hsub with hsub | ⟨hx, hy⟩
    · exact Or.inl ⟨t, List.mem_of_getElem? ht, hsub⟩
    · exact Or.inr ⟨⟨t, List.mem_of_getElem? ht, hx⟩, hy⟩

theorem did_advanced (ht : s.tasks[i]? = some t) :
    (s.advanced i t op next).Did ⟨op, (s.world.perform op).1⟩ :=
  ⟨_, took_mem_advanced ht, List.mem_append_right _ List.mem_cons_self⟩

/-- What has been done stays done. -/
theorem Did.advanced (ht : s.tasks[i]? = some t) (hx : s.Did x) :
    (s.advanced i t op next).Did x := by
  obtain ⟨u, hu, hmem⟩ := hx
  rcases mem_advanced_or_eq ht hu with hstays | rfl
  · exact ⟨u, hstays, hmem⟩
  · exact ⟨_, took_mem_advanced ht, List.mem_append_left _ hmem⟩

end Advancing

/-- No task has detached a connection. -/
def Stayed (s : Scene) (c : ConnectionId) : Prop := ∀ gone : Member, ¬s.Did ⟨.detach c, some gone⟩

/-- A connection has stayed when no turn of any task detached it. -/
theorem stayed_iff :
    s.Stayed c ↔ ∀ t ∈ s.tasks, ∀ x ∈ t.turns, x.detached ≠ some c := by
  constructor
  · intro hstay t ht turn hx hdetached
    obtain ⟨op, answer⟩ := turn
    cases op with
    | detach d =>
      obtain ⟨gone, hgone, rfl⟩ := Option.map_eq_some_iff.mp hdetached
      replace hgone : answer = some gone := hgone
      subst hgone
      exact hstay gone ⟨t, ht, hx⟩
    | _ => cases hdetached
  · intro hnone gone hdid
    obtain ⟨t, ht, hx⟩ := hdid
    exact hnone t ht _ hx rfl

instance : Decidable (s.Stayed c) := decidable_of_iff _ stayed_iff.symm

/-! ## The invariant -/

/-- The messages that a reading saw: what it returned is the end of them, and a message
posted since was broadcast to the connection, if that is open. -/
def Covered (s : Scene) (h : Handle) (limit : Nat) (ms : List Message) : Prop :=
  ∃ seen, seen <+: s.world.store.messages h.room ∧ ms = Store.lastOf limit seen ∧
    ∀ {r u d m report},
      s.DidThen ⟨.persist r u d, .ok m⟩ ⟨.broadcast m.room (.chat m), report⟩ →
      m.room = h.room →
      m ∈ seen ∨ (s.world.hub.IsOpen h.id → Event.chat m ∈ Sending.stream h.id s.log)

/-- What holds of every scene: stored messages are in the store, who attached and stayed is
registered, what such a connection read is covered, and what was pushed to it was queued
if it is open. -/
structure Seamless (s : Scene) : Prop where
  numbered : s.world.store.Numbered
  mirrored : s.world.hub.registry.Mirrored
  stored : ∀ {r u d m}, s.Did ⟨.persist r u d, .ok m⟩ →
    m ∈ s.world.store.messages r ∧ m.room = r
  registered : ∀ {h}, s.Did ⟨.attach h, true⟩ → s.Stayed h.id → s.world.hub.IsIn h.id h.room
  covered : ∀ {h limit ms},
    s.DidThen ⟨.attach h, true⟩ ⟨.recentMessages h.room limit, .ok ms⟩ → s.Stayed h.id →
    s.Covered h limit ms
  pushed : ∀ {h e answer}, s.DidThen ⟨.attach h, true⟩ ⟨.pushTo h.id e, answer⟩ →
    s.Stayed h.id → s.world.hub.IsOpen h.id → e ∈ Sending.stream h.id s.log

theorem seamless_opening (outboxes : Std.ExtTreeMap ConnectionId Outbox)
    (seed : List Seed.Room) (clock : Instant) (outage : Outage) :
    Seamless (opening outboxes seed clock outage) := by
  have hnothing : ∀ x, ¬(opening outboxes seed clock outage).Did x := by
    intro x hdid
    obtain ⟨t, ht, -⟩ := hdid
    cases ht
  refine ⟨Store.numbered_ofSeed seed, Registry.mirrored_empty, ?_, ?_, ?_, ?_⟩
  · exact fun hdid => absurd hdid (hnothing _)
  · exact fun hdid => absurd hdid (hnothing _)
  · exact fun hdid => absurd hdid.fst (hnothing _)
  · exact fun hdid => absurd hdid.fst (hnothing _)

/-! ## One operation of a task -/

/-- The turn that an operation adds is that of the operation with its answer. -/
theorem turn_eq {w : World} {op op' : Operation} {answer : op'.Answer}
    (heq : (⟨op', answer⟩ : Turn) = ⟨op, (w.perform op).1⟩) :
    op = op' ∧ (w.perform op').1 = answer := by
  cases heq
  exact ⟨rfl, rfl⟩

/-- No operation opens an outbox: one that is open afterwards was open before. -/
theorem isOpen_of_hubAfter {op : Operation} {hub : Hub} (hopen : (op.hubAfter hub).IsOpen c) :
    hub.IsOpen c := by
  unfold Operation.hubAfter at hopen
  split at hopen
  next => exact (Hub.stream_sends_of_isOpen hopen).2
  next => exact hopen

theorem mirrored_hubAfter {op : Operation} {hub : Hub} (hg : hub.registry.Mirrored) :
    (op.hubAfter hub).registry.Mirrored := by
  unfold Operation.hubAfter
  split
  next => exact Hub.mirrored_act hg
  next => exact hg

/-- Only a detach takes a connection out of its room. -/
theorem isIn_hubAfter {op : Operation} {hub : Hub} (hg : hub.registry.Mirrored)
    (hin : hub.IsIn c r) (hop : op ≠ .detach c) : (op.hubAfter hub).IsIn c r := by
  unfold Operation.hubAfter
  split
  next a ha =>
    obtain ⟨m, hm, hroom⟩ := hin
    have hne : a ≠ .detach c := by
      intro heq
      subst heq
      cases op <;> cases ha
      exact hop rfl
    obtain ⟨m', hm', hsame⟩ := Hub.exists_member?_act hg hm hne
    exact ⟨m', hm', hsame ▸ hroom⟩
  next => exact hin

section Advancing

variable {i : Nat} {t : Task} {op : Operation} {next : op.Answer → Program t.call.Answer}

theorem hub_advanced : (s.advanced i t op next).world.hub = op.hubAfter s.world.hub :=
  World.hub_perform op s.world

/-- Who has stayed up to a moment had stayed before it. -/
theorem Stayed.of_advanced (ht : s.tasks[i]? = some t)
    (hstay : (s.advanced i t op next).Stayed c) : s.Stayed c :=
  fun gone hdid => hstay gone (hdid.advanced ht)

/-- Who is registered stays so through an operation that leaves no detach behind. -/
theorem isIn_advanced (hs : s.Seamless) (ht : s.tasks[i]? = some t)
    (hin : s.world.hub.IsIn c r) (hstay : (s.advanced i t op next).Stayed c) :
    (s.advanced i t op next).world.hub.IsIn c r := by
  rw [hub_advanced]
  refine isIn_hubAfter hs.mirrored hin ?_
  intro heq
  subst heq
  -- the connection is registered, so the detach would have found it and left a turn
  obtain ⟨m, hm, -⟩ := hin
  rcases Hub.detach_cases hs.mirrored c with ⟨hnone, -⟩ | ⟨gone, -, heq⟩
  · rw [hm] at hnone
    cases hnone
  · have hanswer : (s.world.perform (.detach c)).1 = some gone := congrArg Prod.fst heq
    have hdid : (s.advanced i t (.detach c) next).Did ⟨.detach c, _⟩ := did_advanced ht
    rw [hanswer] at hdid
    exact hstay gone hdid

/-- What was queued for a connection stays so in the log. -/
theorem stream_mem_advanced {e : Event} (he : e ∈ Sending.stream c s.log) :
    e ∈ Sending.stream c (s.advanced i t op next).log := by
  show e ∈ Sending.stream c (s.log ++ op.sends s.world.hub)
  rw [Sending.stream_append]
  exact List.mem_append_left _ he

/-- A message that a turn stored stays in the store, in its room. -/
theorem stored_advanced (hs : s.Seamless) (ht : s.tasks[i]? = some t) {u : UserId} {d : Draft}
    (hdid : (s.advanced i t op next).Did ⟨.persist r u d, .ok m⟩) :
    m ∈ (s.advanced i t op next).world.store.messages r ∧ m.room = r := by
  rcases hdid.of_advanced ht with hold | hnew
  · obtain ⟨hmem, hroom⟩ := hs.stored hold
    exact ⟨(World.prefix_messages_perform op s.world r).subset hmem, hroom⟩
  · obtain ⟨rfl, hanswer⟩ := turn_eq hnew
    exact World.mem_messages_of_persist hanswer

/-- A connection that attached and stayed is registered in its room after another turn. -/
theorem registered_advanced (hs : s.Seamless) (ht : s.tasks[i]? = some t)
    (hdid : (s.advanced i t op next).Did ⟨.attach h, true⟩)
    (hstay : (s.advanced i t op next).Stayed h.id) :
    (s.advanced i t op next).world.hub.IsIn h.id h.room := by
  rcases hdid.of_advanced ht with hold | hnew
  · exact isIn_advanced hs ht (hs.registered hold (hstay.of_advanced ht)) hstay
  · obtain ⟨rfl, hanswer⟩ := turn_eq hnew
    rw [hub_advanced]
    show (s.world.hub.attach h).2.IsIn h.id h.room
    rcases Hub.attach_cases hs.mirrored h with ⟨-, heq⟩ | ⟨hfree, heq⟩
    · replace hanswer : (s.world.hub.attach h).1 = true := hanswer
      rw [heq] at hanswer
      cases hanswer
    · rw [heq]
      refine ⟨⟨h, false⟩, ?_, rfl⟩
      rw [Registry.attached_member? hs.mirrored hfree, if_pos rfl]

/-- A broadcast to the room of an open connection reaches it. -/
theorem mem_stream_of_broadcast {hub : Hub} {e : Event} (hg : hub.registry.Mirrored)
    (hin : hub.IsIn c r) (hopen : (Operation.hubAfter (.broadcast r e) hub).IsOpen c) :
    e ∈ Sending.stream c (Operation.sends (.broadcast r e) hub) := by
  have hmeant : Hub.meantFor c (Hub.dispatches (.broadcast r e) hub) = _ :=
    Hub.meantFor_roomIds hg hin [e]
  rw [if_pos rfl] at hmeant
  have hstream : Sending.stream c (Operation.sends (.broadcast r e) hub) = _ :=
    (Hub.stream_sends_of_isOpen hopen).1
  rw [hstream, hmeant]
  exact List.mem_cons_self

/-- A push to a registered open connection reaches it. -/
theorem mem_stream_of_pushTo {hub : Hub} {e : Event} (hin : hub.IsIn c r)
    (hopen : (Operation.hubAfter (.pushTo c e) hub).IsOpen c) :
    e ∈ Sending.stream c (Operation.sends (.pushTo c e) hub) := by
  obtain ⟨m, hm, -⟩ := hin
  have hreg : (hub.registry.connection? c).isSome = true := by
    unfold Registry.connection?
    rw [hm]
    rfl
  have hmeant : Hub.meantFor c (Hub.dispatches (.pushTo c e) hub) = [e] := by
    rw [Hub.dispatches_pushTo, if_pos hreg]
    simp [Hub.meantFor]
  have hstream : Sending.stream c (Operation.sends (.pushTo c e) hub) = _ :=
    (Hub.stream_sends_of_isOpen hopen).1
  rw [hstream, hmeant]
  exact List.mem_cons_self

/-- What was read before stays covered: a message posted by this operation is broadcast
while the connection is in the room. -/
theorem covered_of_covered {limit : Nat} {ms : List Message} (hs : s.Seamless)
    (ht : s.tasks[i]? = some t) (hin : s.world.hub.IsIn h.id h.room)
    (hcov : s.Covered h limit ms) : (s.advanced i t op next).Covered h limit ms := by
  obtain ⟨seen, hseen, hms, hposted⟩ := hcov
  refine ⟨seen, hseen.trans (World.prefix_messages_perform op s.world h.room), hms, ?_⟩
  intro m r u d report hthen hroom
  rcases hthen.of_advanced ht with hold | ⟨-, hnew⟩
  · rcases hposted hold hroom with hmem | hlive
    · exact Or.inl hmem
    · right
      intro hopen
      rw [hub_advanced] at hopen
      exact stream_mem_advanced (hlive (isOpen_of_hubAfter hopen))
  · -- the broadcast happens now, when the connection has long been attached
    right
    intro hopen
    obtain ⟨rfl, -⟩ := turn_eq hnew
    rw [hub_advanced, hroom] at hopen
    show _ ∈ Sending.stream h.id (s.log ++ Operation.sends _ s.world.hub)
    rw [Sending.stream_append, hroom]
    exact List.mem_append_right _ (mem_stream_of_broadcast hs.mirrored hin hopen)

/-- What is read now is covered: what was posted so far is stored so far. -/
theorem covered_of_read {limit : Nat} {ms : List Message} (hs : s.Seamless)
    (ht : s.tasks[i]? = some t)
    (hread : (⟨.recentMessages h.room limit, .ok ms⟩ : Turn) = ⟨op, (s.world.perform op).1⟩) :
    (s.advanced i t op next).Covered h limit ms := by
  obtain ⟨rfl, hanswer⟩ := turn_eq hread
  refine ⟨s.world.store.messages h.room, ?_, World.recentMessages_eq_ok hanswer, ?_⟩
  · exact World.prefix_messages_perform _ s.world h.room
  · intro m r u d report hthen hroom
    left
    -- a broadcast message was stored before it was broadcast, and the store forgets nothing
    rcases hthen.of_advanced ht with hold | ⟨-, hnew⟩
    · obtain ⟨hmem, hmr⟩ := hs.stored hold.fst
      rw [← hroom, hmr]
      exact hmem
    · cases (turn_eq hnew).1

/-- What was pushed to a connection after it attached was queued for it, if it stayed and its outbox
is open. -/
theorem pushed_advanced {e : Event} {answer : Except PushError Unit} (hs : s.Seamless)
    (ht : s.tasks[i]? = some t)
    (hthen : (s.advanced i t op next).DidThen ⟨.attach h, true⟩ ⟨.pushTo h.id e, answer⟩)
    (hstay : (s.advanced i t op next).Stayed h.id)
    (hopen : (s.advanced i t op next).world.hub.IsOpen h.id) :
    e ∈ Sending.stream h.id (s.advanced i t op next).log := by
  have hstayed := hstay.of_advanced ht
  rw [hub_advanced] at hopen
  rcases hthen.of_advanced ht with hold | ⟨hattached, hnew⟩
  · exact stream_mem_advanced (hs.pushed hold hstayed (isOpen_of_hubAfter hopen))
  · -- the outbox is open after the push, so the push did not find it full
    obtain ⟨rfl, -⟩ := turn_eq hnew
    show e ∈ Sending.stream h.id (s.log ++ Operation.sends _ s.world.hub)
    rw [Sending.stream_append]
    exact List.mem_append_right _ (mem_stream_of_pushTo (hs.registered hattached hstayed) hopen)

/-- No turn of a task leaves a gap. -/
theorem seamless_advance (hs : s.Seamless) (ht : s.tasks[i]? = some t) :
    (s.advanced i t op next).Seamless where
  numbered := World.numbered_perform hs.numbered
  mirrored := by
    rw [hub_advanced]
    exact mirrored_hubAfter hs.mirrored
  stored := stored_advanced hs ht
  registered := registered_advanced hs ht
  covered {h limit ms} hthen hstay := by
    have hstayed := hstay.of_advanced ht
    rcases hthen.of_advanced ht with hold | ⟨-, hnew⟩
    · exact covered_of_covered hs ht (hs.registered hold.fst hstayed) (hs.covered hold hstayed)
    · exact covered_of_read hs ht hnew
  pushed := pushed_advanced hs ht

end Advancing

/-! ## One move -/

/-- A change in which no task takes a turn, nothing is sent, nobody comes or goes, no
outbox opens and no message is touched. -/
theorem Seamless.still {w : World} {tasks : List Task} (hs : s.Seamless)
    (hdid : ∀ {x}, (⟨w, s.log, tasks⟩ : Scene).Did x ↔ s.Did x)
    (hthen : ∀ {x y}, (⟨w, s.log, tasks⟩ : Scene).DidThen x y ↔ s.DidThen x y)
    (hmessages : ∀ r, w.store.messages r = s.world.store.messages r)
    (hlast : w.store.lastMessageId = s.world.store.lastMessageId)
    (hreg : w.hub.registry = s.world.hub.registry)
    (hopen : ∀ {c}, w.hub.IsOpen c → s.world.hub.IsOpen c) :
    Seamless ⟨w, s.log, tasks⟩ := by
  have hstay : ∀ {c}, (⟨w, s.log, tasks⟩ : Scene).Stayed c → s.Stayed c :=
    fun hstay gone hgone => hstay gone (hdid.mpr hgone)
  refine ⟨hs.numbered.congr hmessages hlast, ?_, ?_, ?_, ?_, ?_⟩
  · show w.hub.registry.Mirrored
    rw [hreg]
    exact hs.mirrored
  · intro r u d m hstored
    show m ∈ w.store.messages r ∧ _
    rw [hmessages]
    exact hs.stored (hdid.mp hstored)
  · intro h hattached hstayed
    obtain ⟨m, hm, hroom⟩ := hs.registered (hdid.mp hattached) (hstay hstayed)
    exact ⟨m, (congrArg (·.member? h.id) hreg).trans hm, hroom⟩
  · intro h limit ms hread hstayed
    obtain ⟨seen, hseen, hms, hposted⟩ := hs.covered (hthen.mp hread) (hstay hstayed)
    refine ⟨seen, ?_, hms, fun hpost hroom => ?_⟩
    · show seen <+: w.store.messages h.room
      rw [hmessages]
      exact hseen
    · rcases hposted (hthen.mp hpost) hroom with hmem | hlive
      · exact Or.inl hmem
      · exact Or.inr fun hisOpen => hlive (hopen hisOpen)
  · intro h e answer hpush hstayed hisOpen
    exact hs.pushed (hthen.mp hpush) (hstay hstayed) (hopen hisOpen)

/-- A task that starts has done nothing yet. -/
theorem mem_tasks_started {call : Call} {t : Task} (hne : t.turns ≠ []) :
    t ∈ s.tasks ++ [.fresh k call] ↔ t ∈ s.tasks := by
  constructor
  · intro ht
    rcases List.mem_append.mp ht with hold | hnew
    · exact hold
    · rw [List.mem_singleton.mp hnew] at hne
      exact absurd rfl hne
  · exact fun ht => List.mem_append_left _ ht

/-- Whatever a move does, no gap arises. -/
theorem seamless_change (hs : s.Seamless) (hc : Change k s s') : s'.Seamless := by
  cases hc with
  | start call =>
    refine hs.still ?_ ?_ (fun _ => rfl) rfl rfl id
    · intro x
      refine exists_congr fun t => and_congr_left fun hx => ?_
      exact mem_tasks_started (List.ne_nil_of_mem hx)
    · intro x y
      refine exists_congr fun t => and_congr_left fun hxy => ?_
      exact mem_tasks_started (List.ne_nil_of_mem (hxy.subset List.mem_cons_self))
  | advance ht hrest => exact seamless_advance hs ht
  | outside a ha =>
    exact hs.still Iff.rfl Iff.rfl (fun _ => rfl) rfl
      (Hub.act_presence (Hub.Step.isMembership_of_isOutside ha) s.world.hub).1
      fun hopen => (Hub.stream_sends_of_isOpen hopen).2
  | around w hhub hmessages hlast =>
    refine hs.still Iff.rfl Iff.rfl hmessages hlast (by rw [hhub]) fun hopen => ?_
    rw [hhub] at hopen
    exact hopen

/-! ## Every run -/

/-- A join has come to its end, and it read these messages. -/
def Joined (s : Scene) (limit : Nat) (c : ConnectionId) (r : RoomId) (ms : List Message) : Prop :=
  ∃ turns, (⟨.join limit c, turns, .done true⟩ : Task) ∈ s.tasks ∧
    (⟨.recentMessages r limit, .ok ms⟩ : Turn) ∈ turns

/-- Sending a text to a room has come to its end, and the text became this message. -/
def Sent (s : Scene) (r : RoomId) (m : Message) : Prop :=
  ∃ u content turns, (⟨.send r u content, turns, .done (.ok m)⟩ : Task) ∈ s.tasks

/-- A join that came to its end attached first, then read the messages, and pushed what it read. -/
theorem Joined.didThen {limit : Nat} {ms : List Message} (hp : OnPath k s)
    (hj : s.Joined limit c (k c).room ms) :
    s.DidThen ⟨.attach (k.handle c), true⟩ ⟨.recentMessages (k c).room limit, .ok ms⟩ ∧
      ∃ answer, s.DidThen ⟨.attach (k.handle c), true⟩ ⟨.pushTo c (.history ms), answer⟩ := by
  obtain ⟨turns, ht, hread⟩ := hj
  have hpath : (Membership.join limit (k.handle c)).Path turns (.done true) := hp _ ht
  rcases hpath.join_done with ⟨told, ms', pushed, last, rfl⟩ | ⟨told, e, last, rfl⟩
  · have hms : ms = ms' := by
      simpa [Clients.handle] using hread
    subst hms
    exact ⟨⟨_, ht, by simp [Clients.handle]⟩, pushed, ⟨_, ht, by simp [Clients.handle]⟩⟩
  · simp [Clients.handle] at hread

/-- A text that was sent was stored first and broadcast then. -/
theorem Sent.didThen (hp : OnPath k s) (hsent : s.Sent r m) :
    ∃ u d report,
      s.DidThen ⟨.persist r u d, .ok m⟩ ⟨.broadcast m.room (.chat m), report⟩ := by
  obtain ⟨u, content, turns, ht⟩ := hsent
  have hpath : (Posting.send r u content).Path turns (.done (.ok m)) := hp _ ht
  obtain ⟨d, report, rfl⟩ := hpath.send_done
  exact ⟨u, d, report, _, ht, List.Sublist.refl _⟩

/-- A connection that joined, is open and was not detached has got its history. Of the
texts that were sent to its room, each was broadcast to it, or is in that history, or is
older than all of a history of full length; so a shorter one misses nothing. -/
theorem handover_loses_nothing (k : Clients) (outboxes : Std.ExtTreeMap ConnectionId Outbox)
    (seed : List Seed.Room) (clock : Instant) (outage : Outage) (moves : List Move)
    {s : Scene} (hrun : s = (opening outboxes seed clock outage).run k moves) {limit : Nat}
    {c : ConnectionId} {ms : List Message} (hjoined : s.Joined limit c (k c).room ms)
    (hstay : s.Stayed c) (hopen : s.world.hub.IsOpen c) :
    Event.history ms ∈ Sending.stream c s.log ∧
      (∀ m, s.Sent (k c).room m → Event.chat m ∈ Sending.stream c s.log ∨ m ∈ ms ∨
        ((∀ x ∈ ms, m.id < x.id) ∧ ms.length = Store.clampHistory limit)) ∧
      (ms.length < Store.clampHistory limit →
        ∀ m, s.Sent (k c).room m → Event.chat m ∈ Sending.stream c s.log ∨ m ∈ ms) := by
  have hs : s.Seamless := by
    rw [hrun]
    exact run_induction (seamless_opening outboxes seed clock outage)
      (fun _ _ => seamless_change) moves
  have hp : OnPath k s := by
    rw [hrun]
    exact path_run (fun t ht => by cases ht) moves
  obtain ⟨hread, answer, hpush⟩ := hjoined.didThen hp
  obtain ⟨seen, hseen, hms, hposted⟩ := hs.covered hread hstay
  have heach : ∀ m, s.Sent (k c).room m → Event.chat m ∈ Sending.stream c s.log ∨ m ∈ ms ∨
      ((∀ x ∈ ms, m.id < x.id) ∧ ms.length = Store.clampHistory limit) := by
    intro m hsent
    obtain ⟨u, d, report, hthen⟩ := hsent.didThen hp
    rcases hposted hthen (hs.stored hthen.fst).2 with hmem | hlive
    · right
      rw [hms]
      exact Store.mem_lastOf_or_older ((hs.numbered.increasing _).sublist hseen.sublist) hmem
    · exact Or.inl (hlive hopen)
  refine ⟨hs.pushed hpush hstay hopen, heach, fun hshort m hsent => ?_⟩
  rcases heach m hsent with hlive | hmem | ⟨-, hfull⟩
  · exact Or.inl hlive
  · exact Or.inr hmem
  · omega

/-- A join that sees one message at most, and three texts: the first is sent before the
join attaches; the second is stored before the messages are read and broadcast after; the
third is sent between the reading and the push of what was read. -/
def lateReading : List Move :=
  [.start (.join 1 ⟨⟨1⟩⟩), .start (.send ⟨⟨7⟩⟩ ⟨⟨5⟩⟩ "first"),
    .start (.send ⟨⟨7⟩⟩ ⟨⟨5⟩⟩ "second"), .start (.send ⟨⟨7⟩⟩ ⟨⟨5⟩⟩ "third"), .advance 1,
    .advance 1, .advance 0, .advance 2, .advance 0, .advance 0, .advance 3, .advance 3,
    .advance 0, .advance 2, .advance 0]

/-- The one connection is of a user of the room, and so is the one who sends. -/
def lateReader : Clients := fun _ => ⟨⟨⟨7⟩⟩, ⟨⟨⟨5⟩⟩, "ann"⟩⟩

/-- The scene in which the join read the second text only. -/
def lateReadingScene : Scene :=
  (opening (Std.ExtTreeMap.insert ∅ ⟨⟨1⟩⟩ ⟨8, [], .listening, false, by decide⟩)
    [⟨⟨⟨7⟩⟩, "lobby", [⟨⟨⟨5⟩⟩, "ann"⟩]⟩] .epoch .none).run lateReader lateReading

/-- What the second text became. -/
def lateText : Message := ⟨2, ⟨⟨7⟩⟩, ⟨⟨5⟩⟩, "ann", "second", .text, none, .epoch⟩

/-- A join whose reading shows one message only: of the three texts sent meanwhile, each is queued,
read, or older than what was read. -/
theorem handover_loses_nothing_late_reading :
    lateReadingScene.Joined 1 ⟨⟨1⟩⟩ ⟨⟨7⟩⟩ [lateText] ∧
      Event.history [lateText] ∈ Sending.stream ⟨⟨1⟩⟩ lateReadingScene.log ∧
      ∀ m, lateReadingScene.Sent ⟨⟨7⟩⟩ m →
        Event.chat m ∈ Sending.stream ⟨⟨1⟩⟩ lateReadingScene.log ∨ m ∈ [lateText] ∨
          ((∀ x ∈ [lateText], m.id < x.id) ∧ [lateText].length = Store.clampHistory 1) := by
  have ht : lateReadingScene.tasks[0]? = some ⟨.join 1 ⟨⟨1⟩⟩,
      [⟨.attach (lateReader.handle ⟨⟨1⟩⟩), true⟩, ⟨.broadcastPresence ⟨⟨7⟩⟩ .room, ⟨2, 0⟩⟩,
        ⟨.recentMessages ⟨⟨7⟩⟩ 1, .ok [lateText]⟩,
        ⟨.pushTo ⟨⟨1⟩⟩ (.history [lateText]), .ok ()⟩,
        ⟨.pushCallParticipants ⟨⟨1⟩⟩, .ok ()⟩], .done true⟩ := by
    rfl
  have hjoined : lateReadingScene.Joined 1 ⟨⟨1⟩⟩ ⟨⟨7⟩⟩ [lateText] := by
    refine ⟨_, List.mem_of_getElem? ht, ?_⟩
    exact List.mem_cons_of_mem _ (List.mem_cons_of_mem _ List.mem_cons_self)
  obtain ⟨hhistory, heach, -⟩ := handover_loses_nothing lateReader _ _ _ _ lateReading rfl
    hjoined (by decide +kernel) (by decide +kernel)
  exact ⟨hjoined, hhistory, heach⟩

end Scene

end RoomHub
