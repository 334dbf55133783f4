import RoomHub.Proofs.Scene.Debts

/-!
# No stale snapshot is left as the last one

Joins, leaves and moves into a call are several operations each, so the snapshots of one
task mix with the changes of others. What carries through is an alternative, kept for each
room and each roster: it is current, or some task owes the room a broadcast that covers it.

A change spoils a roster only together with opening the debt; the operation that settles
the debt is the broadcast that makes the roster current; and whatever else happens does
neither. So where nobody owes a broadcast, every open connection was last shown the
present rosters.
-/

namespace RoomHub.Scene

variable {k : Clients} {s s' : Scene} {scope : Scope} {r : RoomId}

/-- Some task owes a room a broadcast that covers a roster. -/
def Owed (k : Clients) (s : Scene) (scope : Scope) (r : RoomId) : Prop :=
  ∃ t ∈ s.tasks, ∃ owed : Scope, t.debt k = some (r, owed) ∧ owed.covers scope = true

/-- The roster of a room is current. -/
def IsCurrent (s : Scene) (scope : Scope) (r : RoomId) : Prop :=
  Hub.Current scope s.world.hub s.log r

/-- Every roster that is not current is owed. -/
structure UpToDate (k : Clients) (s : Scene) : Prop where
  mirrored : s.world.hub.registry.Mirrored
  atHome : ∀ {c : ConnectionId} {m : Member}, s.world.hub.registry.member? c = some m →
    m.handle = k.handle c
  disciplined : Disciplined k s
  shown : ∀ scope r, s.IsCurrent scope r ∨ s.Owed k scope r

theorem upToDate_opening (outboxes : Std.ExtTreeMap ConnectionId Outbox)
    (seed : List Seed.Room) (clock : Instant) (outage : Outage) :
    UpToDate k (opening outboxes seed clock outage) where
  mirrored := Registry.mirrored_empty
  atHome {c m} hm := by simp [opening, Hub.idle, Registry.member?, Registry.empty] at hm
  disciplined t ht := by cases ht
  shown scope r := Or.inl (Hub.current_idle outboxes)

/-! ## One operation of a task -/

/-- The hub's part of an operation: what is registered stays with its client, and a roster
that was current is so afterwards, unless the operation was a change that it shows. -/
structure Advances (k : Clients) (w : World) (log : List Sending) (op : Operation) : Prop where
  mirrored : (op.hubAfter w.hub).registry.Mirrored
  atHome : ∀ {c : ConnectionId} {m : Member},
    (op.hubAfter w.hub).registry.member? c = some m → m.handle = k.handle c
  shown : ∀ scope r, Hub.Current scope w.hub log r →
    Hub.Current scope (op.hubAfter w.hub) (log ++ op.sends w.hub) r ∨
      ∃ opened : Scope, Turn.opens k ⟨op, (w.perform op).1⟩ = some (r, opened) ∧
        opened.covers scope = true

section Operations

variable {w : World} {log : List Sending} {op : Operation} {a : Hub.Step}

/-- An operation on the hub keeps what is registered with its client, if those who attach
do so under their own handle. -/
theorem advances_of_step (hg : w.hub.registry.Mirrored)
    (hhome : ∀ {c : ConnectionId} {m : Member}, w.hub.registry.member? c = some m →
      m.handle = k.handle c)
    (hop : op.step? = some a) (hattach : ∀ h, a = .attach h → h = k.handle h.id)
    (hshown : ∀ scope r, Hub.Current scope w.hub log r →
      Hub.Current scope (Hub.act a w.hub) (log ++ Hub.sends a w.hub) r ∨
        ∃ opened : Scope, Turn.opens k ⟨op, (w.perform op).1⟩ = some (r, opened) ∧
          opened.covers scope = true) : Advances k w log op := by
  have hafter : op.hubAfter w.hub = Hub.act a w.hub := by
    unfold Operation.hubAfter
    rw [hop]
  have hsends : op.sends w.hub = Hub.sends a w.hub := by
    unfold Operation.sends
    rw [hop]
  refine ⟨?_, ?_, ?_⟩
  · rw [hafter]
    exact Hub.mirrored_act hg
  · intro c m hm
    rw [hafter] at hm
    rcases Hub.member?_act hg hm with ⟨m', hm', hsame⟩ | hattached
    · rw [← hsame]
      exact hhome hm'
    · have hid : m.handle.id = c := (Hub.mirrored_act hg).id_eq hm
      rw [hattach _ hattached, hid]
  · rw [hafter, hsends]
    exact hshown

/-- Whoever joins a room spoils its rosters, and owes both. -/
theorem shown_attach {h : Handle} (hg : w.hub.registry.Mirrored)
    (hc : Hub.Current scope w.hub log r) :
    Hub.Current scope (w.hub.attach h).2 (log ++ Hub.sends (.attach h) w.hub) r ∨
      ∃ opened : Scope,
        Turn.opens k ⟨.attach h, (w.perform (.attach h)).1⟩ = some (r, opened) ∧
          opened.covers scope = true := by
  by_cases hopens : (w.hub.attach h).1 = true ∧ h.room = r
  · obtain ⟨hok, rfl⟩ := hopens
    right
    refine ⟨.room, ?_, rfl⟩
    show (if (w.hub.attach h).1 = true then some (h.room, Scope.room) else none) = _
    rw [if_pos hok]
  · left
    rw [Hub.sends_of_isMembership rfl, List.append_nil]
    exact hc.attach hg fun hok hroom => hopens ⟨hok, hroom⟩

/-- So does whoever leaves it. -/
theorem shown_detach {c : ConnectionId} (hg : w.hub.registry.Mirrored)
    (hc : Hub.Current scope w.hub log r) :
    Hub.Current scope (w.hub.detach c).2 (log ++ Hub.sends (.detach c) w.hub) r ∨
      ∃ opened : Scope,
        Turn.opens k ⟨.detach c, (w.perform (.detach c)).1⟩ = some (r, opened) ∧
          opened.covers scope = true := by
  rw [Hub.sends_of_isMembership rfl, List.append_nil]
  rcases Hub.detach_cases hg c with ⟨hnone, -⟩ | ⟨m, hm, heq⟩
  · left
    exact hc.detach hg fun m hm => by rw [hnone] at hm; cases hm
  · by_cases hroom : m.handle.room = r
    · right
      refine ⟨.room, ?_, rfl⟩
      show (w.hub.detach c).1.map (fun m => (m.handle.room, Scope.room)) = _
      rw [heq, ← hroom]
      rfl
    · left
      refine hc.detach hg fun m' hm' => ?_
      rw [hm] at hm'
      cases hm'
      exact hroom

/-- Whoever moves into a call or out of it spoils the roster of the call, and owes that. -/
theorem shown_setInCall {c : ConnectionId} {on : Bool} (hg : w.hub.registry.Mirrored)
    (hhome : ∀ {c : ConnectionId} {m : Member}, w.hub.registry.member? c = some m →
      m.handle = k.handle c)
    (hc : Hub.Current scope w.hub log r) :
    Hub.Current scope (w.hub.setInCall c on).2 (log ++ Hub.sends (.setInCall c on) w.hub) r ∨
      ∃ opened : Scope,
        Turn.opens k ⟨.setInCall c on, (w.perform (.setInCall c on)).1⟩ = some (r, opened) ∧
          opened.covers scope = true := by
  rw [Hub.sends_of_isMembership rfl, List.append_nil]
  by_cases hspoils : (w.hub.setInCall c on).1 = true ∧ (k c).room = r ∧ scope = .call
  · obtain ⟨hok, rfl, rfl⟩ := hspoils
    right
    refine ⟨.call, ?_, rfl⟩
    show (if (w.hub.setInCall c on).1 = true then some ((k c).room, Scope.call) else none) = _
    rw [if_pos hok]
  · left
    rcases Hub.setInCall_cases hg c on with ⟨-, heq⟩ | ⟨m, hm, -, heq⟩
    · rw [heq]
      exact hc
    · refine hc.setInCall hg fun m' hm' => ?_
      -- the room that is told is the connection's own
      have hhandle := hhome hm'
      cases scope with
      | room => exact Or.inl rfl
      | call =>
        right
        intro hroom
        rw [hhandle] at hroom
        exact hspoils ⟨by rw [heq], hroom, rfl⟩

/-- What the discipline permits advances the scene. -/
theorem advances_of_permits (hg : w.hub.registry.Mirrored)
    (hhome : ∀ {c : ConnectionId} {m : Member}, w.hub.registry.member? c = some m →
      m.handle = k.handle c)
    {d : Option Debt} (hpermits : k.Permits d op) : Advances k w log op := by
  cases op with
  | attach h =>
    refine advances_of_step hg hhome rfl (fun h' heq => ?_) fun scope r hc => shown_attach hg hc
    cases heq
    cases d with
    | none => exact hpermits
    | some debt => cases hpermits
  | detach c =>
    exact advances_of_step hg hhome rfl (fun h heq => by cases heq) fun scope r hc =>
      shown_detach hg hc
  | setInCall c on =>
    exact advances_of_step hg hhome rfl (fun h heq => by cases heq) fun scope r hc =>
      shown_setInCall hg hhome hc
  | broadcast r' e =>
    refine advances_of_step hg hhome rfl (fun h heq => by cases heq) fun scope r hc => Or.inl ?_
    refine hc.act_of_quiet rfl fun dispatch hmem => ?_
    rw [List.mem_singleton.mp hmem]
    cases d with
    | none => exact hpermits scope
    | some debt => cases hpermits
  | broadcastPresence r' s' =>
    refine advances_of_step hg hhome rfl (fun h heq => by cases heq) fun scope r hc => Or.inl ?_
    exact hc.broadcastPresence hg
  | pushTo c e =>
    refine advances_of_step hg hhome rfl (fun h heq => by cases heq) fun scope r hc => Or.inl ?_
    refine hc.act_of_quiet rfl fun dispatch hmem => ?_
    rw [Hub.dispatches_pushTo] at hmem
    split at hmem
    next =>
      rw [List.mem_singleton.mp hmem]
      cases d with
      | none => exact hpermits scope
      | some debt => cases hpermits
    next => cases hmem
  | pushCallParticipants c =>
    refine advances_of_step hg hhome rfl (fun h heq => by cases heq) fun scope r hc => Or.inl ?_
    exact hc.pushCallParticipants
  | roomExists | isMember | listMembers | persist | recentMessages | participants
  | callParticipants =>
    refine ⟨hg, hhome, fun scope r hc => Or.inl ?_⟩
    show Hub.Current scope w.hub (log ++ []) r
    rw [List.append_nil]
    exact hc

end Operations

/-! ## One move -/

/-- After a task's turn, every roster that is not current is owed. -/
theorem upToDate_advance {i : Nat} {t : Task} {op : Operation}
    {next : op.Answer → Program t.call.Answer} (hs : UpToDate k s) (ht : s.tasks[i]? = some t)
    (hrest : t.rest = .step op next) : UpToDate k (s.advanced i t op next) := by
  have hpermits := hs.disciplined.permits ht hrest
  have hadv : Advances k s.world s.log op := advances_of_permits hs.mirrored hs.atHome hpermits
  have hhub : (s.advanced i t op next).world.hub = op.hubAfter s.world.hub :=
    World.hub_perform op s.world
  refine ⟨?_, ?_, disciplined_change hs.disciplined (.advance ht hrest), fun scope r => ?_⟩
  · rw [hhub]
    exact hadv.mirrored
  · rw [hhub]
    exact hadv.atHome
  · unfold IsCurrent
    rw [hhub]
    rcases hs.shown scope r with hcurrent | ⟨u, hu, owed, hdebt, hcovers⟩
    · rcases hadv.shown scope r hcurrent with hafter | ⟨opened, hopens, hcovers⟩
      · exact Or.inl hafter
      · -- the task that spoiled the roster owes it from now on
        right
        refine ⟨_, took_mem_advanced ht, opened, ?_, hcovers⟩
        rw [Task.debt_took]
        exact Turn.settle_of_opens hopens
    · rcases mem_advanced_or_eq ht hu with hstays | rfl
      · exact Or.inr ⟨u, hstays, owed, hdebt, hcovers⟩
      · -- the task that owed it pays now
        left
        rw [hdebt] at hpermits
        replace hpermits : op = .broadcastPresence r owed := hpermits
        subst hpermits
        exact Hub.current_broadcastPresence hs.mirrored hcovers

/-- Whatever a move does, every roster that is not current is owed. -/
theorem upToDate_change (hs : UpToDate k s) (hc : Change k s s') : UpToDate k s' := by
  have hdisciplined := disciplined_change hs.disciplined hc
  cases hc with
  | start call =>
    refine ⟨hs.mirrored, hs.atHome, hdisciplined, fun scope r => ?_⟩
    rcases hs.shown scope r with hcurrent | ⟨t, ht, howed⟩
    · exact Or.inl hcurrent
    · exact Or.inr ⟨t, List.mem_append_left _ ht, howed⟩
  | advance ht hrest => exact upToDate_advance hs ht hrest
  | outside a ha =>
    have hreg := (Hub.act_presence (Hub.Step.isMembership_of_isOutside ha) s.world.hub).1
    refine ⟨Hub.mirrored_act hs.mirrored, fun hm => hs.atHome (hreg ▸ hm), hdisciplined,
      fun scope r => ?_⟩
    rcases hs.shown scope r with hcurrent | howed
    · exact Or.inl (Hub.Current.act_of_isOutside hcurrent ha)
    · exact Or.inr howed
  | around w hhub =>
    refine ⟨?_, fun hm => hs.atHome (hhub ▸ hm), hdisciplined, fun scope r => ?_⟩
    · show w.hub.registry.Mirrored
      rw [hhub]
      exact hs.mirrored
    · rcases hs.shown scope r with hcurrent | howed
      · left
        show Hub.Current scope w.hub s.log r
        rw [hhub]
        exact hcurrent
      · exact Or.inr howed

/-! ## Every run -/

/-- In every state in which no task stands between a change of presence in a room and its
own broadcast, every open connection of the room was last shown who is connected to it
now, and who is in its call now. -/
theorem last_snapshots_current (k : Clients) (outboxes : Std.ExtTreeMap ConnectionId Outbox)
    (seed : List Seed.Room) (clock : Instant) (outage : Outage) (moves : List Move)
    {s : Scene} (hrun : s = (opening outboxes seed clock outage).run k moves) {r : RoomId}
    (hsettled : ∀ t ∈ s.tasks, ¬t.Owes k r) {c : ConnectionId} (hin : s.world.hub.IsIn c r)
    (hopen : s.world.hub.IsOpen c) :
    Scope.lastShown .room (Sending.stream c s.log) = some (s.world.hub.participants r) ∧
      Scope.lastShown .call (Sending.stream c s.log)
        = some (s.world.hub.callParticipants r) := by
  have hs : UpToDate k s := by
    rw [hrun]
    exact run_induction (upToDate_opening outboxes seed clock outage)
      (fun _ _ => upToDate_change) moves
  have hcurrent : ∀ scope, s.IsCurrent scope r := by
    intro scope
    rcases hs.shown scope r with hcurrent | ⟨t, ht, owed, hdebt, -⟩
    · exact hcurrent
    · exact absurd (Task.owes_of_debt hdebt) (hsettled t ht)
  exact ⟨hcurrent .room hin hopen, hcurrent .call hin hopen⟩

/-- Two users join a room side by side: the second attaches before the first has told the
room, and the first enters the call before the second has been told of it. -/
def twoJoins : List Move :=
  [.start (.join 50 ⟨⟨1⟩⟩), .start (.join 50 ⟨⟨2⟩⟩), .start (.joinCall ⟨⟨1⟩⟩),
    .advance 0, .advance 1, .advance 2, .advance 0, .receive ⟨⟨1⟩⟩ 1, .advance 1, .advance 0,
    .advance 1, .advance 2, .advance 0, .advance 1]

/-- After two joins side by side the second user has been shown both rosters as they are. -/
theorem last_snapshots_current_two_joins :
    let k : Clients := fun c => ⟨⟨⟨7⟩⟩, ⟨⟨c.uuid⟩, "guest"⟩⟩
    let outbox : Outbox := ⟨8, [], .listening, false, by decide⟩
    let outboxes := (Std.ExtTreeMap.insert ∅ ⟨⟨1⟩⟩ outbox).insert ⟨⟨2⟩⟩ outbox
    let s := (opening outboxes [] .epoch .none).run k twoJoins
    Scope.lastShown .room (Sending.stream ⟨⟨2⟩⟩ s.log) = some (s.world.hub.participants ⟨⟨7⟩⟩) ∧
      Scope.lastShown .call (Sending.stream ⟨⟨2⟩⟩ s.log)
        = some (s.world.hub.callParticipants ⟨⟨7⟩⟩) :=
  last_snapshots_current _ _ _ _ _ _ rfl (by decide +kernel) (by decide +kernel)
    (by decide +kernel)

end RoomHub.Scene
