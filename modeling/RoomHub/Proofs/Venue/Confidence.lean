import RoomHub.Proofs.Hub.Stream
import RoomHub.Proofs.Venue.Admission

/-!
# Messages stay among members

A message reaches a connection in two ways: it is broadcast to the room that it names, or it
is part of a history that was read for the room of the one connection it is pushed to. In
both cases whoever gets it is registered for its room at that moment
(`isAbout_of_mem_stream`), and who is registered for a room was admitted as one of its
members (`vetted_run`). The log of a venue keeps every sending, so this is a statement about
all that was ever queued.

> `messages_stay_among_members`: all of this after any run.
-/

namespace RoomHub

open Std (ExtTreeMap)

/-! ## One operation -/

/-- An operation that sends messages to nobody but connections of their room. -/
def Operation.IsDiscreet (h : Hub) : Operation → Prop
  | .broadcast r e => e.IsAbout r
  | .pushTo c e => ∀ k, h.registry.connection? c = some k → e.IsAbout k.room
  | _ => True

section Sending

variable {h : Hub} {op : Operation} {c : ConnectionId} {e : Event} {k : Handle}

/-- What is harmless for a connection is discreet where nothing else is registered under its
identifier. -/
theorem Operation.IsHarmless.isDiscreet (hop : op.IsHarmless k)
    (hk : ∀ j, h.registry.connection? k.id = some j → j = k) : op.IsDiscreet h := by
  cases op with
  | broadcast r e => exact hop
  | pushTo c e =>
    obtain ⟨rfl, habout⟩ := hop
    intro j hj
    rw [hk j hj]
    exact habout
  | _ => exact trivial

/-- The connections of a room are registered for it. -/
theorem Hub.exists_of_mem_roomIds {r : RoomId} (hg : h.registry.Mirrored)
    (hc : c ∈ h.roomIds r) : ∃ k, h.registry.connection? c = some k ∧ k.room = r := by
  obtain ⟨k, hk, rfl⟩ := List.mem_map.mp hc
  obtain ⟨hregistered, hroom⟩ := hg.mem_connections.mp hk
  exact ⟨k, hregistered, hroom⟩

/-- What an operation queues was sent by the step on the hub that it is. -/
theorem Operation.mem_meantFor_of_mem_stream (he : e ∈ Sending.stream c (op.sends h)) :
    ∃ a, op.step? = some a ∧ e ∈ Hub.meantFor c (Hub.dispatches a h) := by
  unfold sends at he
  split at he
  next a ha =>
    refine ⟨a, ha, ?_⟩
    obtain ⟨attempt, hattempt, rfl⟩ := List.mem_map.mp he
    rw [← Hub.map_fst_attempts_sends]
    exact List.mem_map_of_mem (List.mem_filter.mp hattempt).1
  next => cases he

/-- An event without messages is about the room of whoever is in some room. -/
theorem Hub.exists_isAbout_of_mem_roomIds {r : RoomId} (hg : h.registry.Mirrored)
    (hc : c ∈ h.roomIds r) (hnone : e.messages = []) :
    ∃ k, h.registry.connection? c = some k ∧ e.IsAbout k.room := by
  obtain ⟨k, hk, -⟩ := Hub.exists_of_mem_roomIds hg hc
  exact ⟨k, hk, Event.isAbout_of_messages_eq_nil hnone k.room⟩

/-- Whoever a discreet operation sends an event to is registered, and the messages of the
event are of that room. -/
theorem Operation.isAbout_of_mem_stream (hg : h.registry.Mirrored) (hop : op.IsDiscreet h)
    (he : e ∈ Sending.stream c (op.sends h)) :
    ∃ k, h.registry.connection? c = some k ∧ e.IsAbout k.room := by
  obtain ⟨a, ha, hmeant⟩ := mem_meantFor_of_mem_stream he
  obtain ⟨d, hd, rfl, hc⟩ := Hub.mem_meantFor.mp hmeant
  cases op with
  | broadcast r e =>
    cases ha
    cases List.mem_singleton.mp hd
    obtain ⟨k, hk, rfl⟩ := Hub.exists_of_mem_roomIds hg hc
    exact ⟨k, hk, hop⟩
  | broadcastPresence r s =>
    -- presence is sent without messages
    cases ha
    cases s with
    | call =>
      cases List.mem_singleton.mp hd
      exact Hub.exists_isAbout_of_mem_roomIds hg hc rfl
    | room =>
      rcases List.mem_cons.mp hd with rfl | hd
      · exact Hub.exists_isAbout_of_mem_roomIds hg hc rfl
      · cases List.mem_singleton.mp hd
        exact Hub.exists_isAbout_of_mem_roomIds hg hc rfl
  | pushTo c' e =>
    -- a push to nobody is not sent at all
    cases ha
    rw [Hub.dispatches_pushTo] at hd
    split at hd
    next hsome =>
      cases List.mem_singleton.mp hd
      cases List.mem_singleton.mp hc
      obtain ⟨k, hk⟩ := Option.isSome_iff_exists.mp hsome
      exact ⟨k, hk, hop k hk⟩
    next => cases hd
  | pushCallParticipants c' =>
    cases ha
    simp only [Hub.dispatches] at hd
    split at hd
    next k hk =>
      cases List.mem_singleton.mp hd
      cases List.mem_singleton.mp hc
      exact ⟨k, hk, Event.isAbout_of_messages_eq_nil rfl k.room⟩
    next => cases hd
  | attach | detach | setInCall =>
    cases ha
    cases hd
  | roomExists | isMember | listMembers | persist | recentMessages | participants
  | callParticipants => cases ha

/-- A new outbox is empty. -/
theorem Outbox.queue_of_create? {capacity : Nat} {o : Outbox}
    (ho : Outbox.create? capacity = some o) : o.queue = [] := by
  unfold Outbox.create? at ho
  split at ho
  next =>
    cases ho
    rfl
  next => cases ho

/-- What is in a queue after an operation was there before, or was queued by it. -/
theorem World.mem_queue_perform {w : World} {o' : Outbox}
    (ho' : (w.perform op).2.hub.outboxes[c]? = some o') (he : e ∈ o'.queue) :
    (∃ o, w.hub.outboxes[c]? = some o ∧ e ∈ o.queue) ∨
      e ∈ Sending.stream c (op.sends w.hub) := by
  rw [World.hub_perform] at ho'
  unfold Operation.hubAfter at ho'
  unfold Operation.sends
  split at ho'
  next a ha => exact Hub.mem_queue_act ho' he
  next => exact Or.inl ⟨o', ho', he⟩

end Sending

/-! ## One act -/

namespace Guest

variable {cfg : HubSettings} {now : Time} {g g' : Guest} {w w' : World} {sent : List Sending}
  {c : ConnectionId} {e : Event}

/-- The next operation of a guest in order is discreet. -/
theorem isDiscreet_of_next {op : Operation} {next : op.Answer → Phase}
    (hnext : g.phase.next? = some ⟨op, next⟩) (ho : g.InOrder w.hub) : op.IsDiscreet w.hub := by
  rcases next_cases hnext ho with ⟨k, -, rfl⟩ | rfl | ⟨k, hid, hharmless, hk⟩
  · exact trivial
  · exact trivial
  · -- what is harmless under a handle is discreet where nothing else is registered
    rw [← hid] at hk
    exact hharmless.isDiscreet hk

/-- What an act sends goes to connections of the room it is about. -/
theorem isAbout_of_mem_stream (hi : w.hub.InStep) (hc : g.Change cfg now w g' w' sent)
    (ho : g.InOrder w.hub) (he : e ∈ Sending.stream c sent) :
    ∃ k, w.hub.registry.connection? c = some k ∧ e.IsAbout k.room := by
  cases hc with
  | took hnext => exact Operation.isAbout_of_mem_stream hi.mirrored (isDiscreet_of_next hnext ho) he
  | still | answered | unopened | opened | joined | refused | heard | arrived | acted | drained
  | left | finished | tripped | swept | wrote => cases he

/-- What is in a queue after an act was there before, or was queued by the act. -/
theorem mem_queue_change (hc : g.Change cfg now w g' w' sent) {o' : Outbox}
    (ho' : w'.hub.outboxes[c]? = some o') (he : e ∈ o'.queue) :
    (∃ o, w.hub.outboxes[c]? = some o ∧ e ∈ o.queue) ∨ e ∈ Sending.stream c sent := by
  cases hc with
  | took => exact World.mem_queue_perform ho' he
  | @opened r who o hp hcreate =>
    replace ho' : (w.hub.outboxes.insert g.id o)[c]? = some o' := ho'
    rw [ExtTreeMap.getElem?_insert] at ho'
    split at ho'
    next =>
      cases ho'
      rw [Outbox.queue_of_create? hcreate] at he
      cases he
    next => exact Or.inl ⟨o', ho', he⟩
  | @swept s d hp =>
    replace ho' : (w.hub.outboxes.erase d.connection)[c]? = some o' := ho'
    rw [ExtTreeMap.getElem?_erase] at ho'
    split at ho'
    next => cases ho'
    next => exact Or.inl ⟨o', ho', he⟩
  | @left s =>
    exact Or.inl (Hub.mem_queue_of_not_isSending (a := .cancel s.handle.id) rfl ho' he)
  | @tripped s =>
    exact Or.inl (Hub.mem_queue_of_not_isSending (a := .cancel s.handle.id) rfl ho' he)
  | @wrote s _ _ _ _ hw =>
    rcases hw with rfl | rfl
    · exact Or.inl ⟨o', ho', he⟩
    · exact Or.inl (Hub.mem_queue_of_not_isSending (a := .receive s.handle.id 1) rfl ho' he)
  | still | answered | unopened | joined | refused | heard | arrived | acted | drained
  | finished => exact Or.inl ⟨o', ho', he⟩

/-- A guest keeps its handle, whatever it does. -/
theorem handle?_change {k : Handle} (hc : g.Change cfg now w g' w' sent)
    (hk : g.phase.handle? = some k) : g'.phase.handle? = some k := by
  cases hc with
  | still => exact hk
  | tripped => exact hk
  | took hnext =>
    rcases Phase.next?_cases hnext with ⟨f, hp, rfl⟩ | ⟨k, f, hp, rfl⟩ | ⟨s, f, hp, rfl⟩ |
      ⟨s, f, hp, rfl⟩
    all_goals
      rw [hp] at hk
      exact hk
  | @wrote s hp socket writing w' hw =>
    have hsession := Phase.session?_onSession
      (fun _ => { s with socket := socket, writing := writing }) hp
    rw [Phase.handle?_of_session? hp] at hk
    exact (Phase.handle?_of_session? hsession).trans hk
  | opened hp =>
    rw [hp] at hk
    cases hk
  | answered hp | unopened hp | joined hp | refused hp | heard hp | arrived hp | acted hp
  | drained hp | left hp | finished hp | swept hp =>
    rw [hp] at hk
    exact hk

end Guest

/-! ## Every run -/

namespace Venue

variable {cfg : HubSettings} {v v' : Venue} {c : ConnectionId} {e : Event} {k : Handle}

/-- A guest has a connection under a handle. -/
def Holds (v : Venue) (c : ConnectionId) (k : Handle) : Prop :=
  ∃ g ∈ v.guests, g.id = c ∧ g.phase.handle? = some k

/-- Who is registered is a guest with that handle. -/
theorem Orderly.holds (ho : Orderly v) (hk : v.world.hub.registry.connection? c = some k) :
    v.Holds c k := by
  obtain ⟨g, hg, rfl⟩ := ho.known c (by rw [hk]; exact Option.some_ne_none k)
  exact ⟨g, hg, rfl, (ho.inOrder g hg).handle?_of_registered hk⟩

/-- A handle is for good. -/
theorem holds_change (hc : Change cfg v v') (hk : v.Holds c k) : v'.Holds c k := by
  obtain ⟨g, hg, hid, hhandle⟩ := hk
  cases hc with
  | begun => exact ⟨g, List.mem_append_left _ hg, hid, hhandle⟩
  | @acted i u u' w sent hget hact =>
    obtain ⟨j, hj⟩ := List.mem_iff_getElem?.mp hg
    by_cases hij : i = j
    · subst hij
      rw [hget] at hj
      cases hj
      have hlt := (List.getElem?_eq_some_iff.mp hget).1
      exact ⟨u', List.mem_set hlt u', (Guest.id_change hact).trans hid,
        Guest.handle?_change hact hhandle⟩
    · refine ⟨g, ?_, hid, hhandle⟩
      refine List.mem_iff_getElem?.mpr ⟨j, ?_⟩
      show (v.guests.set i u')[j]? = some g
      rw [List.getElem?_set_ne hij]
      exact hj
  | stored => exact ⟨g, hg, hid, hhandle⟩
  | announced => exact ⟨g, hg, hid, hhandle⟩
  | around => exact ⟨g, hg, hid, hhandle⟩

/-- Whatever was queued to a connection, its messages are of the room that the connection
is for; and whatever is in a queue was queued. -/
structure Discreet (v : Venue) : Prop where
  about : ∀ c, ∀ e ∈ Sending.stream c v.log, ∃ k, v.Holds c k ∧ e.IsAbout k.room
  queued : ∀ c o, v.world.hub.outboxes[c]? = some o →
    ∀ e ∈ o.queue, e ∈ Sending.stream c v.log

theorem discreet_opening (seed : List Seed.Room) (clock : Instant) (outage : Outage) :
    Discreet (opening seed clock outage) where
  about c e he := by cases he
  queued c o ho := by simp [opening, Hub.empty] at ho

/-- What a change sends keeps a venue discreet. -/
theorem Discreet.sent {sent : List Sending} (hd : Discreet v) (ho : Orderly v)
    (hc : Change cfg v v') (hlog : v'.log = v.log ++ sent)
    (habout : ∀ c, ∀ e ∈ Sending.stream c sent,
      ∃ k, v.world.hub.registry.connection? c = some k ∧ e.IsAbout k.room)
    (hqueue : ∀ c o', v'.world.hub.outboxes[c]? = some o' → ∀ e ∈ o'.queue,
      (∃ o, v.world.hub.outboxes[c]? = some o ∧ e ∈ o.queue) ∨ e ∈ Sending.stream c sent) :
    Discreet v' := by
  refine ⟨fun c e he => ?_, fun c o' ho' e he => ?_⟩
  · rw [hlog, Sending.stream_append] at he
    rcases List.mem_append.mp he with hold | hnew
    · obtain ⟨k, hholds, hk⟩ := hd.about c e hold
      exact ⟨k, holds_change hc hholds, hk⟩
    · -- who is sent something is registered, and so a guest
      obtain ⟨k, hregistered, hk⟩ := habout c e hnew
      exact ⟨k, holds_change hc (ho.holds hregistered), hk⟩
  · rw [hlog, Sending.stream_append]
    rcases hqueue c o' ho' e he with ⟨o, hget, hold⟩ | hnew
    · exact List.mem_append_left _ (hd.queued c o hget e hold)
    · exact List.mem_append_right _ hnew

/-- A venue stays discreet, whatever happens in it. -/
theorem discreet_change (hd : Discreet v) (ho : Orderly v) (hc : Change cfg v v') :
    Discreet v' := by
  have hnothing : ∀ c, ∀ e ∈ Sending.stream c [],
      ∃ k, v.world.hub.registry.connection? c = some k ∧ e.IsAbout k.room := by
    intro c e he
    cases he
  have hg := ho.inStep.mirrored
  have hchange := hc
  cases hc with
  | begun =>
    refine hd.sent ho hchange (List.append_nil _).symm hnothing fun c o' ho' e he => ?_
    exact Or.inl ⟨o', ho', he⟩
  | acted hget hact =>
    have hinOrder := ho.inOrder _ (List.mem_of_getElem? hget)
    refine hd.sent ho hchange rfl (fun c e he => ?_) fun c o' ho' e he => ?_
    · exact Guest.isAbout_of_mem_stream ho.inStep hact hinOrder he
    · exact Guest.mem_queue_change hact ho' he
  | stored r u d =>
    have hdiscreet : Operation.IsDiscreet v.world.hub (.persist r u d) := trivial
    refine hd.sent ho hchange rfl (fun c e he => ?_) fun c o' ho' e he => ?_
    · exact Operation.isAbout_of_mem_stream hg hdiscreet he
    · exact World.mem_queue_perform ho' he
  | announced m =>
    have hdiscreet : Operation.IsDiscreet v.world.hub (.broadcast m.room (.chat m)) :=
      Event.isAbout_chat m
    refine hd.sent ho hchange rfl (fun c e he => ?_) fun c o' ho' e he => ?_
    · exact Operation.isAbout_of_mem_stream hg hdiscreet he
    · exact World.mem_queue_perform ho' he
  | around w now hhub =>
    refine hd.sent ho hchange (List.append_nil _).symm hnothing fun c o' ho' e he => ?_
    rw [← hhub]
    exact Or.inl ⟨o', ho', he⟩

/-- Along any run, a venue stays discreet. -/
theorem discreet_run (ho : Orderly v) (hd : Discreet v) (moves : List Move) :
    Discreet (v.run cfg moves) := by
  have hboth : Orderly (v.run cfg moves) ∧ Discreet (v.run cfg moves) := by
    refine run_induction (P := fun v => Orderly v ∧ Discreet v) ⟨ho, hd⟩ ?_ moves
    intro v v' hv hc
    exact ⟨orderly_change hv.1 hc, discreet_change hv.2 hv.1 hc⟩
  exact hboth.2

/-- After any run: every registered connection is a guest's whose token proves the user and
the name that it is registered with, and whose request was for the room; the room exists and
has that user as a member. Every message that was ever queued to a connection is of the
room that the connection is for, and the connection's user is a member of it. Nothing else
is in its queue. -/
theorem messages_stay_among_members (cfg : HubSettings) (seed : List Seed.Room)
    (clock : Instant) (outage : Outage) (moves : List Move) :
    let v := (opening seed clock outage).run cfg moves
    let store := v.world.store
    (∀ c k, v.world.hub.registry.connection? c = some k →
      (∃ g ∈ v.guests, g.id = c ∧ Http.Shows g.site g.request k.room k.participant ∧
        Confirmed k.room k.participant.user g.turns) ∧
      store.roomExists k.room = true ∧ store.isMember k.room k.participant.user = true) ∧
    (∀ c, ∀ e ∈ Sending.stream c v.log, ∃ g ∈ v.guests, ∃ k, g.id = c ∧
      g.phase.handle? = some k ∧ Http.Shows g.site g.request k.room k.participant ∧
      ∀ m ∈ e.messages, m.room = k.room ∧ store.isMember m.room k.participant.user = true) ∧
    (∀ c o, v.world.hub.outboxes[c]? = some o → ∀ e ∈ o.queue, e ∈ Sending.stream c v.log) := by
  intro v store
  have horderly : Orderly v := orderly_run (orderly_opening seed clock outage) moves
  have hvetted : Vetted v := vetted_run (fun g hg => by cases hg) moves
  have hdiscreet : Discreet v :=
    discreet_run (orderly_opening seed clock outage) (discreet_opening seed clock outage) moves
  -- a handle that a guest has is one that it was admitted under
  have hadmitted : ∀ g ∈ v.guests, ∀ k, g.phase.handle? = some k →
      g.Admitted k ∧ store.roomExists k.room = true ∧
        store.isMember k.room k.participant.user = true := by
    intro g hg k hk
    obtain ⟨hguest, htold⟩ := hvetted g hg
    have ha := hguest.admitted k hk
    exact ⟨ha, ha.2.isTrue htold⟩
  refine ⟨fun c k hk => ?_, fun c e he => ?_, hdiscreet.queued⟩
  · obtain ⟨g, hg, rfl, hhandle⟩ := horderly.holds hk
    obtain ⟨ha, hexists, hmember⟩ := hadmitted g hg k hhandle
    exact ⟨⟨g, hg, rfl, ha⟩, hexists, hmember⟩
  · obtain ⟨k, ⟨g, hg, rfl, hhandle⟩, habout⟩ := hdiscreet.about c e he
    obtain ⟨ha, -, hmember⟩ := hadmitted g hg k hhandle
    refine ⟨g, hg, k, rfl, hhandle, ha.1, fun m hm => ?_⟩
    rw [habout m hm]
    exact ⟨rfl, hmember⟩

/-- What ann says in the lobby comes back to her, who is a member. -/
theorem messages_stay_among_members_visit :
    (∃ e ∈ Sending.stream ⟨⟨1⟩⟩ (visited coming).log, e.messages.map (·.content) = ["hello"]) ∧
      ∀ e ∈ Sending.stream ⟨⟨1⟩⟩ (visited coming).log, ∃ k : Handle, ∀ m ∈ e.messages,
        m.room = k.room ∧
          (visited coming).world.store.isMember m.room k.participant.user = true := by
  have hsaid : ∃ e ∈ Sending.stream ⟨⟨1⟩⟩ (visited coming).log,
      e.messages.map (·.content) = ["hello"] := by decide +kernel
  obtain ⟨-, habout, -⟩ := messages_stay_among_members .default
    [⟨⟨⟨7⟩⟩, "lobby", [⟨⟨⟨5⟩⟩, "ann"⟩]⟩] .epoch .none coming
  refine ⟨hsaid, fun e he => ?_⟩
  obtain ⟨g, -, k, -, -, -, hk⟩ := habout _ e he
  exact ⟨k, hk⟩

end Venue

end RoomHub
