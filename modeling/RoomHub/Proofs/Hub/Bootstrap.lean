import RoomHub.Proofs.Hub.Filling
import RoomHub.Proofs.Hub.Sparing
import RoomHub.Proofs.Interludes
import RoomHub.Proofs.Scene.Announcements
import RoomHub.Proofs.Scene.Readings
import RoomHub.Proofs.Settings

/-!
# What a newcomer is told

A connection that joins a room is told who is there, who is in the call, what was said lately,
and once more who is in the call. When no step of the hub comes in between, all of this is one
round of dispatches from the hub that attaching left, so each connection can be looked at by
itself. A newcomer whose outbox is empty has room for all of it under any settings that are
accepted, however full the outboxes of the others are.

> `amid_join`: a joining, in one go on the hub, is an attachment and a round of dispatches;
> `length_bootstrap_le`: a newcomer is never told more events than an outbox holds at least;
> `bootstrap_is_exact`: what the newcomer has in its queue, what the others are offered, and
> that somebody who has joined already changes nothing.
-/

namespace RoomHub

namespace Hub

variable {h : Hub} {c : ConnectionId} {r : RoomId}

/-- Who is in a room after an attachment was there before or has just come. -/
theorem isIn_attached (hg : h.registry.Mirrored) {k : Handle}
    (hfree : h.registry.member? k.id = none) :
    (h.attach k).2.IsIn c r ↔ (c = k.id ∧ k.room = r) ∨ (c ≠ k.id ∧ h.IsIn c r) := by
  rcases attach_cases hg k with ⟨htaken, -⟩ | ⟨-, heq⟩
  · rw [hfree] at htaken
    cases htaken
  · unfold IsIn
    rw [heq]
    simp only [Registry.attached_member? hg hfree]
    by_cases hck : c = k.id
    · simp [hck]
    · simp [hck, Ne.symm hck]

end Hub

/-! ## A joining in one go on the hub -/

namespace Membership

open Program (step done inTurn Interludes OffHub amid_done_of_offHub amid_step_of_offHub
  amid_inTurn undergoAll_gaps undergoAll_take)

variable {limit : Nat} {k : Handle} {gaps : List (List Deed)}

/-- What the answer to the question for the recent messages has a newcomer told. -/
def recent : Except StoreError (List Message) → List Event
  | .ok ms => [.history ms]
  | .error _ => []

/-- What a newcomer is told alone, after the whole room was told. -/
def welcome (callers : List Participant) (found : Except StoreError (List Message)) : List Event :=
  recent found ++ [.callParticipants callers]

/-- All that a newcomer is told. -/
def bootstrap (people callers : List Participant) (found : Except StoreError (List Message)) :
    List Event :=
  [.participants people, .callParticipants callers] ++ welcome callers found

/-- A newcomer is never told more events than an outbox holds at least. -/
theorem length_bootstrap_le (people callers : List Participant)
    (found : Except StoreError (List Message)) :
    (bootstrap people callers found).length ≤ bootstrapEvents := by
  cases found <;> simp [bootstrap, welcome, recent, bootstrapEvents]

/-- What is pushed to a newcomer once the store has answered. -/
def pushes (k : Handle) (found : Except StoreError (List Message)) : List Operation :=
  (recent found).map (.pushTo k.id) ++ [.pushCallParticipants k.id]

/-- The steps of the hub that these pushes are. -/
def pushSteps (k : Handle) (found : Except StoreError (List Message)) : List Hub.Step :=
  (recent found).map (.pushTo k.id) ++ [.pushCallParticipants k.id]

/-- The operations of a bootstrap are the steps that the hub sees of them, one by one. -/
theorem forall₂_pushes (k : Handle) (found : Except StoreError (List Message)) :
    List.Forall₂ (fun op a => op.step? = some a) (pushes k found) (pushSteps k found) := by
  cases found <;> simp [pushes, pushSteps, recent, Operation.step?]

/-- The steps of the hub that tell of a joining. -/
def tellings (k : Handle) (found : Except StoreError (List Message)) : List Hub.Step :=
  .broadcastPresence k.room .room :: pushSteps k found

/-- What a bootstrap tells is told by steps that only send. -/
theorem isSending_of_mem_tellings (k : Handle) (found : Except StoreError (List Message)) :
    ∀ a ∈ tellings k found, a.isSending = true := by
  cases found <;> simp [tellings, pushSteps, recent, Hub.Step.isSending]

/-- A joining is an attachment, and four operations at most whose answers do not matter. -/
theorem join_eq_inTurn (limit : Nat) (k : Handle) :
    join limit k = step (.attach k) fun
      | false => done false
      | true => step (.broadcastPresence k.room .room) fun _ =>
        step (.recentMessages k.room limit) fun found => inTurn (pushes k found) true := by
  rw [join_eq]
  refine congrArg (step _) (funext fun attached => ?_)
  cases attached with
  | false => rfl
  | true =>
    refine congrArg (step _) (funext fun _ => congrArg (step _) (funext fun found => ?_))
    cases found <;> rfl

/-- What the store answers when the newcomer asks for the recent messages. -/
def answered (limit : Nat) (k : Handle) (gaps : List (List Deed)) (w : World) :
    Except StoreError (List Message) :=
  ((w.undergoAll (gaps.take 3).flatten).perform (.recentMessages k.room limit)).1

/-- A joining that is let in attaches and then tells, whatever else happens to the store. -/
theorem amid_join (limit : Nat) (hgaps : OffHub gaps) {w : World}
    (hin : (w.hub.attach k).1 = true) :
    let found := answered limit k gaps w
    let course := (join limit k).amid gaps w
    course.result = true ∧
      course.sent = Hub.sendsAll (tellings k found) (w.hub.attach k).2 ∧
      course.world =
        (w.undergoAll gaps.flatten).withHub (Hub.run (tellings k found) (w.hub.attach k).2) := by
  intro found course
  have hattach : ∀ v : World, ((v.withHub w.hub).perform (.attach k)).1 = true := fun _ => hin
  -- the store is asked in the world that the first three interludes left
  have htaken : ((w.undergoAll (gaps.headD [])).undergoAll (gaps.tail.headD [])).undergoAll
      (gaps.tail.tail.headD []) = w.undergoAll (gaps.take 3).flatten := by
    rw [← undergoAll_take, ← undergoAll_take, ← undergoAll_take]
    rfl
  have hasked : ∀ h : Hub, ((w.undergoAll (gaps.take 3).flatten).withHub h).perform
      (.recentMessages k.room limit) = (found, (w.undergoAll (gaps.take 3).flatten).withHub h) :=
    fun _ => rfl
  have hcourse : course = (join limit k).amid gaps (w.withHub w.hub) := rfl
  rw [join_eq_inTurn, amid_step_of_offHub hgaps (a := .attach k) rfl] at hcourse
  simp only [hattach] at hcourse
  rw [amid_step_of_offHub hgaps.tail (a := .broadcastPresence k.room .room) rfl] at hcourse
  simp only [Program.amid_step, World.undergoAll_withHub hgaps.tail.tail.headD, htaken,
    hasked] at hcourse
  obtain ⟨hresult, hsent, hworld⟩ := amid_inTurn (forall₂_pushes k found) hgaps.tail.tail.tail true
    (w.undergoAll (gaps.take 3).flatten)
    (Hub.act (.broadcastPresence k.room .room) (Hub.act (.attach k) w.hub))
  have hafter : (w.hub.attach k).2 = Hub.act (.attach k) w.hub := rfl
  rw [hcourse, hafter]
  refine ⟨hresult, ?_, ?_⟩
  · -- neither attaching nor asking the store sends anything
    have hattaching : Hub.sends (.attach k) w.hub = [] := rfl
    have hasking : ∀ h : Hub, (Operation.recentMessages k.room limit).sends h = [] := fun _ => rfl
    simp only [Program.Course.cons_sent, hsent, hattaching, hasking, List.nil_append, tellings,
      Hub.sendsAll_cons]
  · simp only [Program.Course.cons_world, hworld, tellings, Hub.run_cons]
    rw [← htaken, undergoAll_gaps, undergoAll_gaps, undergoAll_gaps]

/-- A joining that is not let in ends there. -/
theorem amid_join_of_registered (hgaps : OffHub gaps) {w : World}
    (hin : w.hub.attach k = (false, w.hub)) :
    (join limit k).amid gaps w = ⟨false, [⟨.attach k, false⟩], [], w.undergoAll gaps.flatten⟩ := by
  have hattach : ∀ v : World, ((v.withHub w.hub).perform (.attach k)).1 = false :=
    fun _ => congrArg (·.1) hin
  have hact : Hub.act (.attach k) w.hub = w.hub := congrArg (·.2) hin
  have hhub : (w.undergoAll gaps.flatten).hub = w.hub := World.hub_undergoAll hgaps.flatten w
  show (join limit k).amid gaps (w.withHub w.hub) = _
  rw [join_eq, amid_step_of_offHub hgaps (a := .attach k) rfl]
  simp only [hattach, hact]
  rw [amid_done_of_offHub hgaps.tail, undergoAll_gaps, ← hhub]
  rfl

/-! ## Who is told what -/

/-- From a world in which a newcomer has its outbox, it was let in and told all there is to
tell. Rosters are those of the hub after the attachment. -/
structure Bootstrapped (w : World) (k : Handle) (found : Except StoreError (List Message))
    (course : Program.Course Bool) : Prop where
  accepted : course.result = true
  registry : course.world.hub.registry = (w.hub.attach k).2.registry
  calls : course.world.hub.calls = w.hub.calls
  listed : ∃ p ∈ (w.hub.attach k).2.participants k.room, p.user = k.participant.user
  answers : Sending.attempts k.id course.sent =
    (bootstrap ((w.hub.attach k).2.participants k.room)
      ((w.hub.attach k).2.callParticipants k.room) found).map (·, .queued)
  newcomer : course.world.hub.outboxes[k.id]? = (w.hub.outboxes[k.id]?).map
    (·.queued (bootstrap ((w.hub.attach k).2.participants k.room)
      ((w.hub.attach k).2.callParticipants k.room) found))
  neighbours : ∀ c, c ≠ k.id → w.hub.IsIn c k.room →
    (Sending.attempts c course.sent).map (·.1) = (w.hub.attach k).2.told k.room .room ∧
      course.world.hub.outboxes[c]? = (w.hub.outboxes[c]?).map
        fun o => (o.offerAll ((w.hub.attach k).2.told k.room .room)).2
  others : ∀ c, c ≠ k.id → ¬w.hub.IsIn c k.room →
    Sending.attempts c course.sent = [] ∧ course.world.hub.outboxes[c]? = w.hub.outboxes[c]?

/-- What the tellings of a joining mean for a connection. -/
theorem meantFor_tellings {h : Hub} (hg : h.registry.Mirrored)
    (hin : h.registry.connection? k.id = some k) (found : Except StoreError (List Message))
    (c : ConnectionId) :
    Hub.meantFor c ((tellings k found).flatMap (Hub.dispatches · h)) =
      (if h.IsIn c k.room then h.told k.room .room else []) ++
        if c = k.id then welcome (h.callParticipants k.room) found else [] := by
  have hpushes : (pushSteps k found).flatMap (Hub.dispatches · h) =
      (welcome (h.callParticipants k.room) found).map (·, [k.id]) := by
    cases found <;> simp [pushSteps, welcome, recent, Hub.dispatches, hin]
  unfold tellings
  rw [List.flatMap_cons, hpushes, Hub.dispatches_broadcastPresence]
  unfold Hub.meantFor
  rw [List.flatMap_append]
  exact congrArg₂ (· ++ ·) (Hub.meantFor_room hg _ _) (Hub.meantFor_singleton _ _)

/-- A newcomer with room for all it is told is let in and told it. -/
theorem bootstrapped_of_fits (hgaps : OffHub gaps) {w : World} (hg : w.hub.registry.Mirrored)
    (hfree : w.hub.registry.member? k.id = none) {o : Outbox}
    (ho : w.hub.outboxes[k.id]? = some o) (hfits : bootstrapEvents ≤ o.free) :
    Bootstrapped w k (answered limit k gaps w) ((join limit k).amid gaps w) := by
  obtain ⟨hattached, hregistered⟩ := Hub.attach_of_free hg (Option.map_eq_none_iff.mpr hfree)
  obtain ⟨hresult, hsent, hworld⟩ := amid_join limit hgaps hattached
  have hg₁ : (w.hub.attach k).2.registry.Mirrored := Hub.mirrored_act (a := .attach k) hg
  have hin : ∀ c, (w.hub.attach k).2.IsIn c k.room ↔ c = k.id ∨ (c ≠ k.id ∧ w.hub.IsIn c k.room) :=
    fun c => by rw [Hub.isIn_attached hg hfree, and_iff_left rfl]
  -- all that is sent is one round of dispatches from the hub after the attachment
  have hround := Hub.run_of_isSending (isSending_of_mem_tellings k (answered limit k gaps w))
    (w.hub.attach k).2
  rw [← hsent] at hround
  have hattempts : ∀ c, Sending.attempts c ((join limit k).amid gaps w).sent = _ := fun c =>
    (congrArg (Sending.attempts c ·.1) hround).trans (Hub.attempts_dispatch _ _)
  have hhub : ((join limit k).amid gaps w).world.hub = _ :=
    (congrArg World.hub hworld).trans (congrArg (·.2) hround)
  have houtboxes : ∀ c, ((join limit k).amid gaps w).world.hub.outboxes[c]? = _ := fun c =>
    (congrArg (·.outboxes[c]?) hhub).trans (Hub.outboxes_dispatch _ _)
  have hsame : (w.hub.attach k).2.outboxes = w.hub.outboxes := rfl
  simp only [meantFor_tellings hg₁ hregistered, hin, hsame] at hattempts houtboxes
  have hroom : ∀ people callers,
      o.offerAll (bootstrap people callers (answered limit k gaps w)) = _ := fun people callers =>
    Outbox.offerAll_of_fits (Nat.le_trans (length_bootstrap_le people callers _) hfits)
  exact
    { accepted := hresult
      registry := by rw [hhub, Hub.dispatch_registry]
      calls := by rw [hhub, Hub.dispatch_calls]; rfl
      listed := by
        obtain ⟨m, hm, hhandle⟩ := Option.map_eq_some_iff.mp hregistered
        exact hg₁.listed_iff.mpr ⟨k.id, m, hm, congrArg (·.room) hhandle,
          congrArg (·.participant.user) hhandle⟩
      answers := by
        rw [hattempts k.id, if_pos (Or.inl rfl), if_pos rfl]
        show Hub.answers w.hub k.id (bootstrap _ _ _) = _
        unfold Hub.answers
        rw [ho]
        exact congrArg (·.1) (hroom _ _)
      newcomer := by
        rw [houtboxes k.id, if_pos (Or.inl rfl), if_pos rfl]
        rw [ho, Option.map_some, Option.map_some]
        exact congrArg (some ·.2) (hroom _ _)
      neighbours := by
        intro c hne hc
        rw [hattempts c, houtboxes c, if_pos (Or.inr ⟨hne, hc⟩), if_neg hne, List.append_nil,
          Hub.answers_map_fst]
        exact ⟨rfl, rfl⟩
      others := by
        intro c hne hc
        have hout : ¬(c = k.id ∨ (c ≠ k.id ∧ w.hub.IsIn c k.room)) := fun h =>
          h.elim hne fun h => hc h.2
        rw [hattempts c, houtboxes c, if_neg hout, if_neg hne, List.append_nil, Hub.answers_nil]
        exact ⟨rfl, Option.map_id'⟩ }

/-- A newcomer with an empty outbox of an accepted capacity, and a joining that no other step
of the hub interrupts, whatever happens to the store meanwhile and whoever is in the room. The
newcomer is kept, and its queue is exactly what it is told. The others of its room are offered
the two rosters and nobody else is offered anything. Somebody who is registered already is
refused before anything else is asked, and nothing has changed then. -/
theorem bootstrap_is_exact (cfg : HubSettings) (hcfg : cfg.validate = .ok cfg)
    (outboxes : Std.ExtTreeMap ConnectionId Outbox) (steps : List Hub.Step) (store : Store)
    (clock : Instant) (outage : Outage) (k : Handle) (gaps : List (List Deed))
    (hgaps : OffHub gaps) :
    let h := Hub.run steps (Hub.idle outboxes)
    (h.registry.member? k.id = none →
      ∃ o, Outbox.create? cfg.capacity = some o ∧
        let w : World := ⟨h.addOutbox k.id o, store, clock, outage⟩
        let found := answered cfg.historyLimit k gaps w
        let course := (join cfg.historyLimit k).amid gaps w
        Bootstrapped w k found course ∧
          course.world.hub.isCancelled k.id = false ∧
          (course.world.hub.outboxes[k.id]?).map (·.queue) =
            some (bootstrap ((h.attach k).2.participants k.room)
              ((h.attach k).2.callParticipants k.room) found) ∧
          course.world = (w.undergoAll gaps.flatten).withHub course.world.hub) ∧
    ((h.registry.member? k.id).isSome = true →
      let w : World := ⟨h, store, clock, outage⟩
      (join cfg.historyLimit k).amid gaps w =
        ⟨false, [⟨.attach k, false⟩], [], w.undergoAll gaps.flatten⟩) := by
  intro h
  have hg : h.registry.Mirrored := Hub.mirrored_run steps Registry.mirrored_empty
  refine ⟨fun hfree => ?_, fun htaken => ?_⟩
  · obtain ⟨-, -, -, hpos, hcapacity, -, -⟩ := HubSettings.validate_eq_ok.mp hcfg
    refine ⟨⟨cfg.capacity, [], .listening, false, hpos⟩, dif_pos hpos, ?_⟩
    intro w found course
    have ho : w.hub.outboxes[k.id]? = some ⟨cfg.capacity, [], .listening, false, hpos⟩ :=
      Std.ExtTreeMap.getElem?_insert_self
    have hboot : Bootstrapped w k found course := bootstrapped_of_fits hgaps hg hfree ho hcapacity
    have hnewcomer := hboot.newcomer
    rw [ho] at hnewcomer
    refine ⟨hboot, ?_, ?_, ?_⟩
    · unfold Hub.isCancelled
      rw [hnewcomer]
      rfl
    · rw [hnewcomer]
      rfl
    · obtain ⟨hattached, -⟩ := Hub.attach_of_free hg (Option.map_eq_none_iff.mpr hfree)
      have hworld : course.world = (w.undergoAll gaps.flatten).withHub
          (Hub.run (tellings k found) (w.hub.attach k).2) :=
        (amid_join cfg.historyLimit hgaps hattached).2.2
      rw [hworld, World.withHub_hub]
  · rcases Hub.attach_cases hg k with ⟨-, hrefused⟩ | ⟨hfree, -⟩
    · exact amid_join_of_registered hgaps hrefused
    · rw [hfree] at htaken
      cases htaken

/-- Settings with the smallest outboxes that are accepted. -/
def smallest : HubSettings := { HubSettings.default with capacity := 4 }

theorem smallest_capacity_pos : 0 < smallest.capacity := by decide

/-- An outbox of that size that nothing was offered to. -/
def untouched : Outbox := ⟨smallest.capacity, [], .listening, false, smallest_capacity_pos⟩

def ann : Handle := ⟨⟨⟨1⟩⟩, ⟨⟨7⟩⟩, ⟨⟨⟨5⟩⟩, "ann"⟩⟩

def bob : Handle := ⟨⟨⟨2⟩⟩, ⟨⟨7⟩⟩, ⟨⟨⟨6⟩⟩, "bob"⟩⟩

def carol : Handle := ⟨⟨⟨3⟩⟩, ⟨⟨7⟩⟩, ⟨⟨⟨8⟩⟩, "carol"⟩⟩

/-- There is no room left in ann's outbox, and there is in bob's. -/
def crowdOutboxes : Std.ExtTreeMap ConnectionId Outbox :=
  (Std.ExtTreeMap.insert ∅ ann.id ⟨1, [.history []], .listening, false, Nat.one_pos⟩).insert
    bob.id untouched

/-- Ann is in the call, and bob's close signal is tripped. -/
def crowdSteps : List Hub.Step :=
  [.attach ann, .attach bob, .setInCall ann.id true, .cancel bob.id]

def crowd : Hub := Hub.run crowdSteps (Hub.idle crowdOutboxes)

/-- While carol joins, ann becomes a member and has a text stored. -/
def meanwhile : List (List Deed) :=
  [[.createRoom ⟨⟨7⟩⟩], [.addMember ⟨⟨7⟩⟩ ⟨⟨5⟩⟩ "ann"],
    [.persist ⟨⟨7⟩⟩ ⟨⟨5⟩⟩ ⟨"hi", .text, none⟩]]

/-- The world that carol finds. -/
def crowded : World :=
  ⟨crowd.addOutbox carol.id untouched, .empty, .epoch, .none⟩

/-- How carol comes in. -/
def entrance : Program.Course Bool := (join smallest.historyLimit carol).amid meanwhile crowded

/-- A newcomer among full and shut outboxes, and somebody who comes a second time. -/
theorem bootstrap_is_exact_crowd :
    smallest.validate = .ok smallest ∧ OffHub meanwhile ∧
      crowd.registry.member? carol.id = none ∧
      Bootstrapped crowded carol (answered smallest.historyLimit carol meanwhile crowded) entrance ∧
      (entrance.world.hub.outboxes[carol.id]?).map (·.queue) =
        some (bootstrap ((crowd.attach carol).2.participants ⟨⟨7⟩⟩) [ann.participant]
          (.ok [⟨1, ⟨⟨7⟩⟩, ⟨⟨5⟩⟩, "ann", "hi", .text, none, .epoch⟩])) ∧
      entrance.world.hub.isCancelled ann.id = true ∧
      (crowd.registry.member? ann.id).isSome = true ∧
      (join smallest.historyLimit ann).amid [] ⟨crowd, .empty, .epoch, .none⟩ =
        ⟨false, [⟨.attach ann, false⟩], [], ⟨crowd, .empty, .epoch, .none⟩⟩ := by
  have hvalid : smallest.validate = .ok smallest :=
    HubSettings.validate_eq_ok.mpr (by decide +kernel)
  have hoff : OffHub meanwhile := by
    unfold OffHub Interludes
    decide
  have hfree : crowd.registry.member? carol.id = none := by decide +kernel
  have htaken : (crowd.registry.member? ann.id).isSome = true := by decide +kernel
  obtain ⟨hnew, -⟩ := bootstrap_is_exact smallest hvalid crowdOutboxes crowdSteps .empty .epoch
    .none carol meanwhile hoff
  obtain ⟨-, hagain⟩ := bootstrap_is_exact smallest hvalid crowdOutboxes crowdSteps .empty .epoch
    .none ann [] .nil
  obtain ⟨o, ho, hboot, -, hqueue, -⟩ := hnew hfree
  obtain rfl : untouched = o := Option.some.inj ho
  have hcallers : (crowd.attach carol).2.callParticipants ⟨⟨7⟩⟩ = [ann.participant] := by
    decide +kernel
  have hfound : answered smallest.historyLimit carol meanwhile crowded =
      .ok [⟨1, ⟨⟨7⟩⟩, ⟨⟨5⟩⟩, "ann", "hi", .text, none, .epoch⟩] := rfl
  rw [← hcallers, ← hfound]
  exact ⟨hvalid, hoff, hfree, hboot, hqueue, by decide +kernel, htaken, hagain htaken⟩

end Membership

end RoomHub
