import RoomHub.Proofs.Venue.Order

/-!
# Sessions leak nothing

What is left behind by guests whose sessions are over: nothing. A connection is registered
exactly between its attach and its detach (`InOrder.registered_iff`); a session that is over
has had both; and a registry in which nobody is registered, with a tracker that agrees with
it, is the empty one with the empty tracker (`InStep.eq_empty`).

> `sessions_leak_nothing`: all of this after any run.
-/

namespace RoomHub

open Std (ExtTreeMap)

/-! ## An empty hub -/

/-- Where nobody is registered, there is nothing in the registry nor in the tracker. -/
theorem Hub.InStep.eq_empty {h : Hub} (hi : h.InStep)
    (hnobody : ∀ c, h.registry.connection? c = none) :
    h.registry = .empty ∧ h.calls = .empty := by
  have hnone : ∀ c, h.registry.member? c = none := by
    intro c
    exact Option.map_eq_none_iff.mp (hnobody c)
  have hidle := Hub.inStep_idle ∅
  -- a registry is determined by its entries, and so is a tracker
  have hregistry : h.registry = .empty := by
    refine hi.mirrored.ext hidle.mirrored fun c => ?_
    rw [hnone c]
    simp [Registry.member?, Registry.empty]
  have htracker : h.calls = .empty := by
    refine hi.kept.ext hidle.kept fun r u => ?_
    -- an entry of the tracker counts at least one registered connection
    have hcount : h.calls.count r u = 0 := by
      rw [hi.counted, hregistry]
      exact (hidle.counted r u).symm
    have hslot : (h.calls.slot? r u).isSome = false := by
      rw [Bool.eq_false_iff, ne_eq, hi.kept.isSome_slot]
      omega
    rw [Option.isSome_eq_false_iff, Option.isNone_iff_eq_none] at hslot
    rw [hslot]
    simp [CallTracker.slot?, CallTracker.users, CallTracker.empty]
  exact ⟨hregistry, htracker⟩

/-! ## Where everybody is -/

namespace Phase

/-- The session of a phase, once it is over. -/
def finished? : Phase → Option Session
  | ended s _ | swept s _ => some s
  | _ => none

end Phase

/-- The passages of a task are those of its turns that let a connection in or out. -/
theorem mem_passages {turns : List Turn} {turn : Turn} :
    turn ∈ passages turns ↔ turn ∈ turns ∧ turn.op.isPassage = true := List.mem_filter

/-- A task has let a connection in. -/
def Attached (turns : List Turn) : Prop := ∃ k, (⟨.attach k, true⟩ : Turn) ∈ turns

/-- A task has asked for a connection to be let out. -/
def Detached (turns : List Turn) : Prop := ∃ c gone, (⟨.detach c, gone⟩ : Turn) ∈ turns

namespace Guest

variable {h : Hub} {g : Guest} {s : Session}

/-- A task whose connection is outside has not let it in. -/
theorem not_attached_of_outside (hout : Outside h g.id g.turns) : ¬Attached g.turns := by
  intro hattached
  obtain ⟨k, hmem⟩ := hattached
  have hpassage := mem_passages.mpr ⟨hmem, rfl⟩
  rw [hout.passages] at hpassage
  cases hpassage

/-- A task whose connection is inside has let it in, and that is all. -/
theorem attached_of_inside {k : Handle} (hin : Inside h k g.turns) :
    Attached g.turns ∧ ¬Detached g.turns := by
  have hattach : (⟨.attach k, true⟩ : Turn) ∈ passages g.turns := by
    rw [hin.passages]
    exact List.mem_cons_self
  refine ⟨⟨k, (mem_passages.mp hattach).1⟩, fun hdetached => ?_⟩
  obtain ⟨c, gone, hmem⟩ := hdetached
  have hpassage := mem_passages.mpr ⟨hmem, rfl⟩
  -- the one passage of the task is its attach
  rw [hin.passages] at hpassage
  have hsame := List.mem_singleton.mp hpassage
  cases hsame

/-- A task whose connection is gone has asked for that. -/
theorem detached_of_gone {k : Handle} {after : List Turn} (hgone : Gone h k g.turns after) :
    Detached g.turns := by
  obtain ⟨m, before, -, -, hturns⟩ := hgone.out
  refine ⟨k.id, some m, ?_⟩
  rw [hturns]
  exact List.mem_append_right _ List.mem_cons_self

/-- A connection is registered exactly when its guest's task has let it in and not asked
for it to be let out. -/
theorem InOrder.registered_iff (ho : g.InOrder h) :
    (h.registry.connection? g.id).isSome = true ↔ Attached g.turns ∧ ¬Detached g.turns := by
  rcases ho.position with hout | ⟨k, hid, -, hin⟩ | ⟨k, after, hid, hgone⟩
  · have hnever := not_attached_of_outside hout
    rw [hout.free]
    exact ⟨fun habsurd => (nomatch habsurd), fun hboth => absurd hboth.1 hnever⟩
  · have hboth := attached_of_inside hin
    rw [← hid, hin.registered]
    exact ⟨fun _ => hboth, fun _ => rfl⟩
  · have hdetached := detached_of_gone hgone
    rw [← hid, hgone.free]
    exact ⟨fun habsurd => (nomatch habsurd), fun hboth => absurd hdetached hboth.2⟩

/-- A guest whose session is over has been through everything. -/
theorem InOrder.finished (ho : g.InOrder h) (hs : g.phase.finished? = some s) :
    s.handle.id = g.id ∧ Finished h g.stages g.turns s := by
  obtain ⟨id, site, upgradable, request, turns, stages, phase⟩ := g
  cases phase with
  | ended t d =>
    cases hs
    exact ⟨ho.1, ho.2.2.2⟩
  | swept t d =>
    cases hs
    exact ho
  | asking | answered | unopened | joining | refused | live | acting | leaving => cases hs

/-- A guest who never got a handle is not registered. -/
theorem InOrder.free_of_handle?_eq_none (ho : g.InOrder h) (hnone : g.phase.handle? = none) :
    h.registry.connection? g.id = none := by
  cases hk : h.registry.connection? g.id with
  | none => rfl
  | some k =>
    rw [ho.handle?_of_registered hk] at hnone
    cases hnone

end Guest

/-! ## Every run -/

namespace Venue

variable {v : Venue} {c : ConnectionId}

/-- Of those who are registered one may ask the guests. -/
theorem Orderly.registered_iff (ho : Orderly v) :
    (v.world.hub.registry.connection? c).isSome = true ↔
      ∃ g ∈ v.guests, g.id = c ∧ Attached g.turns ∧ ¬Detached g.turns := by
  constructor
  · intro hregistered
    have hne : v.world.hub.registry.connection? c ≠ none := by
      intro hnone
      rw [hnone] at hregistered
      cases hregistered
    obtain ⟨g, hmem, rfl⟩ := ho.known c hne
    exact ⟨g, hmem, rfl, (ho.inOrder g hmem).registered_iff.mp hregistered⟩
  · intro hguest
    obtain ⟨g, hmem, rfl, hturns⟩ := hguest
    exact (ho.inOrder g hmem).registered_iff.mpr hturns

/-- A connection that is not registered is in no room and in no call. -/
theorem Orderly.nowhere (ho : Orderly v) (hfree : v.world.hub.registry.connection? c = none)
    (r : RoomId) (u : UserId) :
    c ∉ v.world.hub.registry.members r ∧ c ∉ v.world.hub.registry.callTable r u := by
  have hg := ho.inStep.mirrored
  have hnone : v.world.hub.registry.member? c = none := Option.map_eq_none_iff.mp hfree
  constructor
  · intro hin
    obtain ⟨m, hm⟩ := Option.isSome_iff_exists.mp (ExtTreeMap.mem_iff_isSome_getElem?.mp hin)
    rw [hg.getElem?_members, hnone] at hm
    cases hm.1
  · intro hin
    rw [ExtTreeMap.mem_iff_isSome_getElem?, hg.getElem?_callTable, hnone] at hin
    cases hin

/-- Where everybody who got a handle is over, nobody is registered. -/
theorem Orderly.free_of_finished (ho : Orderly v)
    (hall : ∀ g ∈ v.guests, g.phase.handle?.isSome = true → g.phase.finished?.isSome = true)
    (c : ConnectionId) : v.world.hub.registry.connection? c = none := by
  refine Classical.byContradiction fun hne => ?_
  obtain ⟨g, hmem, rfl⟩ := ho.known c hne
  have hinOrder := ho.inOrder g hmem
  cases hk : g.phase.handle? with
  | none => exact hne (hinOrder.free_of_handle?_eq_none hk)
  | some k =>
    obtain ⟨s, hs⟩ := Option.isSome_iff_exists.mp (hall g hmem (by rw [hk]; rfl))
    obtain ⟨hid, hfinished⟩ := hinOrder.finished hs
    obtain ⟨report, hgone⟩ := hfinished.left
    have hfree := hgone.free
    rw [hid] at hfree
    exact hne hfree

/-- After any run: a connection is registered exactly between the attach and the detach of
its guest. A session that is over has detached its connection once, successfully, and told
the room after that and nothing else; its connection is in no room and in no count, its
close signal is tripped, and it has advanced through all stages. No connection is ever
refused. Once every guest who got a handle is over, nothing is left. -/
theorem sessions_leak_nothing (cfg : HubSettings) (seed : List Seed.Room) (clock : Instant)
    (outage : Outage) (moves : List Move) :
    let v := (opening seed clock outage).run cfg moves
    let h := v.world.hub
    (v.guests.map (·.id)).Nodup ∧
    (∀ c, (h.registry.connection? c).isSome = true ↔
      ∃ g ∈ v.guests, g.id = c ∧ Attached g.turns ∧ ¬Detached g.turns) ∧
    (∀ g ∈ v.guests, ∀ s, g.phase.finished? = some s →
      (∃ m before report, m.handle = s.handle ∧
        passages g.turns = [⟨.attach s.handle, true⟩, ⟨.detach s.handle.id, some m⟩] ∧
        g.turns = before ++ [⟨.detach s.handle.id, some m⟩,
          ⟨.broadcastPresence s.handle.room .room, report⟩]) ∧
      s.handle.id = g.id ∧
      (∀ r, g.id ∉ h.registry.members r) ∧
      (∀ r u, h.calls.count r u = (h.registry.callTable r u).size ∧
        g.id ∉ h.registry.callTable r u) ∧
      h.isCancelled g.id = true ∧
      g.stages = [(true, .active), (true, .draining), (true, .closed)]) ∧
    (∀ g ∈ v.guests, ∀ k, g.phase ≠ .refused k) ∧
    ((∀ g ∈ v.guests, g.phase.handle?.isSome = true → g.phase.finished?.isSome = true) →
      h.registry = .empty ∧ h.calls = .empty) := by
  intro v h
  have ho : Orderly v := orderly_run (orderly_opening seed clock outage) moves
  refine ⟨ho.distinct, fun c => ho.registered_iff, fun g hmem s hs => ?_, fun g hmem k hp => ?_,
    fun hall => ho.inStep.eq_empty (ho.free_of_finished hall)⟩
  · obtain ⟨hid, hfinished⟩ := (ho.inOrder g hmem).finished hs
    obtain ⟨report, hfree, m, before, hm, hpassages, hturns⟩ := hfinished.left
    rw [hid] at hfree
    refine ⟨⟨m, before, report, hm, hpassages, hturns⟩, hid,
      fun r => (ho.nowhere hfree r default).1,
      fun r u => ⟨ho.inStep.counted r u, (ho.nowhere hfree r u).2⟩, ?_, hfinished.stages⟩
    rw [← hid]
    exact hfinished.cancelled
  · -- no guest is in order who was turned away
    have hin := ho.inOrder g hmem
    unfold Guest.InOrder at hin
    rw [hp] at hin
    exact hin

/-- After a visit nothing is left. -/
theorem sessions_leak_nothing_visit :
    (∃ g ∈ (visited (coming ++ going)).guests, g.phase.finished?.isSome = true) ∧
      (visited (coming ++ going)).world.hub.registry = .empty ∧
      (visited (coming ++ going)).world.hub.calls = .empty := by
  have hsome : ∃ g ∈ (visited (coming ++ going)).guests, g.phase.finished?.isSome = true := by
    decide +kernel
  have hover : ∀ g ∈ (visited (coming ++ going)).guests, g.phase.finished?.isSome = true := by
    decide +kernel
  obtain ⟨-, -, -, -, hnothing⟩ := sessions_leak_nothing .default
    [⟨⟨⟨7⟩⟩, "lobby", [⟨⟨⟨5⟩⟩, "ann"⟩]⟩] .epoch .none (coming ++ going)
  refine ⟨hsome, ?_⟩
  unfold visited at hover ⊢
  exact hnothing fun g hg _ => hover g hg

end Venue

end RoomHub
