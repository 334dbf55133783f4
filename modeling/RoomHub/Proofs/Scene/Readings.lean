import Mathlib.Data.List.Induction
import RoomHub.Proofs.Hub.CallRoster
import RoomHub.Proofs.Scene.Moves
import RoomHub.Proofs.Venue.Admission

/-!
# Lists that are read one after the other

The people of a room are read with three operations, and between two of them other tasks may
step in. Each answer of a task was true of one moment, and the moments come in the order of
the answers (`exists_moment`). That they are different moments can be seen:

> `presence_is_torn`: a person may be listed in the call and not be listed as connected, so
> the result is no snapshot of any one moment;
> `presence_is_read_in_three_moments`: each list is that of its moment, and who is listed in
> the call only was let in between the second and the third.
-/

namespace RoomHub

open Program (step done)

/-! ## Who is listed -/

namespace Registry

variable {g : Registry} {r : RoomId} {u : UserId}

/-- The people of a room are the users with a connection to it. -/
theorem Mirrored.listed_iff (hg : Mirrored g) :
    (∃ p ∈ g.participants r, p.user = u) ↔
      ∃ c m, g.member? c = some m ∧ m.handle.room = r ∧ m.handle.participant.user = u := by
  rw [participants_eq]
  simp only [Participant.mem_sort, List.mem_map, Prod.exists,
    Std.ExtTreeMap.mem_toList_iff_getElem?_eq_some, getElem?_shown, Option.map_eq_some_iff]
  constructor
  · rintro ⟨p, ⟨v, p', ⟨h, hfind, rfl⟩, rfl⟩, rfl⟩
    have hmem : h ∈ g.connections r := List.mem_reverse.mp (List.mem_of_find?_eq_some hfind)
    obtain ⟨hreg, hroom⟩ := hg.mem_connections.mp hmem
    obtain ⟨m, hm, rfl⟩ := Option.map_eq_some_iff.mp hreg
    exact ⟨m.handle.id, m, hm, hroom, rfl⟩
  · rintro ⟨c, m, hm, hroom, rfl⟩
    have hmem : m.handle ∈ g.connections r :=
      hg.mem_connections.mpr ⟨by rw [hg.id_eq hm, hm]; rfl, hroom⟩
    cases hfind : (g.connections r).reverse.find?
        (·.participant.user = m.handle.participant.user) with
    | none =>
      have hnot := List.find?_eq_none.mp hfind m.handle (List.mem_reverse.mpr hmem)
      simp at hnot
    | some h =>
      have huser : h.participant.user = m.handle.participant.user := by
        simpa using List.find?_some hfind
      exact ⟨h.participant, ⟨_, _, ⟨h, hfind, rfl⟩, rfl⟩, huser⟩

end Registry

/-- The people in the call of a room are the users with a connection in it. -/
theorem Hub.InStep.caller_listed_iff {h : Hub} {r : RoomId} {u : UserId} (hi : h.InStep) :
    (∃ p ∈ h.callParticipants r, p.user = u) ↔
      ∃ c m, h.registry.member? c = some m ∧ m.handle.room = r ∧ m.inCall = true ∧
        m.handle.participant.user = u := by
  unfold callParticipants
  rw [hi.kept.listed_iff, hi.counted, hi.mirrored.callers_pos]
  rfl

/-! ## The moment of an answer -/

/-- What a task has read of the people of a room, when it has come to its end. -/
def Task.presence? : Task → Option Presence
  | ⟨.presence _, _, .done (.ok p)⟩ => some p
  | _ => none

/-- Only a finished reading of a room's presence that succeeded has read one. -/
theorem Task.presence?_eq_some {t : Task} {p : Presence} :
    t.presence? = some p ↔ ∃ r turns, t = ⟨.presence r, turns, .done (.ok p)⟩ := by
  constructor
  · intro h
    unfold presence? at h
    split at h
    next r turns p' =>
      cases h
      exact ⟨r, turns, rfl⟩
    next => cases h
  · rintro ⟨r, turns, rfl⟩
    rfl

namespace Scene

variable {k : Clients} {s : Scene} {moves : List Move} {i : Nat} {t : Task}

/-- A task after a move is new, or was there before, or was there with one turn less. -/
theorem task_apply {move : Move} (ht : (s.apply k move).tasks[i]? = some t) :
    (∃ call, t = .fresh k call) ∨ s.tasks[i]? = some t ∨
      ∃ t' op next, s.tasks[i]? = some t' ∧ t = t'.took op next (s.world.perform op).1 := by
  cases move with
  | start call =>
    replace ht : (s.tasks ++ [Task.fresh k call])[i]? = some t := ht
    rw [List.getElem?_append] at ht
    split at ht
    next => exact Or.inr (Or.inl ht)
    next => exact Or.inl ⟨call, List.mem_singleton.mp (List.mem_of_getElem? ht)⟩
  | advance j =>
    replace ht : (s.advance j).tasks[i]? = some t := ht
    unfold advance at ht
    split at ht
    next => exact Or.inr (Or.inl ht)
    next t' ht' =>
      split at ht
      next => exact Or.inr (Or.inl ht)
      next op next _ =>
        replace ht : (s.tasks.set j (t'.took op next _))[i]? = some t := ht
        by_cases hij : j = i
        · subst hij
          rw [List.getElem?_set_self (List.getElem?_eq_some_iff.mp ht').1] at ht
          exact Or.inr (Or.inr ⟨t', op, next, ht', (Option.some.inj ht).symm⟩)
        · rw [List.getElem?_set_ne hij] at ht
          exact Or.inr (Or.inl ht)
  | _ => exact Or.inr (Or.inl ht)

theorem run_snoc (k : Clients) (s : Scene) (moves : List Move) (move : Move) :
    s.run k (moves ++ [move]) = (s.run k moves).apply k move := by
  unfold run
  rw [List.foldl_append]
  rfl

/-- Each answer that a task got was given at some moment of the run, when the task had got
the answers before it and no others. -/
theorem exists_moment (hs : s.tasks = []) (earlier later : List Turn) {turn : Turn}
    (ht : (s.run k moves).tasks[i]? = some t) (hturns : t.turns = earlier ++ turn :: later) :
    ∃ pre, pre <+: moves ∧ turn.answer = ((s.run k pre).world.perform turn.op).1 ∧
      ∃ t', (s.run k pre).tasks[i]? = some t' ∧ t'.turns = earlier := by
  induction moves using List.reverseRecOn generalizing t later with
  | nil =>
    replace ht : s.tasks[i]? = some t := ht
    rw [hs] at ht
    cases ht
  | append_singleton moves move ih =>
    have hlonger : ∀ {t' : Task} (later : List Turn), (s.run k moves).tasks[i]? = some t' →
        t'.turns = earlier ++ turn :: later →
        ∃ pre, pre <+: moves ++ [move] ∧ turn.answer = ((s.run k pre).world.perform turn.op).1 ∧
          ∃ t', (s.run k pre).tasks[i]? = some t' ∧ t'.turns = earlier := by
      intro t' later ht' hturns'
      obtain ⟨pre, hpre, hmoment⟩ := ih later ht' hturns'
      exact ⟨pre, hpre.trans (List.prefix_append _ _), hmoment⟩
    rw [run_snoc] at ht
    rcases task_apply ht with ⟨call, rfl⟩ | hsame | ⟨t', op, next, ht', rfl⟩
    · replace hturns : [] = earlier ++ turn :: later := hturns
      simp at hturns
    · exact hlonger later hsame hturns
    · replace hturns : t'.turns ++ [⟨op, _⟩] = earlier ++ turn :: later := hturns
      rcases List.eq_nil_or_concat later with rfl | ⟨before, last, rfl⟩
      · -- the last answer was given just now
        obtain ⟨rfl, heq⟩ := List.append_inj' hturns rfl
        cases heq
        exact ⟨moves, List.prefix_append _ _, rfl, t', ht', rfl⟩
      · refine hlonger before ht' ?_
        rw [List.concat_eq_append, ← List.cons_append, ← List.append_assoc] at hturns
        exact (List.append_inj' hturns rfl).1

/-! ## Who was let in between two moments -/

/-- The counts of the calls stay in step with the registry, whatever a move does. -/
theorem inStep_change {s' : Scene} (hi : s.world.hub.InStep) (hc : Change k s s') :
    s'.world.hub.InStep := by
  cases hc with
  | start => exact hi
  | advance => exact World.inStep_perform _ hi
  | outside a => exact Hub.inStep_act a hi
  | around w hhub =>
    show w.hub.InStep
    rw [hhub]
    exact hi

/-- The hub stays in step along any run. -/
theorem inStep_run (hi : s.world.hub.InStep) (moves : List Move) :
    (s.run k moves).world.hub.InStep :=
  run_induction (P := fun s => s.world.hub.InStep) hi (fun _ _ => inStep_change) moves

/-- Some task is about to register a handle. -/
def Admits (s : Scene) (h : Handle) : Prop :=
  ∃ t ∈ s.tasks, ∃ next, t.rest = .step (.attach h) next

/-- A connection that is registered after a move was so before, or the move registers it. -/
theorem registered_or_admits (hi : s.world.hub.InStep) {s' : Scene} (hc : Change k s s')
    {c : ConnectionId} {m : Member} (hm : s'.world.hub.registry.member? c = some m) :
    (∃ m', s.world.hub.registry.member? c = some m' ∧ m'.handle = m.handle) ∨
      s.Admits m.handle := by
  cases hc with
  | start => exact Or.inl ⟨m, hm, rfl⟩
  | @advance j t op next ht hrest =>
    replace hm : (s.world.perform op).2.hub.registry.member? c = some m := hm
    rw [World.hub_perform] at hm
    unfold Operation.hubAfter at hm
    split at hm
    next a ha =>
      rcases Hub.member?_act hi.mirrored hm with hold | rfl
      · exact Or.inl hold
      · have hop := Operation.eq_attach_of_step? ha
        subst hop
        exact Or.inr ⟨t, List.mem_of_getElem? ht, next, hrest⟩
    next => exact Or.inl ⟨m, hm, rfl⟩
  | outside a ha =>
    replace hm : (Hub.act a s.world.hub).registry.member? c = some m := hm
    rw [(Hub.act_presence (Hub.Step.isMembership_of_isOutside ha) s.world.hub).1] at hm
    exact Or.inl ⟨m, hm, rfl⟩
  | around w hhub =>
    replace hm : w.hub.registry.member? c = some m := hm
    rw [hhub] at hm
    exact Or.inl ⟨m, hm, rfl⟩

/-- A connection that is registered after a run was so before, or was let in at some moment
of the run. -/
theorem registered_or_admitted (hi : s.world.hub.InStep) {c : ConnectionId} {m : Member}
    (hm : (s.run k moves).world.hub.registry.member? c = some m) :
    (∃ m', s.world.hub.registry.member? c = some m' ∧ m'.handle = m.handle) ∨
      ∃ pre, pre <+: moves ∧ (s.run k pre).Admits m.handle := by
  induction moves generalizing s with
  | nil => exact Or.inl ⟨m, hm, rfl⟩
  | cons move moves ih =>
    have hchange := change_apply (k := k) s move
    rcases ih (inStep_change hi hchange) hm with ⟨m', hm', hsame⟩ | ⟨pre, hpre, hadmits⟩
    · rcases registered_or_admits hi hchange hm' with ⟨m'', hm'', hsame'⟩ | hadmits
      · exact Or.inl ⟨m'', hm'', hsame'.trans hsame⟩
      · rw [hsame] at hadmits
        exact Or.inr ⟨[], List.nil_prefix, hadmits⟩
    · exact Or.inr ⟨move :: pre, List.cons_prefix_cons.mpr ⟨rfl, hpre⟩, hadmits⟩

/-- Whoever is in the call of a room after a run, and was not listed as connected before it, was
let in at some moment of the run. -/
theorem admitted_of_caller (hi : s.world.hub.InStep) {r : RoomId} {q : Participant}
    (hq : q ∈ (s.run k moves).world.hub.callParticipants r)
    (habsent : ∀ q' ∈ s.world.hub.participants r, q'.user ≠ q.user) :
    ∃ pre h, pre <+: moves ∧ (s.run k pre).Admits h ∧ h.room = r ∧ h.participant.user = q.user := by
  obtain ⟨c, m, hm, hroom, -, huser⟩ :=
    (inStep_run hi moves).caller_listed_iff.mp ⟨q, hq, rfl⟩
  rcases registered_or_admitted hi hm with ⟨m', hm', hsame⟩ | ⟨pre, hpre, hadmits⟩
  · -- who was connected all the while was listed
    rw [← hsame] at hroom huser
    obtain ⟨q', hq', hlisted⟩ := hi.mirrored.listed_iff.mpr ⟨c, m', hm', hroom, huser⟩
    exact absurd hlisted (habsent q' hq')
  · exact ⟨pre, m.handle, hpre, hadmits, hroom, huser⟩

/-! ## The people of a room -/

/-- The three answers of a reading were given at three moments, in this order. -/
theorem exists_moments (hs : s.tasks = []) {p : Presence}
    (ht : (s.run k moves).tasks[i]? = some t)
    (hturns : t.turns = [⟨.listMembers p.room, .ok p.members⟩,
      ⟨.participants p.room, p.participants⟩, ⟨.callParticipants p.room, p.callParticipants⟩]) :
    ∃ first second third, first <+: second ∧ second <+: third ∧ third <+: moves ∧
      (∀ pre ∈ [first, second, third], ∃ t', (s.run k pre).tasks[i]? = some t' ∧
        t'.turns.length < t.turns.length) ∧
      (s.run k first).world.store.listMembers p.room = .ok p.members ∧
      (s.run k second).world.hub.participants p.room = p.participants ∧
      (s.run k third).world.hub.callParticipants p.room = p.callParticipants := by
  -- the last answer comes first: each moment is found in the run up to the one after it
  obtain ⟨third, hthird, hcallers, t₃, ht₃, hturns₃⟩ := exists_moment hs
    [⟨.listMembers p.room, .ok p.members⟩, ⟨.participants p.room, p.participants⟩] [] ht hturns
  obtain ⟨second, hsecond, hpeople, t₂, ht₂, hturns₂⟩ := exists_moment hs
    [⟨.listMembers p.room, .ok p.members⟩] [] ht₃ hturns₃
  obtain ⟨first, hfirst, hmembers, t₁, ht₁, hturns₁⟩ := exists_moment hs [] [] ht₂ hturns₂
  refine ⟨first, second, third, hfirst, hsecond, hthird, ?_, World.ask_eq_ok hmembers.symm,
    hpeople.symm, hcallers.symm⟩
  intro pre hpre
  simp only [List.mem_cons, List.not_mem_nil, or_false] at hpre
  rcases hpre with rfl | rfl | rfl
  · exact ⟨t₁, ht₁, by simp [hturns, hturns₁]⟩
  · exact ⟨t₂, ht₂, by simp [hturns, hturns₂]⟩
  · exact ⟨t₃, ht₃, by simp [hturns, hturns₃]⟩

/-- At one moment of a run, not before the task, both lists of what the task has read were
those of the hub. -/
def IsSnapshot (k : Clients) (s : Scene) (moves : List Move) (i : Nat) (p : Presence) : Prop :=
  ∃ pre, pre <+: moves ∧ (∃ t, (s.run k pre).tasks[i]? = some t) ∧
    (s.run k pre).world.hub.participants p.room = p.participants ∧
    (s.run k pre).world.hub.callParticipants p.room = p.callParticipants

/-- The room in which bob joins a call while somebody asks who is there. -/
def bobsRoom : RoomId := ⟨⟨7⟩⟩

/-- Every connection is bob's. -/
def bobs : Clients := fun _ => ⟨bobsRoom, ⟨⟨⟨5⟩⟩, "bob"⟩⟩

/-- Nobody is there. -/
def deserted : Scene := opening ∅ [⟨bobsRoom, "lobby", [⟨⟨⟨5⟩⟩, "bob"⟩]⟩] .epoch .none

/-- After the people have been read, and before those in the call are, bob comes and enters
the call. -/
def bobComes : List Move :=
  [.start (.presence bobsRoom), .start (.join 50 ⟨⟨1⟩⟩), .start (.joinCall ⟨⟨1⟩⟩),
    .advance 0, .advance 0, .advance 1, .advance 2, .advance 0]

/-- The reading ends well, but finds bob in the call of a room that he is not connected to,
and its two lists are those of no moment. -/
theorem presence_is_torn :
    let p : Presence := ⟨bobsRoom, [⟨⟨⟨5⟩⟩, "bob"⟩], [], [⟨⟨⟨5⟩⟩, "bob"⟩]⟩
    ((deserted.run bobs bobComes).tasks[0]?.bind Task.presence?) = some p ∧
      ¬IsSnapshot bobs deserted bobComes 0 p := by
  intro p
  have hnever : ∀ n ≤ bobComes.length,
      ¬((deserted.run bobs (bobComes.take n)).world.hub.participants p.room = p.participants ∧
        (deserted.run bobs (bobComes.take n)).world.hub.callParticipants p.room
          = p.callParticipants) := by
    decide +kernel
  refine ⟨by decide +kernel, ?_⟩
  rintro ⟨pre, hpre, -, hboth⟩
  rw [List.prefix_iff_eq_take.mp hpre] at hboth
  exact hnever pre.length hpre.length_le hboth

/-- The lists of a reading that has ended well are those of three moments of the reading, in
this order: the members of the first, who is connected in the second, who is in the call in
the third. Whoever is in the call and not connected was let in between the second moment and
the third; and if the hub's two lists have not changed between them, the reading is a
snapshot. -/
theorem presence_is_read_in_three_moments (k : Clients)
    (outboxes : Std.ExtTreeMap ConnectionId Outbox) (seed : List Seed.Room) (clock : Instant)
    (outage : Outage) (moves : List Move) (i : Nat) (t : Task) (p : Presence)
    (ht : ((opening outboxes seed clock outage).run k moves).tasks[i]? = some t)
    (hp : t.presence? = some p) :
    let s := opening outboxes seed clock outage
    ∃ first second third, first <+: second ∧ second <+: third ∧ third <+: moves ∧
      (∀ pre ∈ [first, second, third], ∃ t', (s.run k pre).tasks[i]? = some t' ∧
        t'.turns.length < t.turns.length) ∧
      (s.run k first).world.store.listMembers p.room = .ok p.members ∧
      (s.run k second).world.hub.participants p.room = p.participants ∧
      (s.run k third).world.hub.callParticipants p.room = p.callParticipants ∧
      (∀ u, (∃ q ∈ p.participants, q.user = u) ↔
        ∃ c m, (s.run k second).world.hub.registry.member? c = some m ∧
          m.handle.room = p.room ∧ m.handle.participant.user = u) ∧
      (∀ u, (∃ q ∈ p.callParticipants, q.user = u) ↔
        ∃ c m, (s.run k third).world.hub.registry.member? c = some m ∧
          m.handle.room = p.room ∧ m.inCall = true ∧ m.handle.participant.user = u) ∧
      (∀ q ∈ p.callParticipants, (∀ q' ∈ p.participants, q'.user ≠ q.user) →
        ∃ between h, second <+: between ∧ between <+: third ∧ (s.run k between).Admits h ∧
          h.room = p.room ∧ h.participant.user = q.user) ∧
      ((s.run k third).world.hub.participants p.room
          = (s.run k second).world.hub.participants p.room →
        IsSnapshot k s moves i p) := by
  intro s
  obtain ⟨r, turns, rfl⟩ := Task.presence?_eq_some.mp hp
  have hpath : OnPath k (s.run k moves) := path_run (fun t ht => by cases ht) moves
  obtain ⟨hroom, hturns⟩ := (hpath _ (List.mem_of_getElem? ht)).ofRoom_done
  subst hroom
  have hinStep : ∀ pre, (s.run k pre).world.hub.InStep := inStep_run (Hub.inStep_idle outboxes)
  obtain ⟨first, second, third, hfirst, hsecond, hthird, hthere, hmembers, hpeople, hcallers⟩ :=
    exists_moments rfl ht hturns
  refine ⟨first, second, third, hfirst, hsecond, hthird, hthere, hmembers, hpeople, hcallers,
    ?_, ?_, ?_, ?_⟩
  · intro u
    rw [← hpeople]
    exact (hinStep second).mirrored.listed_iff
  · intro u
    rw [← hcallers]
    exact (hinStep third).caller_listed_iff
  · intro q hq habsent
    obtain ⟨rest, rfl⟩ := hsecond
    have hrun : ∀ later, s.run k (second ++ later) = (s.run k second).run k later :=
      fun later => List.foldl_append
    rw [← hcallers, hrun] at hq
    rw [← hpeople] at habsent
    obtain ⟨pre, h, hpre, hadmits, hroom, huser⟩ :=
      admitted_of_caller (hinStep second) hq habsent
    rw [← hrun] at hadmits
    exact ⟨second ++ pre, h, List.prefix_append _ _,
      (List.prefix_append_right_inj second).mpr hpre, hadmits, hroom, huser⟩
  · intro hsame
    obtain ⟨t', ht', -⟩ := hthere third (by simp)
    exact ⟨third, hthird, ⟨t', ht'⟩, hsame.trans hpeople, hcallers⟩

/-- When bob comes in between, it is the third moment that finds him. -/
theorem presence_is_read_in_three_moments_bob :
    ∃ between h, (deserted.run bobs between).Admits h ∧ h.room = bobsRoom ∧
      h.participant.user = ⟨⟨5⟩⟩ := by
  obtain ⟨t, ht⟩ : ∃ t, (deserted.run bobs bobComes).tasks[0]? = some t := ⟨_, rfl⟩
  have htorn : ((deserted.run bobs bobComes).tasks[0]?.bind Task.presence?)
      = some ⟨bobsRoom, [⟨⟨⟨5⟩⟩, "bob"⟩], [], [⟨⟨⟨5⟩⟩, "bob"⟩]⟩ := by decide +kernel
  rw [ht] at htorn
  obtain ⟨first, second, third, -, -, -, -, -, -, -, -, -, hcame, -⟩ :=
    presence_is_read_in_three_moments bobs ∅ _ _ _ bobComes 0 t _ ht htorn
  obtain ⟨between, h, -, -, hadmits, hroom, huser⟩ :=
    hcame ⟨⟨⟨5⟩⟩, "bob"⟩ List.mem_cons_self fun q' hq' => by cases hq'
  exact ⟨between, h, hadmits, hroom, huser⟩

end Scene

end RoomHub
