import RoomHub.Proofs.Hub.CallCount
import RoomHub.Proofs.Tables

/-!
# Who is listed as in the call

The tracker shows a user under the name of the latest join, the registry under the name of
one of the user's connections. `SameNames` is the condition under which there is no choice:
connections of one user in one room show one name. `NamedAlike` then says that the tracker
shows a user as any of the user's connections does, and a run keeps it as long as the
condition holds all the way:

> `callParticipants_eq_filter`: the people in a call are the people connected to the room
> that have a connection in the call, in the same order.
-/

namespace RoomHub

open Std (ExtTreeMap)

namespace Registry

variable {g : Registry} {r : RoomId} {u : UserId} {p : Participant}

/-- Connections of a user that are registered for one room at one time show one name. -/
def SameNames (g : Registry) : Prop :=
  ∀ ⦃c d : ConnectionId⦄ ⦃m m' : Member⦄, g.member? c = some m → g.member? d = some m' →
    m.handle.room = m'.handle.room →
    m.handle.participant.user = m'.handle.participant.user →
    m.handle.participant.name = m'.handle.participant.name

/-- Two connections of one user to one room have one participant between them. -/
theorem SameNames.participant_eq {c d : ConnectionId} {m m' : Member} (hs : g.SameNames)
    (hc : g.member? c = some m) (hd : g.member? d = some m')
    (hroom : m.handle.room = m'.handle.room)
    (huser : m.handle.participant.user = m'.handle.participant.user) :
    m.handle.participant = m'.handle.participant :=
  Participant.eq_of_user_of_name huser (hs hc hd hroom huser)

/-- How each user of a room is shown. -/
def shown (g : Registry) (r : RoomId) : ExtTreeMap UserId Participant :=
  (g.connections r).foldl (fun t h => t.insert h.participant.user h.participant) ∅

/-- The roster of a room is made of one participant for each user that is connected. -/
theorem participants_eq : g.participants r = Participant.sort ((g.shown r).toList.map (·.2)) :=
  rfl

/-- A user with several connections is shown as the last of them says. -/
theorem getElem?_shown :
    (g.shown r)[u]?
      = ((g.connections r).reverse.find? (·.participant.user = u)).map (·.participant) := by
  unfold shown
  rw [Tables.getElem?_foldl_insert, ExtTreeMap.getElem?_empty, Option.or_none]

/-- Where names agree, a user is shown as any connection of the user says. -/
theorem Mirrored.getElem?_shown_iff (hg : Mirrored g) (hs : SameNames g) :
    (g.shown r)[u]? = some p ↔
      ∃ c m, g.member? c = some m ∧ m.handle.room = r ∧ m.handle.participant = p ∧ p.user = u := by
  rw [getElem?_shown]
  constructor
  · intro h
    obtain ⟨handle, hfind, rfl⟩ := Option.map_eq_some_iff.mp h
    have hmem : handle ∈ g.connections r :=
      List.mem_reverse.mp (List.mem_of_find?_eq_some hfind)
    have huser : handle.participant.user = u := by simpa using List.find?_some hfind
    obtain ⟨hreg, hroom⟩ := hg.mem_connections.mp hmem
    obtain ⟨m, hm, rfl⟩ := Option.map_eq_some_iff.mp hreg
    exact ⟨m.handle.id, m, hm, hroom, rfl, huser⟩
  · intro hfound
    obtain ⟨c, m, hm, hroom, rfl, huser⟩ := hfound
    have hid := hg.id_eq hm
    have hmem : m.handle ∈ g.connections r :=
      hg.mem_connections.mpr ⟨by rw [hid, hm]; rfl, hroom⟩
    cases hfind : (g.connections r).reverse.find? (·.participant.user = u) with
    | none =>
      have hnot := List.find?_eq_none.mp hfind m.handle (List.mem_reverse.mpr hmem)
      exact absurd huser (by simpa using hnot)
    | some handle =>
      have hmem' : handle ∈ g.connections r :=
        List.mem_reverse.mp (List.mem_of_find?_eq_some hfind)
      have huser' : handle.participant.user = u := by simpa using List.find?_some hfind
      obtain ⟨hreg, hroom'⟩ := hg.mem_connections.mp hmem'
      obtain ⟨m', hm', rfl⟩ := Option.map_eq_some_iff.mp hreg
      rw [Option.map_some, Option.some_inj]
      exact hs.participant_eq hm' hm (hroom'.trans hroom.symm) (huser'.trans huser.symm)

end Registry

namespace Hub

open CallTracker (exists_slot_of_markOut)

variable {h : Hub} {r : RoomId} {u : UserId}

/-- The tracker shows a user in a call as every connection of that user in the room does. -/
def NamedAt (h : Hub) (r : RoomId) (u : UserId) : Prop :=
  ∀ ⦃e : CallEntry⦄ ⦃c : ConnectionId⦄ ⦃m : Member⦄,
    h.calls.slot? r u = some e → h.registry.member? c = some m →
    m.handle.room = r → m.handle.participant.user = u → m.handle.participant = e.participant

/-- The tracker shows a user as every connection of that user in the room does. -/
def NamedAlike (h : Hub) : Prop :=
  ∀ ⦃r : RoomId⦄ ⦃u : UserId⦄ ⦃e : CallEntry⦄ ⦃c : ConnectionId⦄ ⦃m : Member⦄,
    h.calls.slot? r u = some e → h.registry.member? c = some m →
    m.handle.room = r → m.handle.participant.user = u → m.handle.participant = e.participant

/-- Where nobody is connected everybody is named alike. -/
theorem namedAlike_idle (outboxes : ExtTreeMap ConnectionId Outbox) :
    NamedAlike (idle outboxes) := by
  intro r u e c m he
  simp [idle, CallTracker.slot?, CallTracker.users, CallTracker.empty] at he

/-- Whoever has an entry has a connection in the call. -/
theorem InStep.exists_caller {e : CallEntry} (hi : InStep h)
    (he : h.calls.slot? r u = some e) :
    ∃ c m, h.registry.member? c = some m ∧ Registry.Calls r u m := by
  have hcount : 0 < h.calls.count r u := hi.kept.isSome_slot.mp (by rw [he]; rfl)
  rw [hi.counted] at hcount
  exact hi.mirrored.callers_pos.mp hcount

/-- Joining leaves the names in the call as they are. -/
theorem namedAt_attach (hi : InStep h) (hn : NamedAt h r u) (handle : Handle)
    (hs : (h.attach handle).2.registry.SameNames) : NamedAt (h.attach handle).2 r u := by
  rcases attach_cases hi.mirrored handle with ⟨-, heq⟩ | ⟨hfree, heq⟩
  · rw [heq]; exact hn
  · rw [heq] at hs ⊢
    intro e d m he hd hroom huser
    have hold := hd
    rw [Registry.attached_member? hi.mirrored hfree] at hold
    split at hold
    next hid =>
      -- the newcomer is compared with a connection of the user that is in the call
      obtain ⟨c, mc, hc, hcalls⟩ := hi.exists_caller he
      have hne : handle.id ≠ c := by
        intro heqc
        rw [← heqc, hfree] at hc
        cases hc
      have hc' : (h.registry.attached handle).member? c = some mc := by
        rw [Registry.attached_member? hi.mirrored hfree, if_neg hne, hc]
      rw [hs.participant_eq hd hc' (hroom.trans hcalls.1.symm)
        (huser.trans hcalls.2.2.symm)]
      exact hn he hc hcalls.1 hcalls.2.2
    next => exact hn he hold hroom huser

/-- Leaving keeps the name of whoever stays in the call. -/
theorem namedAt_detach (hi : InStep h) (hn : NamedAt h r u) (c : ConnectionId) :
    NamedAt (h.detach c).2 r u := by
  rcases detach_cases hi.mirrored c with ⟨-, heq⟩ | ⟨mc, hc, heq⟩
  · rw [heq]; exact hn
  · rw [heq]
    intro e d m he hd hroom huser
    have hold : h.registry.member? d = some m := by
      have hd' := hd
      rw [Registry.detached_member? hi.mirrored hc] at hd'
      split at hd'
      next => cases hd'
      next => exact hd'
    have he' : (h.callsAfterDetach mc).slot? r u = some e := he
    unfold callsAfterDetach at he'
    split at he'
    next =>
      obtain ⟨e', hslot, hsame⟩ := exists_slot_of_markOut he'
      rw [← hsame]
      exact hn hslot hold hroom huser
    next => exact hn he' hold hroom huser

/-- Entering the call gives it the name that the room has for the user already. -/
theorem namedAt_setInCall (hi : InStep h) (hn : NamedAt h r u) (c : ConnectionId) (on : Bool)
    (hs : (h.setInCall c on).2.registry.SameNames) : NamedAt (h.setInCall c on).2 r u := by
  rcases setInCall_cases hi.mirrored c on with ⟨-, heq⟩ | ⟨mc, hc, -, heq⟩
  · rw [heq]; exact hn
  · rw [heq] at hs ⊢
    intro e d m he hd hroom huser
    have hself : (h.registry.flagged c mc on).member? c = some { mc with inCall := on } := by
      rw [Registry.flagged_member? hi.mirrored hc, if_pos rfl]
    obtain ⟨m₀, hd₀, hsame₀⟩ : ∃ m₀, h.registry.member? d = some m₀ ∧ m₀.handle = m.handle := by
      have hd' := hd
      rw [Registry.flagged_member? hi.mirrored hc] at hd'
      split at hd'
      next hcd =>
        cases hd'
        exact ⟨mc, hcd ▸ hc, rfl⟩
      next => exact ⟨m, hd', rfl⟩
    rw [← hsame₀] at hroom huser ⊢
    have he' : (h.callsAfterFlag mc on).slot? r u = some e := he
    unfold callsAfterFlag at he'
    split at he'
    next =>
      rw [CallTracker.slot?_markIn] at he'
      split at he'
      next hru =>
        -- the entry was written just now, from a connection of the same user
        cases he'
        have hshown := hs.participant_eq hd hself (by rw [← hsame₀]; exact hroom.trans hru.1.symm)
          (by rw [← hsame₀]; exact huser.trans hru.2.symm)
        rw [hsame₀]
        exact hshown
      next => exact hn he' hd₀ hroom huser
    next =>
      obtain ⟨e', hslot, hsame⟩ := exists_slot_of_markOut he'
      rw [← hsame]
      exact hn hslot hd₀ hroom huser

/-- A step keeps the names alike if it leads to a registry where they agree. -/
theorem namedAt_act {a : Step} (hi : InStep h) (hn : NamedAt h r u)
    (hs : (act a h).registry.SameNames) : NamedAt (act a h) r u := by
  cases ha : a.isMembership with
  | false =>
    obtain ⟨hreg, hcalls⟩ := act_presence ha h
    intro e c m he hc
    rw [hcalls] at he
    rw [hreg] at hc
    exact hn he hc
  | true =>
    cases a with
    | attach handle => exact namedAt_attach hi hn handle hs
    | detach c => exact namedAt_detach hi hn c
    | setInCall c on => exact namedAt_setInCall hi hn c on hs
    | broadcast | broadcastPresence | pushTo | pushCallParticipants | deliver | receive
    | closeReceiver | dropReceiver | cancel => cases ha

/-- While no user has two names, a step keeps the names of room and call alike. -/
theorem namedAlike_act {a : Step} (hi : InStep h) (hn : NamedAlike h)
    (hs : (act a h).registry.SameNames) : NamedAlike (act a h) := by
  intro r u
  exact namedAt_act hi (@hn r u) hs

/-- While no user ever has two names, room and call name everybody alike. -/
theorem namedAlike_run (steps : List Step) (hi : InStep h) (hn : NamedAlike h)
    (hs : ∀ pre, pre <+: steps → (run pre h).registry.SameNames) : NamedAlike (run steps h) := by
  induction steps generalizing h with
  | nil => exact hn
  | cons a steps ih =>
    refine ih (inStep_act a hi) (namedAlike_act hi hn (hs [a] ⟨steps, rfl⟩)) fun pre hpre => ?_
    exact hs (a :: pre) (List.cons_prefix_cons.mpr ⟨rfl, hpre⟩)

/-- The tracker's table of a room, entry by entry, is the registry's, less those without a
connection in the call. -/
theorem InStep.map_users_eq_filter (hi : InStep h) (hn : NamedAlike h)
    (hs : h.registry.SameNames) :
    (h.calls.users r).map (fun _ e => e.participant)
      = (h.registry.shown r).filter fun _ p => decide (0 < h.registry.callers r p.user) := by
  apply ExtTreeMap.ext_getElem?
  intro u
  apply Option.ext
  intro p
  rw [ExtTreeMap.getElem?_map, ExtTreeMap.getElem?_filter', Option.map_eq_some_iff,
    Option.filter_eq_some_iff, hi.mirrored.getElem?_shown_iff hs, decide_eq_true_eq]
  constructor
  · intro hentry
    obtain ⟨e, he, rfl⟩ := hentry
    have hslot : h.calls.slot? r u = some e := he
    have huser := (hi.kept.positive hslot).2
    obtain ⟨c, m, hc, hcalls⟩ := hi.exists_caller hslot
    refine ⟨⟨c, m, hc, hcalls.1, hn hslot hc hcalls.1 hcalls.2.2, huser⟩, ?_⟩
    rw [huser]
    exact hi.mirrored.callers_pos.mpr ⟨c, m, hc, hcalls⟩
  · intro hboth
    obtain ⟨⟨c, m, hc, hroom, rfl, huser⟩, hpos⟩ := hboth
    rw [huser, ← hi.counted] at hpos
    obtain ⟨e, he⟩ := Option.isSome_iff_exists.mp (hi.kept.isSome_slot.mpr hpos)
    exact ⟨e, he, (hn he hc hroom huser).symm⟩

/-- The people in a call are the people of the room with a connection in the call, in the
same order. -/
theorem InStep.callParticipants_eq_filter (hi : InStep h) (hn : NamedAlike h)
    (hs : h.registry.SameNames) :
    h.callParticipants r
      = (h.participants r).filter fun p => decide (0 < h.registry.callers r p.user) := by
  have htable := hi.map_users_eq_filter hn hs (r := r)
  have hlist := congrArg (fun t => (ExtTreeMap.toList t).map (·.2)) htable
  simp only [ExtTreeMap.toList_map, ExtTreeMap.toList_filter, List.map_map] at hlist
  unfold participants callParticipants CallTracker.snapshot
  rw [Registry.participants_eq, Participant.filter_sort, List.filter_map]
  exact congrArg Participant.sort hlist

/-! ## Every run -/

/-- Names agree all along a run whose attached handles show each user under one name. -/
theorem sameNames_run {outboxes : ExtTreeMap ConnectionId Outbox} {steps : List Step}
    (hnames : ∀ a b : Handle, Step.attach a ∈ steps → Step.attach b ∈ steps →
      a.participant.user = b.participant.user → a.participant.name = b.participant.name) :
    (run steps (idle outboxes)).registry.SameNames := by
  have hattached : ∀ {c : ConnectionId} {m : Member},
      (run steps (idle outboxes)).registry.member? c = some m → Step.attach m.handle ∈ steps := by
    intro c m hm
    rcases member?_run Registry.mirrored_empty hm with ⟨m', hm', -⟩ | hmem
    · simp [idle, Registry.member?, Registry.empty] at hm'
    · exact hmem
  intro c d m m' hc hd _ huser
  exact hnames _ _ (hattached hc) (hattached hd) huser

/-- The hub after a run from an idle one. -/
def after (outboxes : ExtTreeMap ConnectionId Outbox) (steps : List Step) : Hub :=
  run steps (idle outboxes)

/-- After any run the tracker counts the flagged connections of each user. So a mark-out
finds something to count down, the listed users and the rooms with an entry are those with
a connection in the call; and while names agree, the people in a call are those of the room
that have a connection in it. -/
theorem tracker_agrees_with_registry (outboxes : ExtTreeMap ConnectionId Outbox)
    (steps : List Step) :
    (∀ r u, (after outboxes steps).calls.count r u
      = (after outboxes steps).registry.callers r u) ∧
    (∀ c m, ((after outboxes steps).registry.detach c).1 = some m → m.inCall = true →
      0 < (after outboxes steps).calls.count m.handle.room m.handle.participant.user) ∧
    (∀ c handle, ((after outboxes steps).registry.setInCall c false).1 = some handle →
      0 < (after outboxes steps).calls.count handle.room handle.participant.user) ∧
    (∀ r u, (∃ p ∈ (after outboxes steps).callParticipants r, p.user = u) ↔
      1 ≤ (after outboxes steps).registry.callers r u) ∧
    (∀ r, (after outboxes steps).calls.rooms.contains r = true ↔
      ∃ c m, (after outboxes steps).registry.member? c = some m ∧
        m.handle.room = r ∧ m.inCall = true) ∧
    ((∀ pre, pre <+: steps → (after outboxes pre).registry.SameNames) →
      ∀ r, (after outboxes steps).callParticipants r
        = ((after outboxes steps).participants r).filter fun p =>
            decide (1 ≤ (after outboxes steps).registry.callers r p.user)) := by
  have hi : InStep (after outboxes steps) := inStep_run steps (inStep_idle outboxes)
  refine ⟨hi.counted, ?_, ?_, ?_, ?_, ?_⟩
  · intro c m hdetach hin
    have hc : (after outboxes steps).registry.member? c = some m := by
      cases hc : (after outboxes steps).registry.member? c with
      | none =>
        rw [Registry.detach_of_eq_none hi.mirrored hc] at hdetach
        cases hdetach
      | some m' =>
        rw [Registry.detach_of_eq_some hi.mirrored hc] at hdetach
        exact hdetach
    rw [hi.counted]
    exact hi.mirrored.callers_pos.mpr ⟨c, m, hc, rfl, hin, rfl⟩
  · intro c handle hset
    cases hc : (after outboxes steps).registry.member? c with
    | none =>
      rw [Registry.setInCall_of_eq_none hi.mirrored _ hc] at hset
      cases hset
    | some m =>
      rw [Registry.setInCall_of_eq_some hi.mirrored _ hc] at hset
      split at hset
      next => cases hset
      next hin =>
        cases hset
        rw [hi.counted]
        exact hi.mirrored.callers_pos.mpr ⟨c, m, hc, rfl, by simpa using hin, rfl⟩
  · intro r u
    rw [← hi.counted]
    exact hi.kept.listed_iff
  · intro r
    rw [hi.kept.contains_rooms]
    constructor
    · intro hcounted
      obtain ⟨u, hu⟩ := hcounted
      rw [hi.counted] at hu
      obtain ⟨c, m, hc, hroom, hin, -⟩ := hi.mirrored.callers_pos.mp hu
      exact ⟨c, m, hc, hroom, hin⟩
    · intro hfound
      obtain ⟨c, m, hc, hroom, hin⟩ := hfound
      refine ⟨m.handle.participant.user, ?_⟩
      rw [hi.counted]
      exact hi.mirrored.callers_pos.mpr ⟨c, m, hc, hroom, hin, rfl⟩
  · intro hnames r
    have hn := namedAlike_run steps (inStep_idle outboxes) (namedAlike_idle outboxes) hnames
    exact hi.callParticipants_eq_filter hn (hnames steps (List.prefix_refl steps))

/-- Two devices of one user and one of another enter a call; then the first device leaves. -/
def twoDevices (r : RoomId) (p q : Participant) : List Step :=
  [.attach ⟨⟨⟨1⟩⟩, r, p⟩, .attach ⟨⟨⟨2⟩⟩, r, p⟩, .attach ⟨⟨⟨3⟩⟩, r, q⟩,
    .setInCall ⟨⟨1⟩⟩ true, .setInCall ⟨⟨2⟩⟩ true, .detach ⟨⟨1⟩⟩]

/-- The user is counted once and still listed; the other one is not. -/
theorem tracker_agrees_two_devices :
    (after ∅ (twoDevices ⟨⟨1⟩⟩ ⟨⟨⟨1⟩⟩, "alice"⟩ ⟨⟨⟨2⟩⟩, "bob"⟩)).calls.count ⟨⟨1⟩⟩ ⟨⟨1⟩⟩ = 1 ∧
    (after ∅ (twoDevices ⟨⟨1⟩⟩ ⟨⟨⟨1⟩⟩, "alice"⟩ ⟨⟨⟨2⟩⟩, "bob"⟩)).callParticipants ⟨⟨1⟩⟩
      = ((after ∅ (twoDevices ⟨⟨1⟩⟩ ⟨⟨⟨1⟩⟩, "alice"⟩ ⟨⟨⟨2⟩⟩, "bob"⟩)).participants
          ⟨⟨1⟩⟩).filter fun p =>
            decide (1 ≤ (after ∅ (twoDevices ⟨⟨1⟩⟩ ⟨⟨⟨1⟩⟩, "alice"⟩
              ⟨⟨⟨2⟩⟩, "bob"⟩)).registry.callers ⟨⟨1⟩⟩ p.user) := by
  obtain ⟨hcount, -, -, -, -, hroster⟩ := tracker_agrees_with_registry ∅
    (twoDevices ⟨⟨1⟩⟩ ⟨⟨⟨1⟩⟩, "alice"⟩ ⟨⟨⟨2⟩⟩, "bob"⟩)
  refine ⟨?_, hroster (fun pre hpre => sameNames_run ?_) _⟩
  · rw [hcount]
    decide +kernel
  · intro a b ha hb huser
    have ha' := hpre.subset ha
    have hb' := hpre.subset hb
    simp only [twoDevices, List.mem_cons, Step.attach.injEq, reduceCtorEq, List.not_mem_nil,
      or_false] at ha' hb'
    rcases ha' with rfl | rfl | rfl <;> rcases hb' with rfl | rfl | rfl <;>
      first | rfl | exact absurd huser (by decide)

end Hub

end RoomHub
