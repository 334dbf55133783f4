import RoomHub.Proofs.RoomTable
import RoomHub.Registry

/-!
# The registry as one table of connections

The registry keeps two maps, the connections of each room and the room of each
connection, and updates both by hand. `Mirrored` says that they are images of each other,
that what is registered under an identifier carries it, and that no room is empty. Under
it the registry is the single table `member?`:

> `getElem?_members`: the members of a room are those of the table that name the room;
> `attach_fst`, `attach_member?`, `detach_fst`, …: each operation answers from the table
> and changes at most one entry of it.

Nothing outside this file has to look into the two maps.
-/

namespace RoomHub.Registry

open Std (ExtTreeMap)

variable {g : Registry} {c d : ConnectionId} {r r' : RoomId} {h : Handle} {m : Member}

/-- The two maps mirror each other, and no room is empty. -/
structure Mirrored (g : Registry) : Prop where
  located : ∀ {c : ConnectionId} {r : RoomId}, g.locations[c]? = some r →
    ∃ m, (g.members r)[c]? = some m
  found : ∀ {c : ConnectionId} {r : RoomId} {m : Member}, (g.members r)[c]? = some m →
    g.locations[c]? = some r ∧ m.handle.id = c ∧ m.handle.room = r
  noEmptyRoom : RoomTable.NoEmptyRow g.rooms

theorem mirrored_empty : Mirrored empty where
  located {c r} h := by simp [empty] at h
  found {c r m} h := by simp [empty, members] at h
  noEmptyRoom := RoomTable.noEmptyRow_empty

/-! ## Reading -/

/-- What is registered under an identifier is a member of the room it names. -/
theorem Mirrored.member?_eq_some_iff (hg : Mirrored g) :
    g.member? c = some m ↔ (g.members m.handle.room)[c]? = some m := by
  unfold member?
  constructor
  · intro h
    obtain ⟨r, hr, hm⟩ := Option.bind_eq_some_iff.mp h
    have hroom := (hg.found hm).2.2
    rw [hroom]
    exact hm
  · intro h
    have hloc := (hg.found h).1
    simp only [hloc, Option.bind_eq_bind, Option.bind_some, h]

/-- A connection is kept under its own id. -/
theorem Mirrored.id_eq (hg : Mirrored g) (h : g.member? c = some m) : m.handle.id = c :=
  (hg.found (hg.member?_eq_some_iff.mp h)).2.1

/-- The members of a room are the members that name it. -/
theorem Mirrored.getElem?_members (hg : Mirrored g) :
    (g.members r)[c]? = some m ↔ g.member? c = some m ∧ m.handle.room = r := by
  constructor
  · intro h
    have hroom := (hg.found h).2.2
    subst hroom
    exact ⟨hg.member?_eq_some_iff.mpr h, rfl⟩
  · intro hfound
    obtain ⟨h, rfl⟩ := hfound
    exact hg.member?_eq_some_iff.mp h

/-- A connection is located exactly when it is registered, in the room it names. -/
theorem Mirrored.getElem?_locations (hg : Mirrored g) :
    g.locations[c]? = (g.member? c).map (·.handle.room) := by
  cases hloc : g.locations[c]? with
  | none => simp [member?, hloc]
  | some r =>
    obtain ⟨m, hm⟩ := hg.located hloc
    obtain ⟨hmem, hroom⟩ := hg.getElem?_members.mp hm
    simp [hmem, hroom]

/-- A location is kept for exactly the attached connections. -/
theorem Mirrored.contains_locations (hg : Mirrored g) :
    g.locations.contains c = (g.member? c).isSome := by
  rw [ExtTreeMap.contains_eq_isSome_getElem?, hg.getElem?_locations, Option.isSome_map]

/-- The handles of a room are those registered for it. -/
theorem Mirrored.mem_connections (hg : Mirrored g) :
    h ∈ g.connections r ↔ (g.member? h.id).map (·.handle) = some h ∧ h.room = r := by
  unfold connections
  simp only [List.mem_map, Prod.exists, ExtTreeMap.mem_toList_iff_getElem?_eq_some,
    Option.map_eq_some_iff]
  constructor
  · intro hfound
    obtain ⟨c, m, hcm, rfl⟩ := hfound
    obtain ⟨hmem, hroom⟩ := hg.getElem?_members.mp hcm
    rw [hg.id_eq hmem]
    exact ⟨⟨m, hmem, rfl⟩, hroom⟩
  · intro hfound
    obtain ⟨⟨m, hmem, rfl⟩, hroom⟩ := hfound
    exact ⟨m.handle.id, m, hg.getElem?_members.mpr ⟨hmem, hroom⟩, rfl⟩

/-- Among the connections of a room no identifier stands twice. -/
theorem Mirrored.nodup_connections (hg : Mirrored g) :
    ((g.connections r).map (·.id)).Nodup := by
  have hkeys : (g.connections r).map (·.id) = (g.members r).toList.map Prod.fst := by
    unfold connections
    rw [List.map_map]
    apply List.map_congr_left
    intro entry hcm
    obtain ⟨c, m⟩ := entry
    exact (hg.found (ExtTreeMap.mem_toList_iff_getElem?_eq_some.mp hcm)).2.1
  rw [hkeys, List.nodup_iff_pairwise_ne, List.pairwise_map]
  refine ExtTreeMap.distinct_keys_toList.imp fun hne heq => hne ?_
  exact Std.compare_eq_iff_eq.mpr heq

/-- A room has an entry exactly when a connection is registered for it. -/
theorem Mirrored.contains_rooms (hg : Mirrored g) :
    g.rooms.contains r = true ↔ ∃ c m, g.member? c = some m ∧ m.handle.room = r := by
  rw [RoomTable.contains_iff hg.noEmptyRoom]
  constructor
  · intro hfound
    obtain ⟨c, m, hm⟩ := hfound
    exact ⟨c, m, hg.getElem?_members.mp hm⟩
  · intro hfound
    obtain ⟨c, m, hm⟩ := hfound
    exact ⟨c, m, hg.getElem?_members.mpr hm⟩

/-- Nothing but the table is in a registry. -/
theorem Mirrored.ext {g' : Registry} (hg : Mirrored g) (hg' : Mirrored g')
    (h : ∀ c, g.member? c = g'.member? c) : g = g' := by
  have hrooms : g.rooms = g'.rooms := by
    refine RoomTable.ext_getD hg.noEmptyRoom hg'.noEmptyRoom fun r => ?_
    apply ExtTreeMap.ext_getElem?
    intro c
    apply Option.ext
    intro m
    show (g.members r)[c]? = some m ↔ (g'.members r)[c]? = some m
    rw [hg.getElem?_members, hg'.getElem?_members, h]
  have hlocations : g.locations = g'.locations := by
    apply ExtTreeMap.ext_getElem?
    intro c
    rw [hg.getElem?_locations, hg'.getElem?_locations, h]
  cases g
  cases g'
  cases hrooms
  cases hlocations
  rfl

/-- Where the rooms of two registries differ in what they hold under one identifier
only, so do the tables. -/
theorem member?_of_entry {g' : Registry} {x : Option Member} (hg : Mirrored g)
    (hg' : Mirrored g')
    (hself : ∀ m : Member, (g'.members m.handle.room)[c]? = some m ↔ x = some m)
    (hother : ∀ r d, c ≠ d → (g'.members r)[d]? = (g.members r)[d]?) :
    g'.member? d = if c = d then x else g.member? d := by
  apply Option.ext
  intro m
  rw [hg'.member?_eq_some_iff]
  by_cases hcd : c = d
  · subst hcd
    rw [if_pos rfl, hself]
  · rw [if_neg hcd, hother _ _ hcd, hg.member?_eq_some_iff]

/-! ## Attaching -/

/-- Attaching a connection a second time is refused and changes nothing. -/
theorem attach_of_isSome (hg : Mirrored g) (hc : (g.member? h.id).isSome) :
    g.attach h = (false, g) := by
  unfold attach
  rw [hg.contains_locations, if_pos hc]

/-- What attaching a connection that is not registered leaves behind. -/
def attached (g : Registry) (h : Handle) : Registry :=
  { rooms := g.rooms.insert h.room ((g.members h.room).insert h.id ⟨h, false⟩)
    locations := g.locations.insert h.id h.room }

/-- Attaching a connection that is not there writes both maps. -/
theorem attach_of_eq_none (hg : Mirrored g) (hc : g.member? h.id = none) :
    g.attach h = (true, g.attached h) := by
  unfold attach
  rw [hg.contains_locations, if_neg (by simp [hc])]
  rfl

theorem members_attached :
    (g.attached h).members r
      = if h.room = r then (g.members h.room).insert h.id ⟨h, false⟩ else g.members r := by
  unfold attached members
  rw [ExtTreeMap.getD_insert]
  simp only [Std.compare_eq_iff_eq]

theorem locations_attached :
    (g.attached h).locations[c]? = if h.id = c then some h.room else g.locations[c]? := by
  unfold attached
  rw [ExtTreeMap.getElem?_insert]
  simp only [Std.compare_eq_iff_eq]

/-- After attaching, the new connection stands in its room outside the call, and every other entry
is as before. -/
theorem getElem?_members_attached :
    ((g.attached h).members r)[c]?
      = if h.room = r ∧ h.id = c then some ⟨h, false⟩ else (g.members r)[c]? := by
  rw [members_attached]
  by_cases hr : h.room = r
  · subst hr
    rw [if_pos rfl, ExtTreeMap.getElem?_insert]
    simp only [Std.compare_eq_iff_eq, true_and]
  · rw [if_neg hr, if_neg (fun hrc => hr hrc.1)]

/-- Attaching keeps the two maps in step. -/
theorem mirrored_attached (hg : Mirrored g) (hc : g.member? h.id = none) :
    Mirrored (g.attached h) := by
  -- no room at all holds the new identifier, not only its own
  have hfree : ∀ r, (g.members r)[h.id]? = none := by
    intro r
    cases hm : (g.members r)[h.id]? with
    | none => rfl
    | some m =>
      have hmem := (hg.getElem?_members.mp hm).1
      rw [hc] at hmem
      cases hmem
  refine ⟨?_, ?_, ?_⟩
  · intro c r hloc
    rw [locations_attached] at hloc
    rw [getElem?_members_attached]
    split at hloc
    next hid =>
      cases hloc
      exact ⟨_, if_pos ⟨rfl, hid⟩⟩
    next hid =>
      rw [if_neg fun hrc => hid hrc.2]
      exact hg.located hloc
  · intro c r m hm
    rw [getElem?_members_attached] at hm
    rw [locations_attached]
    split at hm
    next hrc =>
      cases hm
      exact ⟨by rw [if_pos hrc.2, hrc.1], hrc.2, hrc.1⟩
    next hrc =>
      have hid : h.id ≠ c := by
        intro hid
        rw [← hid, hfree r] at hm
        cases hm
      rw [if_neg hid]
      exact hg.found hm
  · apply RoomTable.noEmptyRow_insert hg.noEmptyRoom
    simp

/-- The newcomer is registered out of the call, and nobody else is touched. -/
theorem attached_member? (hg : Mirrored g) (hc : g.member? h.id = none) :
    (g.attached h).member? c = if h.id = c then some ⟨h, false⟩ else g.member? c := by
  refine member?_of_entry hg (mirrored_attached hg hc) (fun m => ?_) fun r d hcd => ?_
  · rw [getElem?_members_attached]
    by_cases hroom : h.room = m.handle.room
    · rw [if_pos ⟨hroom, rfl⟩]
    · rw [if_neg fun hrc => hroom hrc.1, ← hg.member?_eq_some_iff, hc]
      constructor
      · intro h
        cases h
      · intro h
        cases h
        exact absurd rfl hroom
  · rw [getElem?_members_attached, if_neg fun hrc => hcd hrc.2]

/-! ## Detaching -/

/-- What detaching a connection that is located leaves behind. -/
def detached (g : Registry) (c : ConnectionId) (r : RoomId) : Registry :=
  { rooms :=
      if ((g.members r).erase c).isEmpty then g.rooms.erase r
      else g.rooms.insert r ((g.members r).erase c)
    locations := g.locations.erase c }

/-- Detaching what is not attached changes nothing. -/
theorem detach_of_eq_none (hg : Mirrored g) (hc : g.member? c = none) :
    g.detach c = (none, g) := by
  have hloc : g.locations[c]? = none := by rw [hg.getElem?_locations, hc]; rfl
  simp only [detach, hloc]

/-- Detaching an attached connection answers its entry and writes both maps. -/
theorem detach_of_eq_some (hg : Mirrored g) (hc : g.member? c = some m) :
    g.detach c = (some m, g.detached c m.handle.room) := by
  have hloc : g.locations[c]? = some m.handle.room := by rw [hg.getElem?_locations, hc]; rfl
  have hmem := hg.member?_eq_some_iff.mp hc
  simp only [detach, hloc, hmem, detached]

/-- After detaching, the connection's entry is gone and every other entry is as before. -/
theorem getElem?_members_detached :
    ((g.detached c r).members r')[d]?
      = if r = r' ∧ c = d then none else (g.members r')[d]? := by
  have hrow : (g.detached c r).members r'
      = if r = r' then (g.members r).erase c else g.members r' := RoomTable.getD_prune
  rw [hrow]
  by_cases hr : r = r'
  · subst hr
    rw [if_pos rfl, ExtTreeMap.getElem?_erase]
    simp only [Std.compare_eq_iff_eq, true_and]
  · rw [if_neg hr, if_neg (fun hrc => hr hrc.1)]

theorem locations_detached :
    (g.detached c r).locations[d]? = if c = d then none else g.locations[d]? := by
  unfold detached
  rw [ExtTreeMap.getElem?_erase]
  simp only [Std.compare_eq_iff_eq]

/-- Detaching keeps the two maps in step. -/
theorem mirrored_detached (hg : Mirrored g) (hc : g.member? c = some m) :
    Mirrored (g.detached c m.handle.room) := by
  refine ⟨?_, ?_, RoomTable.noEmptyRow_prune hg.noEmptyRoom⟩
  · intro d r hloc
    rw [locations_detached] at hloc
    split at hloc
    next => cases hloc
    next hcd =>
      rw [getElem?_members_detached, if_neg fun hrc => hcd hrc.2]
      exact hg.located hloc
  · intro d r m' hm
    rw [getElem?_members_detached] at hm
    split at hm
    next => cases hm
    next hrc =>
      have hcd : c ≠ d := by
        intro hcd
        subst hcd
        obtain ⟨hmem, hroom⟩ := hg.getElem?_members.mp hm
        rw [hc] at hmem
        cases hmem
        exact hrc ⟨hroom, rfl⟩
      rw [locations_detached, if_neg hcd]
      exact hg.found hm

/-- The connection is gone, and nobody else is touched. -/
theorem detached_member? (hg : Mirrored g) (hc : g.member? c = some m) :
    (g.detached c m.handle.room).member? d = if c = d then none else g.member? d := by
  refine member?_of_entry hg (mirrored_detached hg hc) (fun m' => ?_) fun r d hcd => ?_
  · rw [getElem?_members_detached]
    by_cases hroom : m.handle.room = m'.handle.room
    · rw [if_pos ⟨hroom, rfl⟩]
    · rw [if_neg fun hrc => hroom hrc.1, ← hg.member?_eq_some_iff, hc]
      constructor
      · intro h
        cases h
        exact absurd rfl hroom
      · intro h
        cases h
  · rw [getElem?_members_detached, if_neg fun hrc => hcd hrc.2]

/-! ## Entering and leaving the call -/

/-- What setting the flag of a member leaves behind. -/
def flagged (g : Registry) (c : ConnectionId) (m : Member) (on : Bool) : Registry :=
  { g with
    rooms := g.rooms.insert m.handle.room
      ((g.members m.handle.room).insert c { m with inCall := on }) }

/-- The call flag of an absent connection cannot be set. -/
theorem setInCall_of_eq_none (hg : Mirrored g) (on : Bool) (hc : g.member? c = none) :
    g.setInCall c on = (none, g) := by
  have hloc : g.locations[c]? = none := by rw [hg.getElem?_locations, hc]; rfl
  simp only [setInCall, hloc]

/-- The call flag is written, and the handle answered, only where it changes. -/
theorem setInCall_of_eq_some (hg : Mirrored g) (on : Bool) (hc : g.member? c = some m) :
    g.setInCall c on
      = if m.inCall = on then (none, g) else (some m.handle, g.flagged c m on) := by
  have hloc : g.locations[c]? = some m.handle.room := by rw [hg.getElem?_locations, hc]; rfl
  have hmem := hg.member?_eq_some_iff.mp hc
  simp only [setInCall, hloc, hmem, flagged]

/-- Setting a call flag writes that one entry. -/
theorem getElem?_members_flagged {on : Bool} :
    ((g.flagged c m on).members r)[d]?
      = if m.handle.room = r ∧ c = d then some { m with inCall := on }
        else (g.members r)[d]? := by
  have hrow : (g.flagged c m on).members r
      = if m.handle.room = r then
          (g.members m.handle.room).insert c { m with inCall := on }
        else g.members r := by
    unfold flagged members
    rw [ExtTreeMap.getD_insert]
    simp only [Std.compare_eq_iff_eq]
  rw [hrow]
  by_cases hr : m.handle.room = r
  · subst hr
    rw [if_pos rfl, ExtTreeMap.getElem?_insert]
    simp only [Std.compare_eq_iff_eq, true_and]
  · rw [if_neg hr, if_neg (fun hrc => hr hrc.1)]

/-- Setting a call flag keeps the two maps in step. -/
theorem mirrored_flagged {on : Bool} (hg : Mirrored g) (hc : g.member? c = some m) :
    Mirrored (g.flagged c m on) := by
  have hmem := hg.member?_eq_some_iff.mp hc
  refine ⟨?_, ?_, ?_⟩
  · intro d r hloc
    obtain ⟨m', hm'⟩ := hg.located hloc
    rw [getElem?_members_flagged]
    split
    next => exact ⟨_, rfl⟩
    next => exact ⟨m', hm'⟩
  · intro d r m' hm
    rw [getElem?_members_flagged] at hm
    split at hm
    next hrc =>
      cases hm
      obtain ⟨hroom, hcd⟩ := hrc
      subst hroom hcd
      exact ⟨(hg.found hmem).1, (hg.found hmem).2⟩
    next => exact hg.found hm
  · apply RoomTable.noEmptyRow_insert hg.noEmptyRoom
    simp

/-- The flag of the one member is set, and nobody else is touched. -/
theorem flagged_member? {on : Bool} (hg : Mirrored g) (hc : g.member? c = some m) :
    (g.flagged c m on).member? d
      = if c = d then some { m with inCall := on } else g.member? d := by
  refine member?_of_entry hg (mirrored_flagged hg hc) (fun m' => ?_) fun r d hcd => ?_
  · rw [getElem?_members_flagged]
    by_cases hroom : m.handle.room = m'.handle.room
    · rw [if_pos ⟨hroom, rfl⟩]
    · rw [if_neg fun hrc => hroom hrc.1, ← hg.member?_eq_some_iff, hc]
      constructor
      · intro h
        cases h
        exact absurd rfl hroom
      · intro h
        cases h
        exact absurd rfl hroom
  · rw [getElem?_members_flagged, if_neg fun hrc => hcd hrc.2]

end RoomHub.Registry
