import RoomHub.CallTracker
import RoomHub.Proofs.RoomTable
import RoomHub.Proofs.Roster

/-!
# The call tracker, entry by entry

What the tracker holds for a user in a room is `slot?`. Marking a user in or out changes
the entry of that user in that room and no other, and the counts follow:

> `count_markIn`: one more at the marked place, nothing elsewhere;
> `count_markOut`: one fewer at the marked place, and never below zero.

`Kept` says what every tracker built by marking satisfies: an entry counts at least one
connection and shows the user it is stored for, and no room is kept without an entry.
-/

namespace RoomHub

open Std (ExtTreeMap)

/-- What is left of an entry when one connection fewer is in the call. -/
def CallEntry.less (e : CallEntry) : Option CallEntry :=
  if e.count - 1 = 0 then none else some { e with count := e.count - 1 }

namespace CallTracker

variable {t : CallTracker} {r r' : RoomId} {u v : UserId} {p : Participant} {e : CallEntry}

/-- What the tracker holds for a user in a room. -/
def slot? (t : CallTracker) (r : RoomId) (u : UserId) : Option CallEntry := (t.users r)[u]?

/-- The count of a user is that of the slot, and zero where there is none. -/
theorem count_eq : t.count r u = ((t.slot? r u).map (·.count)).getD 0 := by
  unfold count slot?
  cases (t.users r)[u]? <;> rfl

/-- Entries count at least one connection and show their user; no room is without. -/
structure Kept (t : CallTracker) : Prop where
  positive : ∀ {r : RoomId} {u : UserId} {e : CallEntry},
    t.slot? r u = some e → 0 < e.count ∧ e.participant.user = u
  noEmptyRoom : RoomTable.NoEmptyRow t.rooms

/-- Nothing is kept of an empty call. -/
theorem kept_empty : Kept empty where
  positive {r u e} h := by simp [slot?, users, empty] at h
  noEmptyRoom := RoomTable.noEmptyRow_empty

/-- Setting the users of one room leaves those of the others. -/
theorem users_setUsers (us : ExtTreeMap UserId CallEntry) :
    (t.setUsers r us).users r' = if r = r' then us else t.users r' := by
  have hrooms : (t.setUsers r us).rooms
      = if us.isEmpty then t.rooms.erase r else t.rooms.insert r us := by
    unfold setUsers
    split <;> rfl
  unfold users
  rw [hrooms]
  exact RoomTable.getD_prune

/-- A room whose last user is taken away is not kept. -/
theorem noEmptyRoom_setUsers (us : ExtTreeMap UserId CallEntry)
    (ht : RoomTable.NoEmptyRow t.rooms) : RoomTable.NoEmptyRow (t.setUsers r us).rooms := by
  have hrooms : (t.setUsers r us).rooms
      = if us.isEmpty then t.rooms.erase r else t.rooms.insert r us := by
    unfold setUsers
    split <;> rfl
  rw [hrooms]
  exact RoomTable.noEmptyRow_prune ht

/-! ## Marking in -/

/-- Marking somebody in changes one slot: the counter is one higher and the name the latest. -/
theorem slot?_markIn :
    (t.markIn r p).2.slot? r' u
      = if r = r' ∧ p.user = u then some ⟨t.count r p.user + 1, p⟩ else t.slot? r' u := by
  unfold markIn slot?
  rw [users_setUsers]
  by_cases hr : r = r'
  · subst hr
    rw [if_pos rfl, ExtTreeMap.getElem?_insert]
    simp only [Std.compare_eq_iff_eq, true_and]
  · rw [if_neg hr, if_neg fun hru => hr hru.1]

/-- Marking somebody in raises one counter by one. -/
theorem count_markIn :
    (t.markIn r p).2.count r' u
      = if r = r' ∧ p.user = u then t.count r p.user + 1 else t.count r' u := by
  rw [count_eq, slot?_markIn, count_eq (r := r')]
  split <;> rfl

/-- Marking somebody in keeps every counter above zero. -/
theorem kept_markIn (ht : Kept t) : Kept (t.markIn r p).2 where
  positive {r' u e} h := by
    rw [slot?_markIn] at h
    split at h
    next hru =>
      cases h
      exact ⟨Nat.succ_pos _, hru.2⟩
    next => exact ht.positive h
  noEmptyRoom := noEmptyRoom_setUsers _ ht.noEmptyRoom

/-! ## Marking out -/

/-- Marking somebody out lowers one slot, or removes it with its last count. -/
theorem slot?_markOut :
    (t.markOut r u).2.slot? r' v
      = if r = r' ∧ u = v then (t.slot? r u).bind CallEntry.less else t.slot? r' v := by
  unfold markOut
  cases he : (t.users r)[u]? with
  | none =>
    show t.slot? r' v = _
    split
    next hru =>
      obtain ⟨rfl, rfl⟩ := hru
      rw [show t.slot? r u = none from he]
      rfl
    next => rfl
  | some e =>
    unfold slot? CallEntry.less
    rw [users_setUsers, he, Option.bind_some]
    by_cases hr : r = r'
    · subst hr
      rw [if_pos rfl]
      split
      next hlast =>
        rw [ExtTreeMap.getElem?_erase]
        simp
      next hmore =>
        rw [ExtTreeMap.getElem?_insert]
        simp
    · rw [if_neg hr, if_neg fun hru => hr hru.1]

/-- An entry that a mark-out leaves shows the user as before. -/
theorem exists_slot_of_markOut (he : (t.markOut r u).2.slot? r' v = some e) :
    ∃ e', t.slot? r' v = some e' ∧ e'.participant = e.participant := by
  rw [slot?_markOut] at he
  split at he
  next hru =>
    obtain ⟨rfl, rfl⟩ := hru
    obtain ⟨e', he', hless⟩ := Option.bind_eq_some_iff.mp he
    unfold CallEntry.less at hless
    split at hless
    next => cases hless
    next =>
      cases hless
      exact ⟨e', he', rfl⟩
  next => exact ⟨e, he, rfl⟩

/-- Marking somebody out lowers one counter by one, and not below zero. -/
theorem count_markOut :
    (t.markOut r u).2.count r' v
      = if r = r' ∧ u = v then t.count r u - 1 else t.count r' v := by
  rw [count_eq, slot?_markOut, count_eq (r := r'), count_eq (r := r)]
  split
  next =>
    cases t.slot? r u with
    | none => rfl
    | some e =>
      simp only [Option.bind_some, CallEntry.less, Option.map_some, Option.getD_some]
      split
      next hlast => rw [hlast]; rfl
      next => rfl
  next => rfl

/-- Marking somebody out removes what came to zero, and the room with its last user. -/
theorem kept_markOut (ht : Kept t) : Kept (t.markOut r u).2 where
  positive {r' v e} h := by
    rw [slot?_markOut] at h
    split at h
    next hru =>
      obtain ⟨e', he', hless⟩ := Option.bind_eq_some_iff.mp h
      unfold CallEntry.less at hless
      split at hless
      next => cases hless
      next hmore =>
        cases hless
        exact ⟨Nat.pos_of_ne_zero hmore, hru.2 ▸ (ht.positive he').2⟩
    next => exact ht.positive h
  noEmptyRoom := by
    unfold markOut
    split
    next => exact ht.noEmptyRoom
    next => exact noEmptyRoom_setUsers _ ht.noEmptyRoom

/-! ## Reading -/

/-- An entry is there exactly when it counts a connection. -/
theorem Kept.isSome_slot (ht : Kept t) : (t.slot? r u).isSome ↔ 0 < t.count r u := by
  rw [count_eq]
  cases he : t.slot? r u with
  | none => simp
  | some e => simpa using (ht.positive he).1

/-- The snapshot of a room shows whoever has a slot there, under the name in the slot. -/
theorem Kept.mem_snapshot (ht : Kept t) :
    p ∈ t.snapshot r ↔ (t.slot? r p.user).map (·.participant) = some p := by
  unfold snapshot
  simp only [Participant.mem_sort, List.mem_map, Prod.exists,
    ExtTreeMap.mem_toList_iff_getElem?_eq_some, Option.map_eq_some_iff]
  constructor
  · intro hentry
    obtain ⟨u, e, he, rfl⟩ := hentry
    have huser := (ht.positive (r := r) (u := u) he).2
    rw [huser]
    exact ⟨e, he, rfl⟩
  · intro hentry
    obtain ⟨e, he, hp⟩ := hentry
    exact ⟨p.user, e, he, hp⟩

/-- Who is listed is who has an entry. -/
theorem Kept.listed_iff (ht : Kept t) :
    (∃ p ∈ t.snapshot r, p.user = u) ↔ 0 < t.count r u := by
  rw [← ht.isSome_slot]
  constructor
  · intro hlisted
    obtain ⟨p, hp, rfl⟩ := hlisted
    rw [ht.mem_snapshot] at hp
    cases he : t.slot? r p.user with
    | none => rw [he] at hp; cases hp
    | some e => rfl
  · intro h
    obtain ⟨e, he⟩ := Option.isSome_iff_exists.mp h
    have huser := (ht.positive he).2
    refine ⟨e.participant, ht.mem_snapshot.mpr ?_, huser⟩
    rw [huser, he]
    rfl

/-- Whom the tracker shows in the call of a room. -/
def Shows (t : CallTracker) (r : RoomId) (p : Participant) : Prop :=
  ∃ e, t.slot? r p.user = some e ∧ e.participant = p

/-- A snapshot is the roster of the people that the tracker shows. -/
theorem Kept.isRoster_snapshot (ht : Kept t) : Participant.IsRoster (t.snapshot r) (t.Shows r) :=
  Participant.isRoster_sort_table (fun hentry => (ht.positive hentry).2) (.refl _)

/-- Nothing but the entries is in a tracker. -/
theorem Kept.ext {t' : CallTracker} (ht : Kept t) (ht' : Kept t')
    (h : ∀ r u, t.slot? r u = t'.slot? r u) : t = t' := by
  have hrooms : t.rooms = t'.rooms := by
    refine RoomTable.ext_getD ht.noEmptyRoom ht'.noEmptyRoom fun r => ?_
    apply ExtTreeMap.ext_getElem?
    intro u
    exact h r u
  cases t
  cases t'
  cases hrooms
  rfl

/-- A room has an entry exactly when somebody in it has one. -/
theorem Kept.contains_rooms (ht : Kept t) :
    t.rooms.contains r = true ↔ ∃ u, 0 < t.count r u := by
  rw [RoomTable.contains_iff ht.noEmptyRoom]
  constructor
  · intro hentry
    obtain ⟨u, e, he⟩ := hentry
    exact ⟨u, ht.isSome_slot.mp (Option.isSome_iff_exists.mpr ⟨e, he⟩)⟩
  · intro hcounted
    obtain ⟨u, hu⟩ := hcounted
    obtain ⟨e, he⟩ := Option.isSome_iff_exists.mp (ht.isSome_slot.mpr hu)
    exact ⟨u, e, he⟩

end CallTracker

end RoomHub
