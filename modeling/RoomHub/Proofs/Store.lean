import RoomHub.Proofs.Tables
import RoomHub.Store

/-!
# What a store keeps of its messages

The messages of a room are only ever added to. `Numbered` says that they stand in the order
of their numbers, that no number is above the last one given out, and that each message
names its room; everything that changes a store preserves it.

> `messages_persist`: storing a message appends it to its room and to no other;
> `recentMessages_eq_ok`: what is handed out is the end of the list;
> `mem_lastOf_or_older`: a stored message is in that end, or older than all of a full one.

Rooms and members are only ever added to as well, which `Grows` says of two stores.
-/

namespace RoomHub.Store

open Std (ExtTreeMap)

variable {s : Store} {r r' : RoomId} {u : UserId} {d : Draft} {now : Instant} {m : Message}

/-- The messages of a room, oldest first. -/
def messages (s : Store) (r : RoomId) : List Message :=
  ((s.rooms[r]?).map (·.messages.toList)).getD []

/-- Messages stand in the order of their numbers, each in the room it names. -/
structure Numbered (s : Store) : Prop where
  increasing : ∀ r, (s.messages r).Pairwise fun a b => a.id < b.id
  bounded : ∀ r, ∀ m ∈ s.messages r, m.id ≤ s.lastMessageId
  roomed : ∀ r, ∀ m ∈ s.messages r, m.room = r

/-! ## Seeds, rooms and members -/

/-- A seeded store has no messages. -/
theorem messages_ofSeed (rooms : List Seed.Room) : (ofSeed rooms).messages r = [] := by
  unfold messages
  cases hroom : (ofSeed rooms).rooms[r]? with
  | none => rfl
  | some room =>
    obtain ⟨entry, -, -, rfl⟩ := Tables.getElem?_filled_iff.mp hroom
    rfl

/-- A seeded store holds no message, so its numbering is in order. -/
theorem numbered_ofSeed (rooms : List Seed.Room) : Numbered (ofSeed rooms) where
  increasing r := by rw [messages_ofSeed]; exact List.Pairwise.nil
  bounded r m hm := by rw [messages_ofSeed] at hm; cases hm
  roomed r m hm := by rw [messages_ofSeed] at hm; cases hm

/-- A store with the same messages and the same last number is numbered alike. -/
theorem Numbered.congr {s' : Store} (hs : Numbered s)
    (hmessages : ∀ r, s'.messages r = s.messages r)
    (hlast : s'.lastMessageId = s.lastMessageId) : Numbered s' where
  increasing r := by rw [hmessages]; exact hs.increasing r
  bounded r := by rw [hmessages, hlast]; exact hs.bounded r
  roomed r := by rw [hmessages]; exact hs.roomed r

theorem messages_createRoom : (s.createRoom r).2.messages r' = s.messages r' := by
  unfold createRoom
  split
  next => rfl
  next hnew =>
    unfold messages
    rw [ExtTreeMap.getElem?_insert]
    simp only [Std.compare_eq_iff_eq]
    split
    next hrr =>
      have hnone : s.rooms[r']? = none := by
        rw [← hrr]
        simpa using hnew
      rw [hnone]
      rfl
    next => rfl

theorem lastMessageId_createRoom : (s.createRoom r).2.lastMessageId = s.lastMessageId := by
  unfold createRoom
  split <;> rfl

theorem messages_addMember {name : String} :
    (s.addMember r u name).2.messages r' = s.messages r' := by
  unfold addMember
  cases hroom : s.rooms[r]? with
  | none => rfl
  | some room =>
    unfold messages
    rw [ExtTreeMap.getElem?_insert]
    simp only [Std.compare_eq_iff_eq]
    split
    next hrr =>
      rw [← hrr, hroom]
      rfl
    next => rfl

theorem lastMessageId_addMember {name : String} :
    (s.addMember r u name).2.lastMessageId = s.lastMessageId := by
  unfold addMember
  split <;> rfl

/-! ## Storing a message -/

/-- A refused message leaves the store as it was; a stored one has the next number, names
the room it was sent to, and is appended there. -/
theorem persist_cases (s : Store) (now : Instant) (r : RoomId) (u : UserId) (d : Draft) :
    (∃ e, s.persist now r u d = (.error e, s)) ∨
    (∃ m s', s.persist now r u d = (.ok m, s') ∧ m.id = s.lastMessageId + 1 ∧ m.room = r ∧
      s'.lastMessageId = s.lastMessageId + 1 ∧
      ∀ r', s'.messages r' = if r = r' then s.messages r ++ [m] else s.messages r') := by
  unfold persist
  cases hroom : s.rooms[r]? with
  | none => exact Or.inl ⟨_, rfl⟩
  | some room =>
    dsimp only
    cases hname : room.members[u]? with
    | none => exact Or.inl ⟨_, rfl⟩
    | some name =>
      refine Or.inr ⟨_, _, rfl, rfl, rfl, rfl, fun r' => ?_⟩
      unfold messages
      rw [ExtTreeMap.getElem?_insert]
      simp only [Std.compare_eq_iff_eq]
      split
      next hrr =>
        rw [hroom]
        exact Array.toList_push
      next => rfl

/-- A stored message is the last one of its room. -/
theorem mem_messages_of_persist (h : (s.persist now r u d).1 = .ok m) :
    m ∈ (s.persist now r u d).2.messages r ∧ m.room = r := by
  rcases persist_cases s now r u d with ⟨e, heq⟩ | ⟨m', s', heq, -, hroom, -, hmessages⟩
  · rw [heq] at h
    cases h
  · rw [heq] at h ⊢
    cases h
    refine ⟨?_, hroom⟩
    show m ∈ s'.messages r
    rw [hmessages, if_pos rfl]
    exact List.mem_append_right _ List.mem_cons_self

/-- Storing a message appends to what is stored, whatever the room. -/
theorem prefix_messages_persist : s.messages r' <+: (s.persist now r u d).2.messages r' := by
  rcases persist_cases s now r u d with ⟨e, heq⟩ | ⟨m, s', heq, -, -, -, hmessages⟩
  · rewrite [heq]
    exact List.prefix_refl _
  · rw [heq]
    show _ <+: s'.messages r'
    rw [hmessages]
    split
    next hrr =>
      rw [← hrr]
      exact List.prefix_append _ _
    next => exact List.prefix_refl _

/-- Storing a message keeps the numbering in order. -/
theorem numbered_persist (hs : Numbered s) : Numbered (s.persist now r u d).2 := by
  rcases persist_cases s now r u d with ⟨e, heq⟩ | ⟨m, s', heq, hid, hroom, hlast, hmessages⟩
  · rw [heq]
    exact hs
  · rw [heq]
    show Numbered s'
    refine ⟨fun r' => ?_, fun r' m' hm' => ?_, fun r' m' hm' => ?_⟩
    · rw [hmessages]
      split
      next =>
        rw [List.pairwise_append]
        refine ⟨hs.increasing r, List.pairwise_singleton _ m, fun a ha b hb => ?_⟩
        rw [List.mem_singleton.mp hb, hid]
        have hle := hs.bounded r a ha
        omega
      next => exact hs.increasing r'
    · rw [hlast]
      rw [hmessages] at hm'
      split at hm'
      next =>
        rcases List.mem_append.mp hm' with hold | hnew
        · have hle := hs.bounded r m' hold
          omega
        · have hlatest : m'.id = s.lastMessageId + 1 := by rw [List.mem_singleton.mp hnew, hid]
          omega
      next =>
        have hle := hs.bounded r' m' hm'
        omega
    · rw [hmessages] at hm'
      split at hm'
      next hrr =>
        rcases List.mem_append.mp hm' with hold | hnew
        · exact (hs.roomed r m' hold).trans hrr
        · rw [List.mem_singleton.mp hnew, hroom, hrr]
      next => exact hs.roomed r' m' hm'

/-! ## Reading the last messages -/

/-- What is handed out of a list of messages. -/
def lastOf (limit : Nat) (ms : List Message) : List Message :=
  ms.drop (ms.length - clampHistory limit)

/-- A reading that succeeds returns the end of what is stored in the room. -/
theorem recentMessages_eq_ok {limit : Nat} {ms : List Message}
    (h : s.recentMessages r limit = .ok ms) : ms = lastOf limit (s.messages r) := by
  unfold recentMessages at h
  unfold lastOf messages
  cases hroom : s.rooms[r]? with
  | none =>
    rw [hroom] at h
    cases h
  | some room =>
    rw [hroom] at h
    cases h
    rfl

/-- A message that the end of an ordered list leaves out is older than all that the end
holds, and the end is as long as it may be. -/
theorem mem_lastOf_or_older {limit : Nat} {ms : List Message}
    (horder : ms.Pairwise fun a b => a.id < b.id) (hm : m ∈ ms) :
    m ∈ lastOf limit ms ∨
      ((∀ x ∈ lastOf limit ms, m.id < x.id) ∧ (lastOf limit ms).length = clampHistory limit) := by
  unfold lastOf
  have hsplit := List.take_append_drop (ms.length - clampHistory limit) ms
  rw [← hsplit] at hm horder
  rcases List.mem_append.mp hm with hearly | hlate
  · right
    refine ⟨fun x hx => (List.pairwise_append.mp horder).2.2 m hearly x hx, ?_⟩
    -- something is left out, so the list is longer than what is handed out
    have hpos : 0 < (ms.take (ms.length - clampHistory limit)).length :=
      List.length_pos_of_mem hearly
    rw [List.length_take] at hpos
    rw [List.length_drop]
    omega
  · exact Or.inl hlate

/-! ## Rooms and members stay -/

/-- Every room and every member of one store is in the other. -/
structure Grows (s s' : Store) : Prop where
  rooms : ∀ r, s.roomExists r = true → s'.roomExists r = true
  members : ∀ r u, s.isMember r u = true → s'.isMember r u = true

theorem Grows.refl (s : Store) : Grows s s where
  rooms _ h := h
  members _ _ h := h

theorem Grows.trans {s' s'' : Store} (h : Grows s s') (h' : Grows s' s'') : Grows s s'' where
  rooms r hr := h'.rooms r (h.rooms r hr)
  members r u hu := h'.members r u (h.members r u hu)

/-- A user is a member when the room exists and lists the user. -/
theorem isMember_eq_true :
    s.isMember r u = true ↔ ∃ room, s.rooms[r]? = some room ∧ room.members.contains u = true := by
  unfold isMember
  cases s.rooms[r]? with
  | none => simp
  | some room => simp

/-- A store in which one room is written grows, if the room keeps its members. -/
theorem grows_insert {room : StoredRoom} {last : Int}
    (hroom : ∀ old, s.rooms[r]? = some old → ∀ u, old.members.contains u = true →
      room.members.contains u = true) : Grows s ⟨s.rooms.insert r room, last⟩ where
  rooms r' h := by
    unfold roomExists at h ⊢
    rw [ExtTreeMap.contains_insert, h, Bool.or_true]
  members r' u h := by
    rw [isMember_eq_true] at h ⊢
    obtain ⟨old, hold, hu⟩ := h
    show ∃ new, (s.rooms.insert r room)[r']? = some new ∧ new.members.contains u = true
    rw [ExtTreeMap.getElem?_insert]
    simp only [Std.compare_eq_iff_eq]
    by_cases hrr : r = r'
    · rw [if_pos hrr]
      subst hrr
      exact ⟨room, rfl, hroom old hold u hu⟩
    · rw [if_neg hrr]
      exact ⟨old, hold, hu⟩

theorem grows_createRoom : Grows s (s.createRoom r).2 := by
  unfold createRoom
  split
  next => exact Grows.refl s
  next hnew =>
    refine grows_insert fun old hold => ?_
    have hthere : s.rooms.contains r = true := by
      rw [ExtTreeMap.contains_eq_isSome_getElem?, hold]
      rfl
    exact absurd hthere hnew

theorem grows_addMember {name : String} : Grows s (s.addMember r u name).2 := by
  unfold addMember
  split
  next => exact Grows.refl s
  next room hroom =>
    refine grows_insert fun old hold v hv => ?_
    rw [hroom] at hold
    cases hold
    rw [ExtTreeMap.contains_insert, hv, Bool.or_true]

/-- Storing a message takes nothing away. -/
theorem grows_persist : Grows s (s.persist now r u d).2 := by
  unfold persist
  split
  next => exact Grows.refl s
  next room hroom =>
    split
    next => exact Grows.refl s
    next =>
      refine grows_insert fun old hold v hv => ?_
      rw [hroom] at hold
      cases hold
      exact hv

end RoomHub.Store
