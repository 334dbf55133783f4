import RoomHub.Proofs.Store.Ledger
import RoomHub.Proofs.Tables

/-!
# Seeding a store, or building it by hand

A seed is loaded at once: a later entry takes the place of an earlier one, rooms as a whole. By hand
a room is created, which a room that exists already refuses, and then its members are added one
after the other. `building` are the calls by which somebody would build what a seed lists.

> `rooms_ofSeed_iff`: the last entry of a room counts, as it is;
> `name?_ofSeed`: within it the last entry of a user;
> `run_building`: building is never refused, and comes to the same store, if no room is listed twice;
> `seeding_agrees_with_building`: so what a seed lists is what there is, and nobody can tell how it
> came there.
-/

namespace RoomHub.Store

open Std (ExtTreeMap)
open Tables (Stands)

variable {seed : List Seed.Room} {ms : List Seed.Member} {room : Seed.Room} {r : RoomId}
  {u : UserId} {name : String}

/-! ## What a seed says -/

/-- A room of a seed, as it is stored. -/
def seeded (room : Seed.Room) : StoredRoom := ⟨seedMembers room.members, #[]⟩

/-- A seeded room is that of the last entry with its id. -/
theorem rooms_ofSeed_iff {stored : StoredRoom} :
    (ofSeed seed).rooms[r]? = some stored ↔
      ∃ room, Stands Seed.Room.id room seed ∧ room.id = r ∧ seeded room = stored :=
  Tables.getElem?_filled_iff

/-- A seeded member has the name of the last entry with that id. -/
theorem getElem?_seedMembers_iff :
    (seedMembers ms)[u]? = some name ↔
      ∃ m, Stands Seed.Member.id m ms ∧ m.id = u ∧ m.name = name :=
  Tables.getElem?_filled_iff

/-- The names in a seeded room are those of its last entry. -/
theorem names?_ofSeed (hroom : Stands Seed.Room.id room seed) :
    (ofSeed seed).names? room.id = some (seedMembers room.members) :=
  names?_of_some (rooms_ofSeed_iff.mpr ⟨room, hroom, rfl, rfl⟩)

/-- The rooms that exist are those of the seed. -/
theorem roomExists_ofSeed : (ofSeed seed).roomExists r = true ↔ ∃ room ∈ seed, room.id = r := by
  unfold roomExists
  rw [ExtTreeMap.contains_eq_isSome_getElem?, Option.isSome_iff_exists]
  constructor
  · rintro ⟨stored, hstored⟩
    obtain ⟨room, hroom, hid, -⟩ := rooms_ofSeed_iff.mp hstored
    exact ⟨room, hroom.mem, hid⟩
  · rintro ⟨room, hmem, rfl⟩
    obtain ⟨last, hlast, hid⟩ := Tables.exists_stands Seed.Room.id hmem
    exact ⟨_, rooms_ofSeed_iff.mpr ⟨last, hlast, hid, rfl⟩⟩

/-- The last entry of a user in the last entry of a room gives the user's name there. -/
theorem name?_ofSeed (hroom : Stands Seed.Room.id room seed) :
    (ofSeed seed).name? room.id u = some name ↔
      ∃ m, Stands Seed.Member.id m room.members ∧ m.id = u ∧ m.name = name := by
  unfold name?
  rw [names?_ofSeed hroom, Option.bind_some, getElem?_seedMembers_iff]

/-- The members of a seeded room are those listed in its last entry. -/
theorem isMember_ofSeed (hroom : Stands Seed.Room.id room seed) :
    (ofSeed seed).isMember room.id u = true ↔ ∃ m ∈ room.members, m.id = u := by
  rw [isMember_eq, Option.isSome_iff_exists]
  constructor
  · rintro ⟨name, hname⟩
    obtain ⟨m, hm, hid, -⟩ := (name?_ofSeed hroom).mp hname
    exact ⟨m, hm.mem, hid⟩
  · rintro ⟨m, hmem, rfl⟩
    obtain ⟨last, hlast, hid⟩ := Tables.exists_stands Seed.Member.id hmem
    exact ⟨_, (name?_ofSeed hroom).mpr ⟨last, hlast, hid, rfl⟩⟩

/-- A seeded room has no messages. -/
theorem recentMessages_ofSeed (limit : Nat) (h : (ofSeed seed).roomExists r = true) :
    (ofSeed seed).recentMessages r limit = .ok [] := by
  rw [roomExists_eq, Option.isSome_iff_exists] at h
  obtain ⟨members, hmembers⟩ := h
  rw [recentMessages_eq, hmembers, messages_ofSeed, lastOf, List.drop_nil]

/-! ## Building it by hand -/

/-- The calls that create the rooms of a seed and add their members, in the order of the seed. -/
def building (seed : List Seed.Room) : List Request :=
  seed.flatMap fun room =>
    .createRoom room.id :: room.members.map fun m => .addMember room.id m.id m.name

theorem run_cons (q : Request) (qs : List Request) (s : Store) :
    s.run (q :: qs)
      = ((s.handle q).1 :: ((s.handle q).2.run qs).1, ((s.handle q).2.run qs).2) := rfl

theorem run_append (qs qs' : List Request) (s : Store) :
    s.run (qs ++ qs') = ((s.run qs).1 ++ ((s.run qs).2.run qs').1, ((s.run qs).2.run qs').2) := by
  induction qs generalizing s with
  | nil => rfl
  | cons q qs ih =>
    rw [List.cons_append, run_cons, run_cons, ih]
    rfl

/-- Members are added to a room that is there as the seed would have them. -/
theorem run_addMembers (t : ExtTreeMap RoomId StoredRoom) (members : ExtTreeMap UserId String)
    (messages : Array Message) (last : Int) (ms : List Seed.Member) :
    (Store.mk (t.insert r ⟨members, messages⟩) last).run
        (ms.map fun m => .addMember r m.id m.name)
      = (ms.map fun _ => .added (.ok ()),
        ⟨t.insert r ⟨ms.foldl (fun t m => t.insert m.id m.name) members, messages⟩, last⟩) := by
  induction ms generalizing members with
  | nil => rfl
  | cons m ms ih =>
    have hadd : (Store.mk (t.insert r ⟨members, messages⟩) last).handle (.addMember r m.id m.name)
        = (.added (.ok ()), ⟨t.insert r ⟨members.insert m.id m.name, messages⟩, last⟩) := by
      simp only [handle, addMember, ExtTreeMap.getElem?_insert_self, Prod.map, id,
        Tables.insert_insert]
    rw [List.map_cons, run_cons, hadd, ih]
    rfl

/-- Building a room that is not there. -/
theorem run_room {s : Store} (hnew : s.roomExists room.id = false) :
    s.run (.createRoom room.id :: room.members.map fun m => .addMember room.id m.id m.name)
      = (.created true :: room.members.map fun _ => .added (.ok ()),
        { s with rooms := s.rooms.insert room.id (seeded room) }) := by
  have hcreate : s.handle (.createRoom room.id)
      = (.created true, { s with rooms := s.rooms.insert room.id .empty }) := by
    unfold roomExists at hnew
    simp [handle, createRoom, hnew]
  rw [run_cons, hcreate, StoredRoom.empty, run_addMembers]
  rfl

/-- Building rooms that are not there, each once, is never refused, and stores what the seed says. -/
theorem run_building {s : Store} (hdistinct : (seed.map (·.id)).Nodup)
    (hnew : ∀ room ∈ seed, s.roomExists room.id = false) :
    (∀ answer ∈ (s.run (building seed)).1, answer.isRefusal = false) ∧
      (s.run (building seed)).2
        = { s with rooms := seed.foldl (fun t room => t.insert room.id (seeded room)) s.rooms } := by
  induction seed generalizing s with
  | nil => exact ⟨nofun, rfl⟩
  | cons room seed ih =>
    rw [List.map_cons, List.nodup_cons] at hdistinct
    obtain ⟨hfirst, hrest⟩ := hdistinct
    have hroom := run_room (hnew room List.mem_cons_self)
    -- the rooms behind it are still missing
    have hmissing : ∀ later ∈ seed,
        ({ s with rooms := s.rooms.insert room.id (seeded room) } : Store).roomExists later.id
          = false := by
      intro later hlater
      have hne : room.id ≠ later.id := fun heq => hfirst (heq ▸ List.mem_map_of_mem hlater)
      have hthere := hnew later (List.mem_cons_of_mem _ hlater)
      unfold roomExists at hthere ⊢
      rw [ExtTreeMap.contains_insert, hthere, Bool.or_false]
      simpa using hne
    obtain ⟨hanswers, hstore⟩ := ih hrest hmissing
    have hcons : building (room :: seed)
        = (.createRoom room.id :: room.members.map fun m => .addMember room.id m.id m.name)
          ++ building seed := List.flatMap_cons
    rw [hcons, run_append, hroom]
    refine ⟨fun answer hanswer => ?_, hstore⟩
    rcases List.mem_append.mp hanswer with hearly | hlate
    · rcases List.mem_cons.mp hearly with rfl | hadded
      · rfl
      · obtain ⟨m, -, rfl⟩ := List.mem_map.mp hadded
        rfl
    · exact hanswers answer hlate

/-! ## The first message -/

/-- Whatever is called on a seeded store, the first message that it stores is the first of all. -/
theorem first_id_ofSeed (qs : List Request) {m : Message}
    (h : (((ofSeed seed).run qs).1.filterMap Answer.message?).head? = some m) : m.id = 1 := by
  obtain ⟨hanswers, hr⟩ := represents_run (represents_ofSeed seed) qs
  have hlog : ((Ledger.ofSeed seed).run qs).2.log
      = ((ofSeed seed).run qs).1.filterMap Answer.message? := by
    rw [hanswers]
    exact Ledger.log_run qs (Ledger.ofSeed seed)
  obtain ⟨rest, hrest⟩ := List.head?_eq_some_iff.mp h
  have hids := hr.numbers
  rw [hlog, hrest, List.length_cons, List.range_succ_eq_map, List.map_cons, List.map_cons] at hids
  exact (List.cons.inj hids).1

/-! ## Every seed -/

/-- For every seed: the store has the rooms that are listed. The last entry of a room decides who
its members are, and in that entry the last one of a user decides what the user is called. There
are no messages, and the first one to be stored, whatever is called before, gets the number one.
If no room is listed twice, then building the rooms by hand is never refused, and any calls from
there on are answered as they are by the seeded store, and lead to the same store. -/
theorem seeding_agrees_with_building (seed : List Seed.Room) :
    (∀ r, (ofSeed seed).roomExists r = true ↔ ∃ room ∈ seed, room.id = r) ∧
    (∀ room, Stands Seed.Room.id room seed →
      (∀ u, (ofSeed seed).isMember room.id u = true ↔ ∃ m ∈ room.members, m.id = u) ∧
      ∃ people, (ofSeed seed).listMembers room.id = .ok people ∧
        ∀ p, p ∈ people ↔ ∃ m, Stands Seed.Member.id m room.members ∧ p = ⟨m.id, m.name⟩) ∧
    (∀ r limit, (ofSeed seed).roomExists r = true →
      (ofSeed seed).recentMessages r limit = .ok []) ∧
    (∀ qs m, (((ofSeed seed).run qs).1.filterMap Answer.message?).head? = some m → m.id = 1) ∧
    ((seed.map (·.id)).Nodup →
      (∀ answer ∈ (empty.run (building seed)).1, answer.isRefusal = false) ∧
      ∀ qs, (empty.run (building seed)).2.run qs = (ofSeed seed).run qs) := by
  refine ⟨fun r => roomExists_ofSeed, fun room hroom => ⟨fun u => isMember_ofSeed hroom, ?_⟩,
    fun r limit => recentMessages_ofSeed limit, fun qs m => first_id_ofSeed qs,
    fun hdistinct => ?_⟩
  · have hlist := listMembers_eq (s := ofSeed seed) (r := room.id)
    rw [names?_ofSeed hroom] at hlist
    refine ⟨_, hlist, fun p => ?_⟩
    rw [mem_listMembers hlist, name?_ofSeed hroom]
    constructor
    · rintro ⟨m, hm, huser, hname⟩
      exact ⟨m, hm, by rw [huser, hname]⟩
    · rintro ⟨m, hm, rfl⟩
      exact ⟨m, hm, rfl, rfl⟩
  · obtain ⟨hanswers, hstore⟩ := run_building (s := empty) hdistinct fun room _ => by
      simp [roomExists, empty]
    refine ⟨hanswers, fun qs => ?_⟩
    rw [hstore]
    rfl

/-- A lobby in which ann is listed under two names. -/
def lobby : Seed.Room :=
  ⟨⟨⟨7⟩⟩, "lobby", [⟨⟨⟨5⟩⟩, "ann"⟩, ⟨⟨⟨6⟩⟩, "bob"⟩, ⟨⟨⟨5⟩⟩, "anna"⟩]⟩

/-- Another lobby before it, in which carol is listed. -/
def twoLobbies : List Seed.Room := [⟨⟨⟨7⟩⟩, "old lobby", [⟨⟨⟨4⟩⟩, "carol"⟩]⟩, lobby]

/-- A room behind it in which nobody is listed. -/
def lobbyAndAttic : List Seed.Room := [lobby, ⟨⟨⟨8⟩⟩, "attic", []⟩]

/-- Somebody wants to create the attic once more, bob writes to it in vain, and ann to the lobby. -/
def housework : List Request :=
  [.createRoom ⟨⟨8⟩⟩, .persist .epoch ⟨⟨8⟩⟩ ⟨⟨6⟩⟩ ⟨"hm", .text, none⟩,
    .persist .epoch ⟨⟨7⟩⟩ ⟨⟨5⟩⟩ ⟨"hi", .text, none⟩, .listMembers ⟨⟨7⟩⟩]

/-- A lobby seeded twice, with ann listed under two names, and two rooms that are seeded or built
before somebody writes. -/
theorem seeding_agrees_with_building_lobby :
    Stands Seed.Room.id lobby twoLobbies ∧
      (ofSeed twoLobbies).isMember ⟨⟨7⟩⟩ ⟨⟨4⟩⟩ = false ∧
      (∃ people, (ofSeed twoLobbies).listMembers ⟨⟨7⟩⟩ = .ok people ∧
        ⟨⟨⟨5⟩⟩, "anna"⟩ ∈ people ∧ ⟨⟨⟨5⟩⟩, "ann"⟩ ∉ people) ∧
      (lobbyAndAttic.map (·.id)).Nodup ∧
      (empty.run (building lobbyAndAttic)).2.run housework
        = (ofSeed lobbyAndAttic).run housework ∧
      (((ofSeed lobbyAndAttic).run housework).1.filterMap Answer.message?).map (·.id) = [1] := by
  have hstands : Stands Seed.Room.id lobby twoLobbies := ⟨[_], [], rfl, nofun⟩
  have hdistinct : (lobbyAndAttic.map (·.id)).Nodup := by decide
  obtain ⟨-, hrooms, -⟩ := seeding_agrees_with_building twoLobbies
  obtain ⟨hmember, people, hlist, hpeople⟩ := hrooms lobby hstands
  obtain ⟨-, -, -, -, hbuilt⟩ := seeding_agrees_with_building lobbyAndAttic
  refine ⟨hstands, ?_, ⟨people, hlist, ?_, ?_⟩, hdistinct, (hbuilt hdistinct).2 housework, ?_⟩
  · exact Bool.eq_false_iff.mpr fun hcarol =>
      absurd ((hmember ⟨⟨4⟩⟩).mp hcarol) (by decide)
  · exact (hpeople _).mpr ⟨⟨⟨⟨5⟩⟩, "anna"⟩, ⟨[_, _], [], rfl, nofun⟩, rfl⟩
  · intro hann
    obtain ⟨m, hm, heq⟩ := (hpeople _).mp hann
    injection heq with hid hname
    have hlast := Tables.stands_iff.mp hm
    rw [← hid] at hlast
    cases hlast
    exact absurd hname (by decide)
  · rfl

/-- Built by hand, two rooms with one identifier become one with the members of both. -/
example : (empty.run (building twoLobbies)).2.isMember ⟨⟨7⟩⟩ ⟨⟨4⟩⟩ = true := by rfl

end RoomHub.Store
