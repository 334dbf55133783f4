import RoomHub.Proofs.Roster
import RoomHub.Proofs.Store

/-!
# One log behind all rooms

A store keeps a list of messages for each room and one number for all of them. A `Ledger`
is what that amounts to: the members of each room, and one log to which every stored message
is appended. On it a message gets its place in the log as its number, and the messages of a
room are picked out of the log. `Request` names the calls of a store with all they are given,
so that a run of them can be carried out on either side.

`Represents s l` says that a store and a ledger agree; `represents_handle` carries this
through one call together with its answer, `represents_run` through a run.

> `store_refines_log`: after any run from a seeded store, the answers given along the way are
> those of the ledger; the log is the list of the messages that were handed out as stored,
> numbered from one; and what is stored then is never touched again.
-/

namespace RoomHub

open Std (ExtTreeMap)

namespace Store

/-! ## Calls and answers -/

/-- A call of a store. Storing a message comes with the moment that the clock shows. -/
inductive Request where
  | createRoom (room : RoomId)
  | addMember (room : RoomId) (user : UserId) (name : String)
  | persist (now : Instant) (room : RoomId) (user : UserId) (draft : Draft)
  | recentMessages (room : RoomId) (limit : Nat)
  | listMembers (room : RoomId)
  | roomExists (room : RoomId)
  | isMember (room : RoomId) (user : UserId)

/-- What a store answers. -/
inductive Answer where
  | created (new : Bool)
  | added (outcome : Except StoreError Unit)
  | stored (outcome : Except StoreError Message)
  | recent (outcome : Except StoreError (List Message))
  | listed (outcome : Except StoreError (List Participant))
  | told (yes : Bool)

/-- Whether a call was refused: it failed, or the room to be created was there. -/
def Answer.isRefusal : Answer → Bool
  | .created new => !new
  | .added outcome => !outcome.toBool
  | .stored outcome => !outcome.toBool
  | .recent outcome => !outcome.toBool
  | .listed outcome => !outcome.toBool
  | .told _ => false

/-- The message that a call stored. -/
def Answer.message? : Answer → Option Message
  | .stored outcome => outcome.toOption
  | _ => none

/-- Carries out a call. -/
def handle : Request → Store → Answer × Store
  | .createRoom r, s => (s.createRoom r).map .created id
  | .addMember r u name, s => (s.addMember r u name).map .added id
  | .persist now r u d, s => (s.persist now r u d).map .stored id
  | .recentMessages r limit, s => (.recent (s.recentMessages r limit), s)
  | .listMembers r, s => (.listed (s.listMembers r), s)
  | .roomExists r, s => (.told (s.roomExists r), s)
  | .isMember r u, s => (.told (s.isMember r u), s)

/-- Carries out calls one after the other, and keeps the answers. -/
def run : List Request → Store → List Answer × Store
  | [], s => ([], s)
  | q :: qs, s =>
    let (answer, s) := s.handle q
    let (answers, s) := run qs s
    (answer :: answers, s)

/-- The names of the members of a room, if it exists. -/
def names? (s : Store) (r : RoomId) : Option (ExtTreeMap UserId String) :=
  (s.rooms[r]?).map (·.members)

/-- The name of a member of a room. -/
def name? (s : Store) (r : RoomId) (u : UserId) : Option String := (s.names? r).bind (·[u]?)

end Store

/-! ## The ledger -/

open Store (Request Answer)

/-- The members of each room, and all messages in the order in which they were stored. -/
structure Ledger where
  rooms : ExtTreeMap RoomId (ExtTreeMap UserId String)
  log : List Message

namespace Ledger

/-- The ledger that a seed describes; the last entry of a room counts. -/
def ofSeed (rooms : List Seed.Room) : Ledger :=
  ⟨rooms.foldl (fun t r => t.insert r.id (Store.seedMembers r.members)) ∅, []⟩

/-- The messages of a room, oldest first. -/
def posted (l : Ledger) (r : RoomId) : List Message := l.log.filter (·.room = r)

/-- An answer about a room: there is none unless the room exists. -/
def inRoom {α : Type} (l : Ledger) (r : RoomId)
    (answer : ExtTreeMap UserId String → Except StoreError α) : Except StoreError α :=
  match l.rooms[r]? with
  | none => .error (.roomNotFound r)
  | some members => answer members

/-- The name that a member of a room has. -/
def sender (u : UserId) (members : ExtTreeMap UserId String) : Except StoreError String :=
  match members[u]? with
  | none => .error (.userNotFound u)
  | some name => .ok name

/-- Carries out a call. A message is appended to the log and numbered by its place in it. -/
def handle : Request → Ledger → Answer × Ledger
  | .createRoom r, l =>
    match l.rooms[r]? with
    | some _ => (.created false, l)
    | none => (.created true, { l with rooms := l.rooms.insert r ∅ })
  | .addMember r u name, l =>
    match l.inRoom r .ok with
    | .error e => (.added (.error e), l)
    | .ok members =>
      (.added (.ok ()), { l with rooms := l.rooms.insert r (members.insert u name) })
  | .persist now r u d, l =>
    match l.inRoom r (sender u) with
    | .error e => (.stored (.error e), l)
    | .ok name =>
      let m : Message := ⟨l.log.length + 1, r, u, name, d.content, d.kind, d.mediaUrl, now⟩
      (.stored (.ok m), { l with log := l.log ++ [m] })
  | .recentMessages r limit, l =>
    (.recent (l.inRoom r fun _ => .ok (Store.lastOf limit (l.posted r))), l)
  | .listMembers r, l =>
    (.listed (l.inRoom r fun members =>
      .ok (Participant.sort (members.toList.map fun m => ⟨m.1, m.2⟩))), l)
  | .roomExists r, l => (.told (l.rooms[r]?).isSome, l)
  | .isMember r u, l => (.told ((l.rooms[r]?).bind (·[u]?)).isSome, l)

/-- Carries out calls one after the other, and keeps the answers. -/
def run : List Request → Ledger → List Answer × Ledger
  | [], l => ([], l)
  | q :: qs, l =>
    let (answer, l) := l.handle q
    let (answers, l) := run qs l
    (answer :: answers, l)

/-- The log grows by the message that a call stored. -/
theorem log_handle (l : Ledger) (q : Request) :
    (l.handle q).2.log = l.log ++ (l.handle q).1.message?.toList := by
  cases q with
  | createRoom r =>
    simp only [handle]
    split <;> simp [Answer.message?]
  | addMember r u name =>
    simp only [handle]
    split <;> simp [Answer.message?]
  | persist now r u d =>
    simp only [handle]
    split <;> simp [Answer.message?, Except.toOption]
  | recentMessages | listMembers | roomExists | isMember =>
    simp [handle, Answer.message?]

/-- The log holds the messages that the calls stored, in their order. -/
theorem log_run (qs : List Request) (l : Ledger) :
    (l.run qs).2.log = l.log ++ (l.run qs).1.filterMap Answer.message? := by
  induction qs generalizing l with
  | nil => exact (List.append_nil _).symm
  | cons q qs ih =>
    show ((l.handle q).2.run qs).2.log
      = l.log ++ ((l.handle q).1 :: ((l.handle q).2.run qs).1).filterMap Answer.message?
    rw [ih, log_handle, List.append_assoc, List.filterMap_cons]
    cases (l.handle q).1.message? <;> rfl

/-- A message more in the log. -/
theorem posted_concat (l : Ledger) (m : Message) (r : RoomId) :
    (Ledger.mk l.rooms (l.log ++ [m])).posted r
      = if m.room = r then l.posted r ++ [m] else l.posted r := by
  unfold posted
  rw [List.filter_append]
  split
  next hr => simp [hr]
  next hr => simp [hr]

end Ledger

namespace Store

variable {s : Store} {l : Ledger} {r r' : RoomId} {u : UserId} {name : String}
  {now : Instant} {d : Draft} {m : Message}

/-! ## What the calls do to the members -/

theorem names?_of_some {room : StoredRoom} (hroom : s.rooms[r]? = some room) :
    s.names? r = some room.members := by
  unfold names?
  rw [hroom]
  rfl

theorem names?_of_none (hroom : s.rooms[r]? = none) : s.names? r = none := by
  unfold names?
  rw [hroom]
  rfl

/-- A room's members after the room was written. -/
theorem names?_insert {room : StoredRoom} {last : Int} :
    (Store.mk (s.rooms.insert r room) last).names? r'
      = if r = r' then some room.members else s.names? r' := by
  unfold names?
  rw [ExtTreeMap.getElem?_insert]
  simp only [Std.compare_eq_iff_eq]
  split <;> rfl

/-- A room is created empty, unless it exists; then nothing changes. -/
theorem createRoom_cases (s : Store) (r : RoomId) :
    (∃ members, s.names? r = some members ∧ s.createRoom r = (false, s)) ∨
    (∃ s', s.names? r = none ∧ s.createRoom r = (true, s') ∧
      ∀ r', s'.names? r' = if r = r' then some ∅ else s.names? r') := by
  unfold createRoom
  rw [ExtTreeMap.contains_eq_isSome_getElem?]
  cases hroom : s.rooms[r]? with
  | some room => exact Or.inl ⟨room.members, names?_of_some hroom, rfl⟩
  | none => exact Or.inr ⟨_, names?_of_none hroom, rfl, fun r' => names?_insert⟩

/-- A member is written over any earlier entry of the same user, unless there is no such room; then
nothing changes. -/
theorem addMember_cases (s : Store) (r : RoomId) (u : UserId) (name : String) :
    (s.names? r = none ∧ s.addMember r u name = (.error (.roomNotFound r), s)) ∨
    (∃ members s', s.names? r = some members ∧ s.addMember r u name = (.ok (), s') ∧
      ∀ r', s'.names? r' = if r = r' then some (members.insert u name) else s.names? r') := by
  unfold addMember
  cases hroom : s.rooms[r]? with
  | none => exact Or.inl ⟨names?_of_none hroom, rfl⟩
  | some room =>
    exact Or.inr ⟨room.members, _, names?_of_some hroom, rfl, fun r' => names?_insert⟩

/-- A message is refused for want of the room or of the member; otherwise it bears the name
that the member has at that moment, and no membership changes. -/
theorem persist_names (s : Store) (now : Instant) (r : RoomId) (u : UserId) (d : Draft) :
    (s.names? r = none ∧ s.persist now r u d = (.error (.roomNotFound r), s)) ∨
    (∃ members, s.names? r = some members ∧ members[u]? = none ∧
      s.persist now r u d = (.error (.userNotFound u), s)) ∨
    (∃ members name s', s.names? r = some members ∧ members[u]? = some name ∧
      s.persist now r u d
        = (.ok ⟨s.lastMessageId + 1, r, u, name, d.content, d.kind, d.mediaUrl, now⟩, s') ∧
      ∀ r', s'.names? r' = s.names? r') := by
  unfold persist
  cases hroom : s.rooms[r]? with
  | none => exact Or.inl ⟨names?_of_none hroom, rfl⟩
  | some room =>
    right
    have hnames := names?_of_some hroom
    dsimp only
    cases hname : room.members[u]? with
    | none => exact Or.inl ⟨room.members, hnames, hname, rfl⟩
    | some name =>
      refine Or.inr ⟨room.members, name, _, hnames, hname, rfl, fun r' => ?_⟩
      rw [names?_insert]
      split
      next hrr => rw [← hrr, hnames]
      next => rfl

/-! ## What the questions read -/

/-- A room exists when it has names, be there any or not. -/
theorem roomExists_eq : s.roomExists r = (s.names? r).isSome := by
  unfold roomExists names?
  rw [Option.isSome_map, ExtTreeMap.contains_eq_isSome_getElem?]

/-- A user is a member when the room has a name for the user. -/
theorem isMember_eq : s.isMember r u = (s.name? r u).isSome := by
  unfold isMember name? names?
  cases s.rooms[r]? with
  | none => rfl
  | some room => exact ExtTreeMap.contains_eq_isSome_getElem?

/-- The members are listed with their names, or the room is missing. -/
theorem listMembers_eq :
    s.listMembers r = match s.names? r with
      | none => .error (.roomNotFound r)
      | some members => .ok (Participant.sort (members.toList.map fun m => ⟨m.1, m.2⟩)) := by
  unfold listMembers names?
  cases s.rooms[r]? <;> rfl

/-- The messages are read off the room, or the room is missing. -/
theorem recentMessages_eq (limit : Nat) :
    s.recentMessages r limit = match s.names? r with
      | none => .error (.roomNotFound r)
      | some _ => .ok (lastOf limit (s.messages r)) := by
  unfold recentMessages names? lastOf messages
  cases s.rooms[r]? <;> rfl

/-! ## A store and its ledger -/

/-- A store and a ledger have the same rooms with the same members; the store's messages are
those of the log, by rooms; and the log is numbered from one, up to the store's last number. -/
structure Represents (s : Store) (l : Ledger) : Prop where
  rooms : ∀ r, s.names? r = l.rooms[r]?
  messages : ∀ r, s.messages r = l.posted r
  last : s.lastMessageId = l.log.length
  numbers : l.log.map (·.id) = (List.range l.log.length).map fun k : Nat => (k : Int) + 1

/-- Seeded rooms have the members that the ledger of the seed lists. -/
theorem names?_foldl_seed {seed : List Seed.Room} {t : ExtTreeMap RoomId StoredRoom}
    {t' : ExtTreeMap RoomId (ExtTreeMap UserId String)}
    (ht : ∀ r : RoomId, (t[r]?).map StoredRoom.members = t'[r]?) (r : RoomId) :
    ((seed.foldl (fun t r => t.insert r.id ⟨seedMembers r.members, #[]⟩) t)[r]?).map
        StoredRoom.members
      = (seed.foldl (fun t r => t.insert r.id (seedMembers r.members)) t')[r]? := by
  induction seed generalizing t t' with
  | nil => exact ht r
  | cons first seed ih =>
    refine ih fun r' => ?_
    rw [ExtTreeMap.getElem?_insert, ExtTreeMap.getElem?_insert]
    split
    · rfl
    · exact ht r'

/-- A seeded store is the ledger that the seed describes. -/
theorem represents_ofSeed (seed : List Seed.Room) :
    Represents (ofSeed seed) (Ledger.ofSeed seed) where
  rooms r := names?_foldl_seed (fun r => by simp) r
  messages r := messages_ofSeed seed
  last := rfl
  numbers := rfl

/-! ## One call -/

theorem represents_createRoom (hr : Represents s l) (r : RoomId) :
    (s.handle (.createRoom r)).1 = (l.handle (.createRoom r)).1 ∧
      Represents (s.handle (.createRoom r)).2 (l.handle (.createRoom r)).2 := by
  have hmessages : ∀ r', (s.createRoom r).2.messages r' = s.messages r' :=
    fun r' => messages_createRoom
  have hlast : (s.createRoom r).2.lastMessageId = s.lastMessageId := lastMessageId_createRoom
  simp only [handle, Ledger.handle, ← hr.rooms]
  rcases s.createRoom_cases r with ⟨members, hthere, heq⟩ | ⟨s', hnew, heq, hnames⟩
  · rw [heq, hthere]
    exact ⟨rfl, hr⟩
  · rw [heq] at hmessages hlast ⊢
    rw [hnew]
    refine ⟨rfl, fun r' => ?_, fun r' => ?_, hlast.trans hr.last, hr.numbers⟩
    · show s'.names? r' = (l.rooms.insert r ∅)[r']?
      rw [hnames, hr.rooms, ExtTreeMap.getElem?_insert]
      simp only [Std.compare_eq_iff_eq]
    · exact (hmessages r').trans (hr.messages r')

theorem represents_addMember (hr : Represents s l) (r : RoomId) (u : UserId) (name : String) :
    (s.handle (.addMember r u name)).1 = (l.handle (.addMember r u name)).1 ∧
      Represents (s.handle (.addMember r u name)).2 (l.handle (.addMember r u name)).2 := by
  have hmessages : ∀ r', (s.addMember r u name).2.messages r' = s.messages r' :=
    fun r' => messages_addMember
  have hlast : (s.addMember r u name).2.lastMessageId = s.lastMessageId :=
    lastMessageId_addMember
  simp only [handle, Ledger.handle, Ledger.inRoom, ← hr.rooms]
  rcases s.addMember_cases r u name with ⟨hnone, heq⟩ | ⟨members, s', hthere, heq, hnames⟩
  · rw [heq, hnone]
    exact ⟨rfl, hr⟩
  · rw [heq] at hmessages hlast ⊢
    rw [hthere]
    refine ⟨rfl, fun r' => ?_, fun r' => ?_, hlast.trans hr.last, hr.numbers⟩
    · show s'.names? r' = (l.rooms.insert r (members.insert u name))[r']?
      rw [hnames, hr.rooms, ExtTreeMap.getElem?_insert]
      simp only [Std.compare_eq_iff_eq]
    · exact (hmessages r').trans (hr.messages r')

/-- A stored message becomes the last one of the log. -/
theorem represents_persist (hr : Represents s l) (now : Instant) (r : RoomId) (u : UserId)
    (d : Draft) :
    (s.handle (.persist now r u d)).1 = (l.handle (.persist now r u d)).1 ∧
      Represents (s.handle (.persist now r u d)).2 (l.handle (.persist now r u d)).2 := by
  have hcases := s.persist_cases now r u d
  simp only [handle, Ledger.handle, Ledger.inRoom, ← hr.rooms]
  rcases s.persist_names now r u d with ⟨hnone, heq⟩ | ⟨members, hthere, hstranger, heq⟩ |
    ⟨members, name, s', hthere, hname, heq, hnames⟩
  · rw [heq, hnone]
    exact ⟨rfl, hr⟩
  · simp only [heq, hthere, Ledger.sender, hstranger]
    exact ⟨rfl, hr⟩
  · rw [heq] at hcases
    simp only [heq, hthere, Ledger.sender, hname, hr.last]
    rcases hcases with ⟨e, hrefused⟩ | ⟨m, s'', hstored, -, -, hlast, hmessages⟩
    · cases hrefused
    · cases hstored
      rw [hr.last] at hlast hmessages
      refine ⟨rfl, fun r' => ?_, fun r' => ?_, ?_, ?_⟩
      · exact (hnames r').trans (hr.rooms r')
      · show s'.messages r' = _
        rw [hmessages, Ledger.posted_concat, hr.messages, hr.messages]
        split
        next hrr => rw [hrr]
        next => rfl
      · show s'.lastMessageId = _
        rw [hlast, List.length_append]
        rfl
      · show List.map _ (l.log ++ [_]) = _
        rw [List.map_append, hr.numbers, List.length_append, List.length_singleton,
          List.range_succ, List.map_append]
        rfl

/-- A call answers the same on both sides, and leaves them in agreement. -/
theorem represents_handle (hr : Represents s l) (q : Request) :
    (s.handle q).1 = (l.handle q).1 ∧ Represents (s.handle q).2 (l.handle q).2 := by
  cases q with
  | createRoom r => exact represents_createRoom hr r
  | addMember r u name => exact represents_addMember hr r u name
  | persist now r u d => exact represents_persist hr now r u d
  | recentMessages r limit =>
    refine ⟨?_, hr⟩
    simp only [handle, Ledger.handle, Ledger.inRoom, recentMessages_eq, hr.rooms, hr.messages]
  | listMembers r =>
    refine ⟨?_, hr⟩
    simp only [handle, Ledger.handle, Ledger.inRoom, listMembers_eq, hr.rooms]
  | roomExists r =>
    refine ⟨?_, hr⟩
    simp only [handle, Ledger.handle, roomExists_eq, hr.rooms]
  | isMember r u =>
    refine ⟨?_, hr⟩
    simp only [handle, Ledger.handle, isMember_eq, name?, hr.rooms]

/-- Any run of calls gives the ledger's answers and ends in a store that is the ledger still. -/
theorem represents_run (hr : Represents s l) (qs : List Request) :
    (s.run qs).1 = (l.run qs).1 ∧ Represents (s.run qs).2 (l.run qs).2 := by
  induction qs generalizing s l with
  | nil => exact ⟨rfl, hr⟩
  | cons q qs ih =>
    obtain ⟨hanswer, hnext⟩ := represents_handle hr q
    obtain ⟨hanswers, hlast⟩ := ih hnext
    refine ⟨?_, hlast⟩
    show (s.handle q).1 :: ((s.handle q).2.run qs).1 = (l.handle q).1 :: ((l.handle q).2.run qs).1
    rw [hanswer, hanswers]

/-! ## What is stored, and what is handed out -/

/-- A member of a room sends under the name that the list of members shows. -/
theorem mem_listMembers {p : Participant} {people : List Participant}
    (hlist : s.listMembers r = .ok people) : p ∈ people ↔ s.name? r p.user = some p.name := by
  rw [listMembers_eq] at hlist
  unfold name?
  cases hthere : s.names? r with
  | none =>
    rw [hthere] at hlist
    cases hlist
  | some members =>
    rw [hthere] at hlist
    cases hlist
    rw [Participant.mem_sort, List.mem_map, Option.bind_some]
    constructor
    · intro hp
      obtain ⟨entry, hentry, rfl⟩ := hp
      exact ExtTreeMap.mem_toList_iff_getElem?_eq_some.mp hentry
    · intro hname
      exact ⟨(p.user, p.name), ExtTreeMap.mem_toList_iff_getElem?_eq_some.mpr hname, rfl⟩

/-- Storing a message succeeds exactly for a member of the room, and gives the message the
next number and the name that the member goes by. -/
theorem persist_eq_ok_iff :
    (s.persist now r u d).1 = .ok m ↔ ∃ people name, s.listMembers r = .ok people ∧
      ⟨u, name⟩ ∈ people ∧
      m = ⟨s.lastMessageId + 1, r, u, name, d.content, d.kind, d.mediaUrl, now⟩ := by
  constructor
  · intro hok
    rcases s.persist_names now r u d with ⟨-, heq⟩ | ⟨_, -, -, heq⟩ |
      ⟨members, name, s', hthere, hname, heq, -⟩
    · rw [heq] at hok
      cases hok
    · rw [heq] at hok
      cases hok
    · rw [heq] at hok
      cases hok
      have hlist := listMembers_eq (s := s) (r := r)
      rw [hthere] at hlist
      refine ⟨_, name, hlist, (mem_listMembers hlist).mpr ?_, rfl⟩
      unfold name?
      rw [hthere, Option.bind_some, hname]
  · intro hmember
    obtain ⟨people, name, hlist, hin, rfl⟩ := hmember
    have hname := (mem_listMembers hlist).mp hin
    unfold name? at hname
    rcases s.persist_names now r u d with ⟨hnone, -⟩ | ⟨members, hthere, hstranger, -⟩ |
      ⟨members, name', s', hthere, hname', heq, -⟩
    · rw [hnone] at hname
      cases hname
    · rw [hthere, Option.bind_some, hstranger] at hname
      cases hname
    · rw [hthere, Option.bind_some, hname'] at hname
      cases hname
      rw [heq]

/-- A limit from 1 to 200 is taken as it is, and any other as 50. -/
theorem clampHistory_eq (limit : Nat) :
    clampHistory limit = if 1 ≤ limit ∧ limit ≤ 200 then limit else 50 := by
  unfold clampHistory defaultHistory maxHistory
  by_cases h : 1 ≤ limit ∧ limit ≤ 200
  · rw [if_pos h, if_neg (by omega)]
  · rw [if_neg h, if_pos (by omega)]

/-- As many messages are read as the limit allows, or all there are. -/
theorem length_lastOf (limit : Nat) (ms : List Message) :
    (lastOf limit ms).length = min (clampHistory limit) ms.length := by
  unfold lastOf
  rw [List.length_drop]
  omega

/-- What is read is the end of what is there. -/
theorem lastOf_suffix (limit : Nat) (ms : List Message) : lastOf limit ms <:+ ms :=
  List.drop_suffix _ ms

/-- The numbers of a ledger's messages go up. -/
theorem Represents.increasing (hr : Represents s l) : l.log.Pairwise fun a b => a.id < b.id := by
  have hids : (l.log.map (·.id)).Pairwise (· < ·) := by
    rw [hr.numbers, List.pairwise_map]
    refine List.pairwise_lt_range.imp fun hlt => ?_
    omega
  exact List.pairwise_map.mp hids

/-! ## What stays -/

/-- A refused call, and a question, leave the store as it was. -/
theorem handle_of_isRefusal (s : Store) (q : Request) (h : (s.handle q).1.isRefusal = true) :
    (s.handle q).2 = s := by
  cases q with
  | createRoom r =>
    simp only [handle] at h ⊢
    rcases s.createRoom_cases r with ⟨members, -, heq⟩ | ⟨s', -, heq, -⟩
    · rw [heq]
      rfl
    · rw [heq] at h
      cases h
  | addMember r u name =>
    simp only [handle] at h ⊢
    rcases s.addMember_cases r u name with ⟨-, heq⟩ | ⟨members, s', -, heq, -⟩
    · rw [heq]
      rfl
    · rw [heq] at h
      cases h
  | persist now r u d =>
    simp only [handle] at h ⊢
    rcases s.persist_cases now r u d with ⟨e, heq⟩ | ⟨m, s', heq, -⟩
    · rw [heq]
      rfl
    · rw [heq] at h
      cases h
  | recentMessages | listMembers | roomExists | isMember => rfl

/-- No call rewrites or removes a message. -/
theorem prefix_messages_handle (s : Store) (q : Request) (r : RoomId) :
    s.messages r <+: (s.handle q).2.messages r := by
  cases q with
  | createRoom r' =>
    show _ <+: (s.createRoom r').2.messages r
    rewrite [messages_createRoom]
    exact List.prefix_refl _
  | addMember r' u name =>
    show _ <+: (s.addMember r' u name).2.messages r
    rewrite [messages_addMember]
    exact List.prefix_refl _
  | persist now r' u d => exact prefix_messages_persist
  | recentMessages | listMembers | roomExists | isMember => exact List.prefix_refl _

/-- What is stored once is there for good, unchanged and in its place. -/
theorem prefix_messages_run (qs : List Request) (s : Store) (r : RoomId) :
    s.messages r <+: (s.run qs).2.messages r := by
  induction qs generalizing s with
  | nil => exact List.prefix_refl _
  | cons q qs ih => exact (s.prefix_messages_handle q r).trans (ih (s.handle q).2)

/-! ## Every run -/

/-- After any run of calls from a seeded store: every answer along the way is the ledger's.
The log of the ledger is the list of the messages that were answered as stored, over all
rooms, and their numbers are one, two, three and so on; each room has its part of the log. A
further message gets the next number and the name that its sender has in the list of members
just then. The last messages of a room are the end of its part of the log, as long as the
clamped limit allows, with increasing numbers. Whatever is called next, the messages stay,
and a refused call changes nothing at all. -/
theorem store_refines_log (seed : List Seed.Room) (qs : List Request) :
    let answers := ((ofSeed seed).run qs).1
    let s := ((ofSeed seed).run qs).2
    let l := ((Ledger.ofSeed seed).run qs).2
    answers = ((Ledger.ofSeed seed).run qs).1 ∧
    l.log = answers.filterMap Answer.message? ∧
    l.log.map (·.id) = (List.range l.log.length).map (fun k : Nat => (k : Int) + 1) ∧
    s.lastMessageId = l.log.length ∧
    (∀ r, s.messages r = l.posted r) ∧
    (∀ now r u d m, (s.persist now r u d).1 = .ok m ↔
      ∃ people name, s.listMembers r = .ok people ∧ ⟨u, name⟩ ∈ people ∧
        m = ⟨l.log.length + 1, r, u, name, d.content, d.kind, d.mediaUrl, now⟩) ∧
    (∀ r limit, s.roomExists r = true → ∃ ms, s.recentMessages r limit = .ok ms ∧
      ms <:+ l.posted r ∧
      ms.length = min (if 1 ≤ limit ∧ limit ≤ 200 then limit else 50) (l.posted r).length ∧
      ms.Pairwise fun a b => a.id < b.id) ∧
    (∀ more r, s.messages r <+: (s.run more).2.messages r) ∧
    (∀ q, (s.handle q).1.isRefusal = true → (s.handle q).2 = s) := by
  intro answers s l
  obtain ⟨hanswers, hr⟩ : answers = ((Ledger.ofSeed seed).run qs).1 ∧ Represents s l :=
    represents_run (represents_ofSeed seed) qs
  have hlog : l.log = answers.filterMap Answer.message? := by
    rw [hanswers]
    exact Ledger.log_run qs (Ledger.ofSeed seed)
  refine ⟨hanswers, hlog, hr.numbers, hr.last, hr.messages, ?_, ?_,
    fun more r => prefix_messages_run more s r, handle_of_isRefusal s⟩
  · intro now r u d m
    rw [← hr.last]
    exact persist_eq_ok_iff
  · intro r limit hthere
    rw [roomExists_eq, Option.isSome_iff_exists] at hthere
    obtain ⟨members, hmembers⟩ := hthere
    have hsuffix := lastOf_suffix limit (l.posted r)
    refine ⟨lastOf limit (l.posted r), ?_, hsuffix, ?_, ?_⟩
    · rw [recentMessages_eq, hmembers, hr.messages]
    · rw [length_lastOf, clampHistory_eq]
    · exact hr.increasing.sublist (hsuffix.sublist.trans List.filter_sublist)

/-- A seed that lists nothing gives the store without rooms. -/
example : ofSeed [] = empty := rfl

end Store

end RoomHub
