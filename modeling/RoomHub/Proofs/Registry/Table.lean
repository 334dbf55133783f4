import Mathlib.Data.List.Dedup
import RoomHub.Proofs.Hub.CallRoster

/-!
# The registry is one table

A registry keeps two maps by hand. A `Table` is what they amount to: one finite map from
identifiers to members. `Update` names the three operations, so that a run of them can be
carried out on either side. On a table each of them reads the entry of its connection and
writes that entry (`Update.rewrite`), and that is all there is to it.

The refinement is step by step. `Represents g t` says that the two maps of `g` mirror each
other and that `t` holds what can be looked up in `g`; `represents_update` carries it
through one operation together with the answer, `represents_run` through a run. All that
can be asked of a registry in between is then read off the table:

> `registry_refines_table`: after any run, every answer given along the way and every
> question asked at the end is answered from the table, and the two maps are exact images
> of each other.
-/

namespace RoomHub.Registry

open Std (ExtTreeMap)

/-- An operation that changes a registry. -/
inductive Update where
  | attach (handle : Handle)
  | detach (connection : ConnectionId)
  | setInCall (connection : ConnectionId) (on : Bool)
  deriving DecidableEq, Repr

/-- What such an operation answers. -/
inductive Outcome where
  | attached (ok : Bool)
  | detached (gone : Option Member)
  | moved (changed : Option Handle)
  deriving DecidableEq, Repr

/-- The connection that an operation is about. -/
def Update.target : Update → ConnectionId
  | .attach handle => handle.id
  | .detach c => c
  | .setInCall c _ => c

/-- Carries out an operation on a registry. -/
def update : Update → Registry → Outcome × Registry
  | .attach handle, g => ((g.attach handle).map .attached id)
  | .detach c, g => ((g.detach c).map .detached id)
  | .setInCall c on, g => ((g.setInCall c on).map .moved id)

/-- Carries out operations one after the other, and keeps the answers. -/
def run : List Update → Registry → List Outcome × Registry
  | [], g => ([], g)
  | u :: us, g =>
    let (answer, g) := g.update u
    let (answers, g) := run us g
    (answer :: answers, g)

/-! ## One table -/

/-- What an operation answers by the entry of its connection, and what it makes of it. -/
def Update.rewrite : Update → Option Member → Outcome × Option Member
  | .attach handle, none => (.attached true, some ⟨handle, false⟩)
  | .attach _, some m => (.attached false, some m)
  | .detach _, x => (.detached x, none)
  | .setInCall _ _, none => (.moved none, none)
  | .setInCall _ on, some m =>
    if m.inCall = on then (.moved none, some m)
    else (.moved (some m.handle), some { m with inCall := on })

/-- The registered connections, by identifier. -/
abbrev Table := ExtTreeMap ConnectionId Member

namespace Table

/-- Carries out an operation on a table: it reads one entry and writes that entry. -/
def update (u : Update) (t : Table) : Outcome × Table :=
  ((u.rewrite t[u.target]?).1, t.alter u.target fun x => (u.rewrite x).2)

/-- Carries out operations one after the other, and keeps the answers. -/
def run : List Update → Table → List Outcome × Table
  | [], t => ([], t)
  | u :: us, t =>
    let (answer, t) := update u t
    let (answers, t) := run us t
    (answer :: answers, t)

/-- The handle of a connection. -/
def connection? (t : Table) (c : ConnectionId) : Option Handle := (t[c]?).map (·.handle)

/-- The handles that name a room, by identifier. -/
def connections (t : Table) (r : RoomId) : List Handle :=
  (t.toList.map (·.2.handle)).filter (·.room = r)

/-- The users with a connection in a room, each once. -/
def users (t : Table) (r : RoomId) : List UserId :=
  ((t.connections r).map (·.participant.user)).dedup

/-- The rooms that some connection names, each once. -/
def rooms (t : Table) : List RoomId := (t.toList.map (·.2.handle.room)).dedup

end Table

/-- A registry is well formed, and a table holds what can be looked up in it. -/
structure Represents (g : Registry) (t : Table) : Prop where
  mirrored : Mirrored g
  looked : ∀ c : ConnectionId, t[c]? = g.member? c

variable {g : Registry} {t : Table} {c : ConnectionId} {r : RoomId}

theorem represents_empty : Represents empty (∅ : Table) where
  mirrored := mirrored_empty
  looked c := by
    rw [ExtTreeMap.getElem?_empty]
    rfl

/-! ## One operation -/

/-- An entry that is rewritten to itself is as good as left alone. -/
theorem member?_kept {x : Option Member} (hc : g.member? c = x) (d : ConnectionId) :
    g.member? d = if c = d then x else g.member? d := by
  split
  next hcd => rw [← hcd, hc]
  next => rfl

/-- Attaching answers and rewrites as the table says, at its own connection only. -/
theorem update_attach (hg : Mirrored g) (handle : Handle) :
    (g.update (.attach handle)).1 = ((Update.attach handle).rewrite (g.member? handle.id)).1 ∧
      Mirrored (g.update (.attach handle)).2 ∧
      ∀ d, (g.update (.attach handle)).2.member? d = if handle.id = d then
        ((Update.attach handle).rewrite (g.member? handle.id)).2 else g.member? d := by
  cases hc : g.member? handle.id with
  | some m =>
    -- the identifier is taken, so the registry stays as it is
    have hrefused := attach_of_isSome hg (h := handle) (by rw [hc]; rfl)
    simp only [update, hrefused]
    exact ⟨rfl, hg, member?_kept hc⟩
  | none =>
    simp only [update, attach_of_eq_none hg hc]
    exact ⟨rfl, mirrored_attached hg hc, fun d => attached_member? hg hc⟩

/-- Detaching answers and rewrites as the table says, at its own connection only. -/
theorem update_detach (hg : Mirrored g) (c : ConnectionId) :
    (g.update (.detach c)).1 = ((Update.detach c).rewrite (g.member? c)).1 ∧
      Mirrored (g.update (.detach c)).2 ∧
      ∀ d, (g.update (.detach c)).2.member? d = if c = d then
        ((Update.detach c).rewrite (g.member? c)).2 else g.member? d := by
  cases hc : g.member? c with
  | none =>
    simp only [update, detach_of_eq_none hg hc]
    exact ⟨rfl, hg, member?_kept hc⟩
  | some m =>
    simp only [update, detach_of_eq_some hg hc]
    exact ⟨rfl, mirrored_detached hg hc, fun d => detached_member? hg hc⟩

/-- Setting the call flag answers and rewrites as the table says, at its own connection only. -/
theorem update_setInCall (hg : Mirrored g) (c : ConnectionId) (on : Bool) :
    (g.update (.setInCall c on)).1 = ((Update.setInCall c on).rewrite (g.member? c)).1 ∧
      Mirrored (g.update (.setInCall c on)).2 ∧
      ∀ d, (g.update (.setInCall c on)).2.member? d = if c = d then
        ((Update.setInCall c on).rewrite (g.member? c)).2 else g.member? d := by
  cases hc : g.member? c with
  | none =>
    simp only [update, setInCall_of_eq_none hg on hc]
    exact ⟨rfl, hg, member?_kept hc⟩
  | some m =>
    by_cases hsame : m.inCall = on
    · simp only [update, Update.rewrite, setInCall_of_eq_some hg on hc, if_pos hsame]
      exact ⟨rfl, hg, member?_kept hc⟩
    · simp only [update, Update.rewrite, setInCall_of_eq_some hg on hc, if_neg hsame]
      exact ⟨rfl, mirrored_flagged hg hc, fun d => flagged_member? hg hc⟩

/-- An operation reads and rewrites the entry of its connection, and nothing else. -/
theorem update_entry (hg : Mirrored g) (u : Update) :
    (g.update u).1 = (u.rewrite (g.member? u.target)).1 ∧ Mirrored (g.update u).2 ∧
      ∀ d, (g.update u).2.member? d
        = if u.target = d then (u.rewrite (g.member? u.target)).2 else g.member? d := by
  cases u with
  | attach handle => exact update_attach hg handle
  | detach c => exact update_detach hg c
  | setInCall c on => exact update_setInCall hg c on

theorem mirrored_update (hg : Mirrored g) (u : Update) : Mirrored (g.update u).2 :=
  (update_entry hg u).2.1

/-- An operation answers the same on both sides, and leaves them in agreement. -/
theorem represents_update (hr : Represents g t) (u : Update) :
    (g.update u).1 = (t.update u).1 ∧ Represents (g.update u).2 (t.update u).2 := by
  obtain ⟨hanswer, hg, hentries⟩ := update_entry hr.mirrored u
  have hlook := hr.looked u.target
  refine ⟨?_, hg, ?_⟩
  · show _ = (u.rewrite t[u.target]?).1
    rw [hanswer, hlook]
  · intro c
    show (t.alter u.target fun x => (u.rewrite x).2)[c]? = _
    rw [ExtTreeMap.getElem?_alter, hentries, hr.looked, hr.looked]
    simp only [Std.compare_eq_iff_eq]

/-- Any run of updates gives the table's answers and ends in a registry that stands for the
table. -/
theorem represents_run (hr : Represents g t) (us : List Update) :
    (g.run us).1 = (t.run us).1 ∧ Represents (g.run us).2 (t.run us).2 := by
  induction us generalizing g t with
  | nil => exact ⟨rfl, hr⟩
  | cons u us ih =>
    obtain ⟨hanswer, hnext⟩ := represents_update hr u
    obtain ⟨hanswers, hlast⟩ := ih hnext
    refine ⟨?_, hlast⟩
    show (g.update u).1 :: ((g.update u).2.run us).1
      = (t.update u).1 :: ((t.update u).2.run us).1
    rw [hanswer, hanswers]

/-! ## What can be asked in between -/

/-- The table of a room is the part of the one table that names the room. -/
theorem Represents.members_eq (hr : Represents g t) :
    g.members r = t.filter fun _ m => m.handle.room = r := by
  -- entry by entry, an entry being there with the same member
  apply ExtTreeMap.ext_getElem?
  intro c
  apply Option.ext
  intro m
  rw [ExtTreeMap.getElem?_filter', Option.filter_eq_some_iff, hr.looked,
    hr.mirrored.getElem?_members, decide_eq_true_eq]

theorem Represents.connection?_eq (hr : Represents g t) :
    g.connection? c = t.connection? c := by
  unfold connection? Table.connection?
  rw [hr.looked]

theorem Represents.connections_eq (hr : Represents g t) :
    g.connections r = t.connections r := by
  unfold connections Table.connections
  rw [hr.members_eq, ExtTreeMap.toList_filter, List.filter_map]
  rfl

theorem Represents.connectionCount_eq (hr : Represents g t) :
    g.connectionCount r = (t.connections r).length := by
  rw [← hr.connections_eq]
  unfold connectionCount connections
  rw [List.length_map, ExtTreeMap.length_toList]

/-- A user stands among the people of a room under the user's own identifier. -/
theorem user_of_shown {u : UserId} {p : Participant} (h : (g.shown r)[u]? = some p) :
    p.user = u := by
  rw [getElem?_shown] at h
  obtain ⟨handle, hfind, rfl⟩ := Option.map_eq_some_iff.mp h
  simpa using List.find?_some hfind

/-- A user is shown exactly when a connection of the user is in the room. -/
theorem isSome_shown {u : UserId} :
    ((g.shown r)[u]?).isSome = true ↔ ∃ h ∈ g.connections r, h.participant.user = u := by
  rw [getElem?_shown, Option.isSome_map, List.find?_isSome]
  simp only [List.mem_reverse, decide_eq_true_eq]

/-- The users among the people of a room are the keys of what is shown. -/
theorem map_user_participants :
    ((g.participants r).map (·.user)).Perm (g.shown r).keys := by
  rw [participants_eq, ← ExtTreeMap.map_fst_toList_eq_keys]
  have hvalues : ((g.shown r).toList.map (·.2)).map (·.user) = (g.shown r).toList.map (·.1) := by
    rw [List.map_map]
    apply List.map_congr_left
    intro entry hmem
    exact user_of_shown (ExtTreeMap.mem_toList_iff_getElem?_eq_some.mp hmem)
  rw [← hvalues]
  exact (Participant.sort_perm _).map _

/-- The people of a room are its users, each listed once. -/
theorem Represents.participants_perm (hr : Represents g t) :
    ((g.participants r).map (·.user)).Perm (t.users r) := by
  -- the two lists are ordered differently, so they are compared as sets without repetition
  have hkeys : (g.shown r).keys.Nodup := ExtTreeMap.nodup_keys
  have husers : (t.users r).Nodup := List.nodup_dedup _
  refine map_user_participants.trans ((List.perm_ext_iff_of_nodup hkeys husers).mpr fun u => ?_)
  rw [ExtTreeMap.mem_keys, ExtTreeMap.mem_iff_isSome_getElem?, isSome_shown, hr.connections_eq]
  unfold Table.users
  rw [List.mem_dedup, List.mem_map]

/-- The rooms in use are those that some connection names. -/
theorem Represents.roomCount_eq (hr : Represents g t) : g.roomCount = t.rooms.length := by
  have hkeys : g.rooms.keys.Nodup := ExtTreeMap.nodup_keys
  have hrooms : t.rooms.Nodup := List.nodup_dedup _
  have hperm : g.rooms.keys.Perm t.rooms := by
    refine (List.perm_ext_iff_of_nodup hkeys hrooms).mpr fun r => ?_
    have hnamed : r ∈ t.rooms ↔ ∃ c m, g.member? c = some m ∧ m.handle.room = r := by
      unfold Table.rooms
      simp only [List.mem_dedup, List.mem_map, Prod.exists,
        ExtTreeMap.mem_toList_iff_getElem?_eq_some, hr.looked]
    rw [ExtTreeMap.mem_keys, ExtTreeMap.mem_iff_contains, hr.mirrored.contains_rooms, hnamed]
  rw [← hperm.length_eq, ExtTreeMap.length_keys]
  rfl

/-! ## The two maps -/

/-- A room holds a connection exactly when its row does. -/
theorem getElem?_members_iff {m : Member} :
    (g.members r)[c]? = some m ↔ ∃ row, g.rooms[r]? = some row ∧ row[c]? = some m := by
  unfold members
  rw [ExtTreeMap.getD_eq_getD_getElem?]
  cases g.rooms[r]? with
  | none => simp
  | some row => simp

/-- The room that a connection is located in is the one whose row holds it. -/
theorem Mirrored.located_iff (hg : Mirrored g) :
    g.locations[c]? = some r ↔ ∃ row m, g.rooms[r]? = some row ∧ row[c]? = some m := by
  constructor
  · intro hloc
    obtain ⟨m, hm⟩ := hg.located hloc
    obtain ⟨row, hrow, hc⟩ := getElem?_members_iff.mp hm
    exact ⟨row, m, hrow, hc⟩
  · intro hheld
    obtain ⟨row, m, hrow, hc⟩ := hheld
    exact (hg.found (getElem?_members_iff.mpr ⟨row, hrow, hc⟩)).1

/-! ## Every run -/

/-- After any run of operations from the empty registry, the answers along the way are
those of the one table; the two maps are exact images of each other without empty rooms;
and whatever is asked of the registry then, the table answers it. -/
theorem registry_refines_table (us : List Update) :
    let g := (empty.run us).2
    let t := (Table.run us ∅).2
    (empty.run us).1 = (Table.run us ∅).1 ∧
    (∀ (c : ConnectionId) (r : RoomId), g.locations[c]? = some r ↔
      ∃ (row : Table) (m : Member), g.rooms[r]? = some row ∧ row[c]? = some m) ∧
    (∀ (r : RoomId) (row : Table) (c : ConnectionId) (m : Member),
      g.rooms[r]? = some row → row[c]? = some m → m.handle.id = c ∧ m.handle.room = r) ∧
    (∀ r : RoomId, g.rooms[r]? ≠ some ∅) ∧
    (∀ (c : ConnectionId) (r r' : RoomId) (row row' : Table), g.rooms[r]? = some row →
      g.rooms[r']? = some row' → c ∈ row → c ∈ row' → r = r') ∧
    (∀ c, g.connection? c = t.connection? c) ∧
    (∀ r, g.connections r = t.connections r) ∧
    (∀ r, ((g.participants r).map (·.user)).Perm (t.users r)) ∧
    (∀ r, g.connectionCount r = (t.connections r).length) ∧
    g.roomCount = t.rooms.length ∧
    (∀ h, ((g.attach h).1 = true ↔ t[h.id]? = none) ∧
      ((g.attach h).1 = false → (g.attach h).2 = g)) ∧
    (∀ c, t[c]? = none → g.detach c = (none, g) ∧ (∀ on, g.setInCall c on = (none, g)) ∧
      g.connection? c = none) := by
  intro g t
  obtain ⟨hanswers, hr⟩ : (empty.run us).1 = (Table.run us ∅).1 ∧ Represents g t :=
    represents_run represents_empty us
  have hg := hr.mirrored
  refine ⟨hanswers, fun c r => hg.located_iff, ?_, hg.noEmptyRoom, ?_,
    fun c => hr.connection?_eq, fun r => hr.connections_eq, fun r => hr.participants_perm,
    fun r => hr.connectionCount_eq, hr.roomCount_eq, ?_, ?_⟩
  · intro r row c m hrow hm
    exact (hg.found (getElem?_members_iff.mpr ⟨row, hrow, hm⟩)).2
  · intro c r r' row row' hrow hrow' hc hc'
    -- the reverse index names one room only
    obtain ⟨m, hm⟩ := ExtTreeMap.mem_iff_isSome_getElem?.mp hc |> Option.isSome_iff_exists.mp
    obtain ⟨m', hm'⟩ := ExtTreeMap.mem_iff_isSome_getElem?.mp hc' |> Option.isSome_iff_exists.mp
    have hloc : g.locations[c]? = some r := hg.located_iff.mpr ⟨row, m, hrow, hm⟩
    have hloc' : g.locations[c]? = some r' := hg.located_iff.mpr ⟨row', m', hrow', hm'⟩
    rw [hloc] at hloc'
    exact Option.some.inj hloc'
  · intro h
    rw [hr.looked]
    -- a free identifier is let in, and a taken one changes nothing
    cases hc : g.member? h.id with
    | none =>
      rw [attach_of_eq_none hg hc]
      exact ⟨⟨fun _ => rfl, fun _ => rfl⟩, fun hno => by cases hno⟩
    | some m =>
      rw [attach_of_isSome hg (by rw [hc]; rfl)]
      refine ⟨⟨fun hyes => ?_, fun hnone => ?_⟩, fun _ => rfl⟩
      · cases hyes
      · cases hnone
  · intro c habsent
    rw [hr.looked] at habsent
    refine ⟨detach_of_eq_none hg habsent, fun on => setInCall_of_eq_none hg on habsent, ?_⟩
    unfold connection?
    rw [habsent]
    rfl

end RoomHub.Registry
