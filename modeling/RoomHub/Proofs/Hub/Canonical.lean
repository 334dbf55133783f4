import RoomHub.Proofs.Hub.CallRoster
import RoomHub.Proofs.Store.Ledger

/-!
# One way to list given people

Every list of people that the hub shows is the roster of some people (`IsRoster`), and of given
people there is one roster. So each list depends on nothing but on who the people are:

> `Mirrored.isRoster_connected`, `InStep.isRoster_shows`, `isRoster_listMembers`: who is listed;
> `snapshots_are_canonical`: so the three snapshots depend on nothing but who is connected to a
> room, who is in its call, and who is a member.

For the people in a call names have to agree among the connections of a user that are in the call,
and at all times: the tracker shows a user under the name of the latest join, which may be that of
a connection that has left since.
-/

namespace RoomHub

open Std (ExtTreeMap)

open Participant (IsRoster NamedOnce isRoster_sort_table)

/-! ## Who is connected -/

namespace Registry

variable {g : Registry} {r : RoomId} {u : UserId} {p : Participant} {hs : List Handle}

/-- The people connected to a room. -/
def Connected (g : Registry) (r : RoomId) (p : Participant) : Prop :=
  ∃ c m, g.member? c = some m ∧ m.handle.room = r ∧ m.handle.participant = p

/-- The people in the call of a room. -/
def Calling (g : Registry) (r : RoomId) (p : Participant) : Prop :=
  ∃ c m, g.member? c = some m ∧ Calls r p.user m ∧ m.handle.participant = p

/-- If no user has two names, each is connected under one name. -/
theorem SameNames.namedOnce_connected (hs : g.SameNames) : NamedOnce (g.Connected r) := by
  rintro p q ⟨c, m, hc, hroom, rfl⟩ ⟨d, m', hd, hroom', rfl⟩ huser
  exact hs hc hd (hroom.trans hroom'.symm) huser

/-- If no user has two names, each is in the call under one name. -/
theorem SameNames.namedOnce_calling (hs : g.SameNames) : NamedOnce (g.Calling r) := by
  rintro p q ⟨c, m, hc, hcalls, rfl⟩ ⟨d, m', hd, hcalls', rfl⟩ huser
  exact hs hc hd (hcalls.1.trans hcalls'.1.symm) huser

/-- How each user is shown when the handles come in a given order. -/
def shownBy (hs : List Handle) : ExtTreeMap UserId Participant :=
  hs.foldl (fun t h => t.insert h.participant.user h.participant) ∅

/-- Where names agree, a user is shown as any handle of the user says, whatever the order. -/
theorem getElem?_shownBy
    (hnames : ∀ h ∈ hs, ∀ k ∈ hs, h.participant.user = k.participant.user →
      h.participant = k.participant) :
    (shownBy hs)[u]? = some p ↔ ∃ h ∈ hs, h.participant = p ∧ p.user = u := by
  unfold shownBy
  rw [Tables.getElem?_foldl_insert, ExtTreeMap.getElem?_empty, Option.or_none]
  constructor
  · intro h
    obtain ⟨handle, hfind, rfl⟩ := Option.map_eq_some_iff.mp h
    exact ⟨handle, List.mem_reverse.mp (List.mem_of_find?_eq_some hfind), rfl,
      by simpa using List.find?_some hfind⟩
  · rintro ⟨handle, hmem, rfl, huser⟩
    cases hfind : hs.reverse.find? (·.participant.user = u) with
    | none =>
      have hnot := List.find?_eq_none.mp hfind handle (List.mem_reverse.mpr hmem)
      exact absurd huser (by simpa using hnot)
    | some other =>
      have hother := List.mem_reverse.mp (List.mem_of_find?_eq_some hfind)
      have huser' : other.participant.user = u := by simpa using List.find?_some hfind
      exact congrArg some (hnames other hother handle hmem (huser'.trans huser.symm))

/-- Whoever is connected to a room is found on the list of its connections. -/
theorem Mirrored.connected_iff (hg : Mirrored g) :
    g.Connected r p ↔ ∃ h ∈ g.connections r, h.participant = p := by
  constructor
  · rintro ⟨c, m, hm, hroom, rfl⟩
    refine ⟨m.handle, hg.mem_connections.mpr ⟨?_, hroom⟩, rfl⟩
    rw [hg.id_eq hm, hm]
    rfl
  · rintro ⟨h, hmem, rfl⟩
    obtain ⟨hreg, hroom⟩ := hg.mem_connections.mp hmem
    obtain ⟨m, hm, rfl⟩ := Option.map_eq_some_iff.mp hreg
    exact ⟨m.handle.id, m, hm, hroom, rfl⟩

/-- The people connected to a room are listed in their roster, in whatever order the connections
and the users come. -/
theorem Mirrored.isRoster_connected (hg : Mirrored g) (hnames : NamedOnce (g.Connected r))
    {ps : List Participant} (hhs : hs.Perm (g.connections r))
    (hps : ps.Perm ((shownBy hs).toList.map (·.2))) :
    IsRoster (Participant.sort ps) (g.Connected r) := by
  have hmem {h : Handle} : h ∈ hs ↔ h ∈ g.connections r := hhs.mem_iff
  have hagree : ∀ h ∈ hs, ∀ k ∈ hs, h.participant.user = k.participant.user →
      h.participant = k.participant := fun h hh k hk huser =>
    Participant.eq_of_user_of_name huser (hnames _ _ (hg.connected_iff.mpr ⟨h, hmem.mp hh, rfl⟩)
      (hg.connected_iff.mpr ⟨k, hmem.mp hk, rfl⟩) huser)
  refine (isRoster_sort_table (fun hentry => ?_) hps).congr fun p => ?_
  · obtain ⟨_, -, -, huser⟩ := (getElem?_shownBy hagree).mp hentry
    exact huser
  · rw [hg.connected_iff]
    constructor
    · rintro ⟨q, hentry, hq⟩
      obtain ⟨h, hh, hshown, -⟩ := (getElem?_shownBy hagree).mp hentry
      exact ⟨h, hmem.mp hh, hshown.trans hq⟩
    · rintro ⟨h, hh, hp⟩
      exact ⟨p, (getElem?_shownBy hagree).mpr ⟨h, hmem.mpr hh, hp, rfl⟩, rfl⟩

end Registry

/-! ## Who is in the call -/

namespace Hub

open CallTracker (exists_slot_of_markOut)
open Registry (Calls)

variable {h : Hub} {r : RoomId}

/-- The tracker shows a user in the call of a room as every connection of that user does that is in
the call. -/
def CallersNamed (h : Hub) (r : RoomId) : Prop :=
  ∀ ⦃u : UserId⦄ ⦃e : CallEntry⦄ ⦃c : ConnectionId⦄ ⦃m : Member⦄, h.calls.slot? r u = some e →
    h.registry.member? c = some m → Calls r u m → m.handle.participant = e.participant

/-- Nobody is in the call of a room nobody is connected to. -/
theorem callersNamed_idle (outboxes : ExtTreeMap ConnectionId Outbox) (r : RoomId) :
    CallersNamed (idle outboxes) r := by
  intro u e c m he
  simp [idle, CallTracker.slot?, CallTracker.users, CallTracker.empty] at he

/-- Joining names nobody in the call anew. -/
theorem callersNamed_attach (hi : InStep h) (hn : CallersNamed h r) (handle : Handle) :
    CallersNamed (h.attach handle).2 r := by
  rcases attach_cases hi.mirrored handle with ⟨-, heq⟩ | ⟨hfree, heq⟩
  · rw [heq]
    exact hn
  · rw [heq]
    intro u e c m he hc hcalls
    have hc' : (h.registry.attached handle).member? c = some m := hc
    rw [Registry.attached_member? hi.mirrored hfree] at hc'
    split at hc'
    next =>
      -- the newcomer is not in the call
      cases hc'
      cases hcalls.2.1
    next => exact hn he hc' hcalls

/-- Leaving keeps a name that somebody in the call bears. -/
theorem callersNamed_detach (hi : InStep h) (hn : CallersNamed h r) (c : ConnectionId) :
    CallersNamed (h.detach c).2 r := by
  rcases detach_cases hi.mirrored c with ⟨-, heq⟩ | ⟨mc, hc, heq⟩
  · rw [heq]
    exact hn
  · rw [heq]
    intro u e d m he hd hcalls
    have hold : h.registry.member? d = some m := by
      have hd' : (h.registry.detached c mc.handle.room).member? d = some m := hd
      rw [Registry.detached_member? hi.mirrored hc] at hd'
      split at hd'
      next => cases hd'
      next => exact hd'
    have he' : (h.callsAfterDetach mc).slot? r u = some e := he
    unfold callsAfterDetach at he'
    split at he'
    next =>
      obtain ⟨e', hslot, hsame⟩ := exists_slot_of_markOut he'
      rw [← hsame]
      exact hn hslot hold hcalls
    next => exact hn he' hold hcalls

/-- Entering the call records a name that somebody in the call bears. -/
theorem callersNamed_setInCall (hi : InStep h) (hn : CallersNamed h r) (c : ConnectionId)
    (on : Bool) (hnames : NamedOnce ((h.setInCall c on).2.registry.Calling r)) :
    CallersNamed (h.setInCall c on).2 r := by
  rcases setInCall_cases hi.mirrored c on with ⟨-, heq⟩ | ⟨mc, hc, hmc, heq⟩
  · rw [heq]
    exact hn
  · rw [heq] at hnames ⊢
    intro u e d m he hd hcalls
    have hold : c ≠ d → h.registry.member? d = some m := by
      intro hne
      have hd' : (h.registry.flagged c mc on).member? d = some m := hd
      rwa [Registry.flagged_member? hi.mirrored hc, if_neg hne] at hd'
    have hself : c = d → m = { mc with inCall := on } := by
      intro heqd
      have hd' : (h.registry.flagged c mc on).member? d = some m := hd
      rw [Registry.flagged_member? hi.mirrored hc, if_pos heqd] at hd'
      exact (Option.some.inj hd').symm
    have he' : (h.callsAfterFlag mc on).slot? r u = some e := he
    unfold callsAfterFlag at he'
    cases on with
    | true =>
      rw [if_pos rfl, CallTracker.slot?_markIn] at he'
      split at he'
      next hru =>
        -- the entry was written just now, from a connection that is in the call
        cases he'
        obtain ⟨hroom, huser⟩ := hru
        have hwriter : (h.registry.flagged c mc true).member? c
            = some { mc with inCall := true } := by
          rw [Registry.flagged_member? hi.mirrored hc, if_pos rfl]
        have hm : m.handle.participant.user = mc.handle.participant.user :=
          hcalls.2.2.trans huser.symm
        refine Participant.eq_of_user_of_name hm (hnames _ _ ⟨d, m, hd, ?_, rfl⟩
          ⟨c, _, hwriter, ⟨hroom, rfl, rfl⟩, rfl⟩ hm)
        exact ⟨hcalls.1, hcalls.2.1, rfl⟩
      next hru =>
        by_cases hcd : c = d
        · rw [hself hcd] at hcalls
          exact absurd ⟨hcalls.1, hcalls.2.2⟩ hru
        · exact hn he' (hold hcd) hcalls
    | false =>
      rw [if_neg Bool.false_ne_true] at he'
      obtain ⟨e', hslot, hsame⟩ := exists_slot_of_markOut he'
      rw [← hsame]
      by_cases hcd : c = d
      · rw [hself hcd] at hcalls
        cases hcalls.2.1
      · exact hn hslot (hold hcd) hcalls

/-- A step keeps the callers named if it leads to a registry where their names agree. -/
theorem callersNamed_act {a : Step} (hi : InStep h) (hn : CallersNamed h r)
    (hnames : NamedOnce ((act a h).registry.Calling r)) : CallersNamed (act a h) r := by
  cases ha : a.isMembership with
  | false =>
    obtain ⟨hreg, hcalls⟩ := act_presence ha h
    intro u e c m he hc
    rw [hcalls] at he
    rw [hreg] at hc
    exact hn he hc
  | true =>
    cases a with
    | attach handle => exact callersNamed_attach hi hn handle
    | detach c => exact callersNamed_detach hi hn c
    | setInCall c on => exact callersNamed_setInCall hi hn c on hnames
    | broadcast | broadcastPresence | pushTo | pushCallParticipants | deliver | receive
    | closeReceiver | dropReceiver | cancel => cases ha

/-- While everybody in the call has one name, the tracker shows that name. -/
theorem callersNamed_run (steps : List Step) (hi : InStep h) (hn : CallersNamed h r)
    (hnames : ∀ pre, pre <+: steps → NamedOnce ((run pre h).registry.Calling r)) :
    CallersNamed (run steps h) r := by
  induction steps generalizing h with
  | nil => exact hn
  | cons a steps ih =>
    have hn' := callersNamed_act hi hn (hnames [a] ⟨steps, rfl⟩)
    refine ih (inStep_act a hi) hn' fun pre hpre => ?_
    exact hnames (a :: pre) (List.cons_prefix_cons.mpr ⟨rfl, hpre⟩)

/-- The tracker's entries of a room are of the people in its call. -/
theorem InStep.calling_iff (hi : InStep h) (hn : CallersNamed h r) {p : Participant} :
    h.registry.Calling r p ↔ h.calls.Shows r p := by
  constructor
  · rintro ⟨c, m, hc, hcalls, rfl⟩
    have hpos : 0 < h.calls.count r m.handle.participant.user := by
      rw [hi.counted]
      exact hi.mirrored.callers_pos.mpr ⟨c, m, hc, hcalls⟩
    obtain ⟨e, he⟩ := Option.isSome_iff_exists.mp (hi.kept.isSome_slot.mpr hpos)
    exact ⟨e, he, (hn he hc hcalls).symm⟩
  · rintro ⟨e, he, rfl⟩
    obtain ⟨c, m, hc, hcalls⟩ := hi.exists_caller he
    exact ⟨c, m, hc, hcalls, hn he hc hcalls⟩

/-- The people that the tracker shows are listed in their roster. -/
theorem InStep.isRoster_shows (hi : InStep h) :
    IsRoster (h.callParticipants r) (h.calls.Shows r) :=
  hi.kept.isRoster_snapshot

end Hub

/-! ## Who is a member -/

namespace Store

variable {s : Store} {r : RoomId}

/-- The members of a room. -/
def Lists (s : Store) (r : RoomId) (p : Participant) : Prop := s.name? r p.user = some p.name

/-- The members of a room are listed in their roster. -/
theorem isRoster_listMembers {ps : List Participant} (hps : s.listMembers r = .ok ps) :
    IsRoster ps (s.Lists r) := by
  rw [listMembers_eq] at hps
  split at hps
  next => cases hps
  next t ht =>
    cases hps
    refine (isRoster_sort_table (fun _ => rfl) (.refl _)).congr fun p => ?_
    unfold Lists name?
    rw [ht, Option.bind_some]
    constructor
    · rintro ⟨name, hentry, hp⟩
      exact hentry.trans (congrArg (fun q => some q.name) hp)
    · exact fun hentry => ⟨p.name, hentry, rfl⟩

/-- The members of a room that exists can be listed. -/
theorem exists_listMembers (hroom : s.roomExists r = true) : ∃ ps, s.listMembers r = .ok ps := by
  rw [roomExists_eq] at hroom
  obtain ⟨t, ht⟩ := Option.isSome_iff_exists.mp hroom
  rw [listMembers_eq, ht]
  exact ⟨_, rfl⟩

/-- Stores with the same members of a room answer alike, be it by a refusal. -/
theorem listMembers_congr {s' : Store} (hroom : s.roomExists r = s'.roomExists r)
    (hsame : ∀ p, s.Lists r p ↔ s'.Lists r p) : s.listMembers r = s'.listMembers r := by
  cases hexists : s.roomExists r with
  | true =>
    obtain ⟨ps, hps⟩ := exists_listMembers hexists
    obtain ⟨qs, hqs⟩ := exists_listMembers (hroom ▸ hexists)
    rw [hps, hqs]
    exact congrArg Except.ok
      ((isRoster_listMembers hps).unique ((isRoster_listMembers hqs).congr fun p => (hsame p).symm))
  | false =>
    have hrefused {s : Store} (h : s.roomExists r = false) :
        s.listMembers r = .error (.roomNotFound r) := by
      rw [roomExists_eq] at h
      rw [listMembers_eq, Option.not_isSome_iff_eq_none.mp (Bool.eq_false_iff.mp h)]
    rw [hrefused hexists, hrefused (hroom ▸ hexists)]

end Store

/-! ## Any two histories -/

namespace Hub

/-- Who is connected to a room decides `participants`, as long as nobody is connected under two
names; who is in its call decides `callParticipants`, as long as nobody was ever in it under two
names at one time, and whom the tracker shows decides it in any case; and who is a member decides
`listMembers`. What they give is the roster of these people. It depends neither on what happened
before nor on the order in which connections, entries of the tracker and members come out of their
tables, since sorting forgets the order. -/
theorem snapshots_are_canonical (outboxes outboxes' : ExtTreeMap ConnectionId Outbox)
    (steps steps' : List Step) (s s' : Store) (r : RoomId) :
    let h := after outboxes steps
    let h' := after outboxes' steps'
    (NamedOnce (h.registry.Connected r) →
      IsRoster (h.participants r) (h.registry.Connected r) ∧
      ((∀ p, h.registry.Connected r p ↔ h'.registry.Connected r p) →
        h.participants r = h'.participants r) ∧
      ∀ hs ps, hs.Perm (h.registry.connections r) →
        ps.Perm ((Registry.shownBy hs).toList.map (·.2)) →
        Participant.sort ps = h.participants r) ∧
    ((∀ pre, pre <+: steps → NamedOnce ((after outboxes pre).registry.Calling r)) →
      IsRoster (h.callParticipants r) (h.registry.Calling r) ∧
      ((∀ pre, pre <+: steps' → NamedOnce ((after outboxes' pre).registry.Calling r)) →
        (∀ p, h.registry.Calling r p ↔ h'.registry.Calling r p) →
        h.callParticipants r = h'.callParticipants r)) ∧
    (IsRoster (h.callParticipants r) (h.calls.Shows r) ∧
      ((∀ p, h.calls.Shows r p ↔ h'.calls.Shows r p) →
        h.callParticipants r = h'.callParticipants r) ∧
      ∀ ps, ps.Perm ((h.calls.users r).toList.map (·.2.participant)) →
        Participant.sort ps = h.callParticipants r) ∧
    ((s.roomExists r = true → ∃ ps, s.listMembers r = .ok ps ∧ IsRoster ps (s.Lists r)) ∧
      (s.roomExists r = s'.roomExists r → (∀ p, s.Lists r p ↔ s'.Lists r p) →
        s.listMembers r = s'.listMembers r) ∧
      ∀ t ps, s.names? r = some t → ps.Perm (t.toList.map fun m => ⟨m.1, m.2⟩) →
        s.listMembers r = .ok (Participant.sort ps)) ∧
    (∀ ps qs : List Participant, ps.Perm qs → Participant.sort ps = Participant.sort qs) := by
  intro h h'
  have hi : InStep h := inStep_run steps (inStep_idle outboxes)
  have hi' : InStep h' := inStep_run steps' (inStep_idle outboxes')
  have hshown := hi.isRoster_shows (r := r)
  have hshown' := hi'.isRoster_shows (r := r)
  refine ⟨fun hnames => ?_, fun hnames => ?_, ⟨hshown, ?_, ?_⟩, ⟨?_, ?_, ?_⟩, ?_⟩
  · have hroster := hi.mirrored.isRoster_connected hnames (.refl _) (.refl _)
    refine ⟨hroster, fun hsame => ?_, fun hs ps hhs hps => ?_⟩
    · have hnames' : NamedOnce (h'.registry.Connected r) := fun p q hp hq =>
        hnames p q ((hsame p).mpr hp) ((hsame q).mpr hq)
      have hroster' := hi'.mirrored.isRoster_connected hnames' (.refl _) (.refl _)
      exact hroster.unique (hroster'.congr fun p => (hsame p).symm)
    · exact (hi.mirrored.isRoster_connected hnames hhs hps).unique hroster
  · have hcalling (p : Participant) := hi.calling_iff (p := p)
      (callersNamed_run steps (inStep_idle outboxes) (callersNamed_idle outboxes r) hnames)
    refine ⟨hshown.congr fun p => (hcalling p).symm, fun hnames' hsame => ?_⟩
    have hcalling' (p : Participant) := hi'.calling_iff (p := p)
      (callersNamed_run steps' (inStep_idle outboxes') (callersNamed_idle outboxes' r) hnames')
    exact hshown.unique (hshown'.congr fun p =>
      (hcalling' p).symm.trans ((hsame p).symm.trans (hcalling p)))
  · exact fun hsame => hshown.unique (hshown'.congr fun p => (hsame p).symm)
  · exact fun ps hps => Participant.sort_congr hps
  · intro hroom
    obtain ⟨ps, hps⟩ := Store.exists_listMembers hroom
    exact ⟨ps, hps, Store.isRoster_listMembers hps⟩
  · exact Store.listMembers_congr
  · intro t ps ht hps
    rw [Store.listMembers_eq, ht]
    exact congrArg Except.ok (Participant.sort_congr hps.symm)
  · exact fun ps qs => Participant.sort_congr

/-- Bob connects and enters the call, and then alice. -/
def bobFirst (r : RoomId) (alice bob : Participant) : List Step :=
  [.attach ⟨⟨⟨1⟩⟩, r, bob⟩, .setInCall ⟨⟨1⟩⟩ true, .attach ⟨⟨⟨2⟩⟩, r, alice⟩, .setInCall ⟨⟨2⟩⟩ true]

/-- Alice enters the call with two devices, bob after her, and she leaves with the first. -/
def aliceFirst (r : RoomId) (alice bob : Participant) : List Step :=
  [.attach ⟨⟨⟨1⟩⟩, r, alice⟩, .setInCall ⟨⟨1⟩⟩ true, .attach ⟨⟨⟨2⟩⟩, r, alice⟩,
    .setInCall ⟨⟨2⟩⟩ true, .attach ⟨⟨⟨3⟩⟩, r, bob⟩, .setInCall ⟨⟨3⟩⟩ true, .detach ⟨⟨1⟩⟩]

/-- Names agree all along while everyone who connects goes by one name. -/
theorem sameNames_of_people (people : List Participant) {steps pre : List Step}
    (hnames : ∀ p ∈ people, ∀ q ∈ people, p.user = q.user → p.name = q.name)
    (hattached : ∀ k, .attach k ∈ steps → k.participant ∈ people) (hpre : pre <+: steps) :
    (after ∅ pre).registry.SameNames :=
  sameNames_run fun _ _ ha hb =>
    hnames _ (hattached _ (hpre.subset ha)) _ (hattached _ (hpre.subset hb))

/-- Nobody but the two joins in the first of the two histories. -/
theorem attached_bobFirst {alice bob : Participant} {k : Handle}
    (h : .attach k ∈ bobFirst r alice bob) : k.participant ∈ [alice, bob] := by
  simp only [bobFirst, List.mem_cons, Step.attach.injEq, reduceCtorEq, List.not_mem_nil,
    or_false, false_or] at h
  rcases h with rfl | rfl <;> simp

/-- Nor does anybody else in the second. -/
theorem attached_aliceFirst {alice bob : Participant} {k : Handle}
    (h : .attach k ∈ aliceFirst r alice bob) : k.participant ∈ [alice, bob] := by
  simp only [aliceFirst, List.mem_cons, Step.attach.injEq, reduceCtorEq, List.not_mem_nil,
    or_false, false_or] at h
  rcases h with rfl | rfl | rfl <;> simp

/-- Both histories lead to the same lists. -/
theorem snapshots_are_canonical_two_devices :
    (after ∅ (bobFirst ⟨⟨1⟩⟩ ⟨⟨⟨1⟩⟩, "alice"⟩ ⟨⟨⟨2⟩⟩, "bob"⟩)).participants ⟨⟨1⟩⟩
      = (after ∅ (aliceFirst ⟨⟨1⟩⟩ ⟨⟨⟨1⟩⟩, "alice"⟩ ⟨⟨⟨2⟩⟩, "bob"⟩)).participants ⟨⟨1⟩⟩ ∧
    (after ∅ (bobFirst ⟨⟨1⟩⟩ ⟨⟨⟨1⟩⟩, "alice"⟩ ⟨⟨⟨2⟩⟩, "bob"⟩)).callParticipants ⟨⟨1⟩⟩
      = (after ∅ (aliceFirst ⟨⟨1⟩⟩ ⟨⟨⟨1⟩⟩, "alice"⟩ ⟨⟨⟨2⟩⟩, "bob"⟩)).callParticipants ⟨⟨1⟩⟩ := by
  obtain ⟨hconnected, hcalling, -⟩ := snapshots_are_canonical ∅ ∅
    (bobFirst ⟨⟨1⟩⟩ ⟨⟨⟨1⟩⟩, "alice"⟩ ⟨⟨⟨2⟩⟩, "bob"⟩)
    (aliceFirst ⟨⟨1⟩⟩ ⟨⟨⟨1⟩⟩, "alice"⟩ ⟨⟨⟨2⟩⟩, "bob"⟩) .empty .empty ⟨⟨1⟩⟩
  have hbob {pre : List Step} (hpre : pre <+: bobFirst ⟨⟨1⟩⟩ ⟨⟨⟨1⟩⟩, "alice"⟩ ⟨⟨⟨2⟩⟩, "bob"⟩) :=
    sameNames_of_people _ (by decide) (fun _ => attached_bobFirst) hpre
  have halice {pre : List Step} (hpre : pre <+: aliceFirst ⟨⟨1⟩⟩ ⟨⟨⟨1⟩⟩, "alice"⟩ ⟨⟨⟨2⟩⟩, "bob"⟩) :=
    sameNames_of_people _ (by decide) (fun _ => attached_aliceFirst) hpre
  obtain ⟨-, hparticipants, -⟩ := hconnected (hbob (List.prefix_refl _)).namedOnce_connected
  obtain ⟨-, hcallers⟩ := hcalling fun pre hpre => (hbob hpre).namedOnce_calling
  have hi (steps : List Step) : InStep (after ∅ steps) := inStep_run steps (inStep_idle ∅)
  have hnamed {steps : List Step} (hs : ∀ {pre : List Step}, pre <+: steps →
      (after ∅ pre).registry.SameNames) : CallersNamed (after ∅ steps) ⟨⟨1⟩⟩ :=
    callersNamed_run steps (inStep_idle ∅) (callersNamed_idle ∅ _) fun pre hpre =>
      (hs hpre).namedOnce_calling
  have hsame {ps qs : List Participant} (h : ps ⊆ qs ∧ qs ⊆ ps) (p : Participant) :
      p ∈ ps ↔ p ∈ qs := ⟨fun hp => h.1 hp, fun hp => h.2 hp⟩
  refine ⟨hparticipants fun p => ?_,
    hcallers (fun pre hpre => (halice hpre).namedOnce_calling) fun p => ?_⟩
  · rw [(hi _).mirrored.connected_iff, (hi _).mirrored.connected_iff, ← List.mem_map,
      ← List.mem_map]
    exact hsame (by decide +kernel) p
  · rw [(hi _).calling_iff (hnamed hbob), (hi _).calling_iff (hnamed halice),
      ← (hi _).isRoster_shows.complete, ← (hi _).isRoster_shows.complete]
    unfold callParticipants CallTracker.snapshot
    rw [Participant.mem_sort, Participant.mem_sort]
    exact hsame (by decide +kernel) p

end Hub

end RoomHub
