import RoomHub.Proofs.CallTracker
import RoomHub.Proofs.Hub.Membership

/-!
# Which changes a roster can see

A room has two rosters, one for each `Scope`: the people connected to it and the people in
its call. A change of presence in another room touches neither, and moving into the call
or out of it leaves the people of the room as they are. The rosters are compared through
the two tables they are made from, without computing them.
-/

namespace RoomHub

open Std (ExtTreeMap)

namespace Registry

variable {g g' : Registry} {c : ConnectionId} {r r' : RoomId} {h : Handle} {m : Member}

/-- The handles of a room as a table. -/
def handles (g : Registry) (r : RoomId) : ExtTreeMap ConnectionId Handle :=
  (g.members r).map fun _ m => m.handle

/-- The connections of a room are the handles of the room. -/
theorem connections_eq : g.connections r = (g.handles r).toList.map (·.2) := by
  unfold connections handles
  rw [ExtTreeMap.toList_map, List.map_map]
  rfl

/-- The people of a room are determined by the handles under its identifiers. -/
theorem participants_congr
    (hsame : ∀ c : ConnectionId,
      ((g'.members r)[c]?).map (·.handle) = ((g.members r)[c]?).map (·.handle)) :
    g'.participants r = g.participants r := by
  have hhandles : g'.handles r = g.handles r := by
    apply ExtTreeMap.ext_getElem?
    intro c
    unfold handles
    rw [ExtTreeMap.getElem?_map, ExtTreeMap.getElem?_map]
    exact hsame c
  unfold participants
  rw [connections_eq, connections_eq, hhandles]

/-- Whoever joins another room changes no roster here. -/
theorem participants_attached (hroom : h.room ≠ r) :
    (g.attached h).participants r = g.participants r := by
  apply participants_congr
  intro c
  rw [getElem?_members_attached, if_neg fun hrc => hroom hrc.1]

/-- Whoever leaves another room changes no roster here. -/
theorem participants_detached (hroom : r' ≠ r) :
    (g.detached c r').participants r = g.participants r := by
  apply participants_congr
  intro d
  rw [getElem?_members_detached, if_neg fun hrc => hroom hrc.1]

/-- The flag of a member is not shown among the people of the room. -/
theorem participants_flagged {on : Bool} (hg : Mirrored g) (hc : g.member? c = some m) :
    (g.flagged c m on).participants r = g.participants r := by
  apply participants_congr
  intro d
  rw [getElem?_members_flagged]
  split
  next hrc =>
    obtain ⟨rfl, rfl⟩ := hrc
    rw [hg.member?_eq_some_iff.mp hc]
    rfl
  next => rfl

end Registry

namespace CallTracker

variable {t t' : CallTracker} {r r' : RoomId} {u : UserId} {p : Participant}

/-- The people in a call are determined by the entries of the room. -/
theorem snapshot_congr (hsame : ∀ u, t'.slot? r u = t.slot? r u) :
    t'.snapshot r = t.snapshot r := by
  have husers : t'.users r = t.users r := ExtTreeMap.ext_getElem? fun u => hsame u
  unfold snapshot
  rw [husers]

/-- Whoever enters another call changes no roster here. -/
theorem snapshot_markIn (hroom : r' ≠ r) : (t.markIn r' p).2.snapshot r = t.snapshot r := by
  apply snapshot_congr
  intro v
  rw [slot?_markIn, if_neg fun hru => hroom hru.1]

/-- Whoever leaves another call changes no roster here. -/
theorem snapshot_markOut (hroom : r' ≠ r) : (t.markOut r' u).2.snapshot r = t.snapshot r := by
  apply snapshot_congr
  intro v
  rw [slot?_markOut, if_neg fun hru => hroom hru.1]

end CallTracker

/-! ## The two rosters -/

/-- Whether a broadcast of one scope shows the roster of the other. -/
def Scope.covers : Scope → Scope → Bool
  | .room, _ => true
  | .call, .call => true
  | .call, .room => false

namespace Hub

variable {h : Hub} {c : ConnectionId} {r : RoomId} {handle : Handle} {m : Member}

/-- The roster of a room in a scope. -/
def roster : Scope → Hub → RoomId → List Participant
  | .room, h, r => h.participants r
  | .call, h, r => h.callParticipants r

/-- A roster shows the registry or the tracker, and nothing else of the hub. -/
theorem roster_congr {h' : Hub} (hreg : h'.registry = h.registry) (hcalls : h'.calls = h.calls)
    (s : Scope) (r : RoomId) : roster s h' r = roster s h r := by
  cases s with
  | room =>
    show h'.registry.participants r = h.registry.participants r
    rw [hreg]
  | call =>
    show h'.calls.snapshot r = h.calls.snapshot r
    rw [hcalls]

/-- Who attaches to another room is on neither roster. -/
theorem roster_attach (hg : h.registry.Mirrored) (s : Scope) (hroom : handle.room ≠ r) :
    roster s (h.attach handle).2 r = roster s h r := by
  rcases attach_cases hg handle with ⟨-, heq⟩ | ⟨-, heq⟩
  · rw [heq]
  · rw [heq]
    cases s with
    | room => exact Registry.participants_attached hroom
    | call => rfl

/-- Who detaches from another room is on neither roster. -/
theorem roster_detach (hg : h.registry.Mirrored) (s : Scope)
    (hroom : ∀ m, h.registry.member? c = some m → m.handle.room ≠ r) :
    roster s (h.detach c).2 r = roster s h r := by
  rcases detach_cases hg c with ⟨-, heq⟩ | ⟨m, hc, heq⟩
  · rw [heq]
  · rw [heq]
    cases s with
    | room => exact Registry.participants_detached (hroom m hc)
    | call =>
      show (h.callsAfterDetach m).snapshot r = h.calls.snapshot r
      unfold callsAfterDetach
      split
      next => exact CallTracker.snapshot_markOut (hroom m hc)
      next => rfl

/-- Who enters or leaves a call is on the roster of that call only. -/
theorem roster_setInCall {on : Bool} (hg : h.registry.Mirrored) (s : Scope)
    (hroom : ∀ m, h.registry.member? c = some m → s = .room ∨ m.handle.room ≠ r) :
    roster s (h.setInCall c on).2 r = roster s h r := by
  rcases setInCall_cases hg c on with ⟨-, heq⟩ | ⟨m, hc, -, heq⟩
  · rw [heq]
  · rw [heq]
    cases s with
    | room => exact Registry.participants_flagged hg hc
    | call =>
      have hne : m.handle.room ≠ r := (hroom m hc).resolve_left Scope.noConfusion
      show (h.callsAfterFlag m on).snapshot r = h.calls.snapshot r
      unfold callsAfterFlag
      split
      next => exact CallTracker.snapshot_markIn hne
      next => exact CallTracker.snapshot_markOut hne

end Hub

end RoomHub
