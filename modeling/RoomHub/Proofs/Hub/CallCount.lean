import RoomHub.Proofs.CallTracker
import RoomHub.Proofs.Hub.Membership

/-!
# The tracker counts what the registry flags

Who is in a call is kept twice: as a flag of each registered connection, and as a count
for each user in the tracker. `InStep` says that the two agree, together with what makes
each of them well formed, and every step of the hub preserves it. Its heart is
`callers_of_entry`: a registry that changes under one identifier changes the number of
flagged connections by what that entry weighs.
-/

namespace RoomHub

open Std (ExtTreeMap)

namespace Registry

variable {g g' : Registry} {c d : ConnectionId} {r : RoomId} {u : UserId} {x : Option Member}

/-- The connections of a room that are in its call and belong to a user. -/
def callTable (g : Registry) (r : RoomId) (u : UserId) : ExtTreeMap ConnectionId Member :=
  (g.members r).filter fun _ m => m.inCall && m.handle.participant.user = u

/-- How many connections of a user are registered for a room and flagged as in its call. -/
def callers (g : Registry) (r : RoomId) (u : UserId) : Nat := (g.callTable r u).size

/-- Whether a member is in the call of a room and belongs to a user. -/
def Calls (r : RoomId) (u : UserId) (m : Member) : Prop :=
  m.handle.room = r ∧ m.inCall = true ∧ m.handle.participant.user = u

instance (r : RoomId) (u : UserId) (m : Member) : Decidable (Calls r u m) :=
  inferInstanceAs (Decidable (_ ∧ _ ∧ _))

/-- The connections of a user that are in the call are those registered so. -/
theorem Mirrored.getElem?_callTable (hg : Mirrored g) :
    (g.callTable r u)[c]? = (g.member? c).filter fun m => decide (Calls r u m) := by
  apply Option.ext
  intro m
  unfold callTable
  simp only [ExtTreeMap.getElem?_filter', Option.filter_eq_some_iff, hg.getElem?_members,
    Bool.and_eq_true, decide_eq_true_eq]
  exact and_assoc

/-- Someone is counted exactly when a connection of theirs is in the call. -/
theorem Mirrored.callers_pos (hg : Mirrored g) :
    0 < g.callers r u ↔ ∃ c m, g.member? c = some m ∧ Calls r u m := by
  unfold callers
  rw [Nat.pos_iff_ne_zero, ne_eq, ← ExtTreeMap.eq_empty_iff_size_eq_zero]
  constructor
  · intro hne
    refine Classical.byContradiction fun hnone => hne ?_
    apply ExtTreeMap.ext_getElem?
    intro c
    rw [ExtTreeMap.getElem?_empty, hg.getElem?_callTable, Option.filter_eq_none_iff]
    intro m hm
    simpa using fun hcalls => hnone ⟨c, m, hm, hcalls⟩
  · intro hfound hempty
    obtain ⟨c, m, hm, hcalls⟩ := hfound
    have hcm : (g.callTable r u)[c]? = some m := by
      rw [hg.getElem?_callTable, hm]
      simp [hcalls]
    rw [hempty, ExtTreeMap.getElem?_empty] at hcm
    cases hcm

/-- What an entry contributes to the number of connections in a call. -/
def weight (r : RoomId) (u : UserId) (x : Option Member) : Nat :=
  if (x.filter fun m => decide (Calls r u m)).isSome then 1 else 0

/-- A change under one identifier changes the number by the difference in weight. -/
theorem callers_of_entry (hg : Mirrored g) (hg' : Mirrored g')
    (hentry : ∀ d, g'.member? d = if c = d then x else g.member? d) :
    g'.callers r u + weight r u (g.member? c) = g.callers r u + weight r u x := by
  have hold : (g.callTable r u).contains c
      = ((g.member? c).filter fun m => decide (Calls r u m)).isSome := by
    rw [ExtTreeMap.contains_eq_isSome_getElem?, hg.getElem?_callTable]
  unfold callers weight
  rw [← hold]
  -- either way the new table is the old one with this one entry erased or written
  cases hx : x.filter fun m => decide (Calls r u m) with
  | none =>
    have htable : g'.callTable r u = (g.callTable r u).erase c := by
      apply ExtTreeMap.ext_getElem?
      intro d
      rw [ExtTreeMap.getElem?_erase, hg'.getElem?_callTable, hentry, hg.getElem?_callTable]
      simp only [Std.compare_eq_iff_eq]
      split
      · exact hx
      · rfl
    rw [htable, ExtTreeMap.size_erase]
    cases hc : (g.callTable r u).contains c with
    | false => rfl
    | true =>
      have hpos : 0 < (g.callTable r u).size := by
        rw [Nat.pos_iff_ne_zero, ne_eq, ← ExtTreeMap.eq_empty_iff_size_eq_zero]
        intro hempty
        simp [hempty] at hc
      simp only [if_true, Option.isSome_none, Bool.false_eq_true, if_false]
      omega
  | some m =>
    have htable : g'.callTable r u = (g.callTable r u).insert c m := by
      apply ExtTreeMap.ext_getElem?
      intro d
      rw [ExtTreeMap.getElem?_insert, hg'.getElem?_callTable, hentry, hg.getElem?_callTable]
      simp only [Std.compare_eq_iff_eq]
      split
      · exact hx
      · rfl
    rw [htable, ExtTreeMap.size_insert]
    cases (g.callTable r u).contains c <;> simp

theorem weight_none : weight r u none = 0 := rfl

theorem weight_some (m : Member) : weight r u (some m) = if Calls r u m then 1 else 0 := by
  unfold weight
  by_cases hm : Calls r u m <;> simp [hm]

end Registry

namespace Hub

variable {h : Hub} {r : RoomId} {u : UserId}

/-- The registry and the tracker agree on how often each user is in each call. -/
structure InStep (h : Hub) : Prop where
  mirrored : h.registry.Mirrored
  kept : h.calls.Kept
  counted : ∀ r u, h.calls.count r u = h.registry.callers r u

/-- Nobody is in a call of a hub that nobody is connected to. -/
theorem inStep_idle (outboxes : ExtTreeMap ConnectionId Outbox) : InStep (idle outboxes) where
  mirrored := Registry.mirrored_empty
  kept := CallTracker.kept_empty
  counted r u := by
    have htable : (idle outboxes).registry.callTable r u = ∅ := by
      apply ExtTreeMap.ext_getElem?
      intro c
      unfold Registry.callTable
      simp [Registry.members, Registry.empty, idle]
    unfold Registry.callers
    rw [htable, ExtTreeMap.size_empty]
    simp [idle, CallTracker.count, CallTracker.users, CallTracker.empty]

/-- Whoever joins is not in the call, so no count changes. -/
theorem inStep_attach (hi : InStep h) (handle : Handle) : InStep (h.attach handle).2 := by
  rcases attach_cases hi.mirrored handle with ⟨-, heq⟩ | ⟨hc, heq⟩
  · rw [heq]; exact hi
  · rw [heq]
    have hg' := Registry.mirrored_attached hi.mirrored hc
    refine ⟨hg', hi.kept, fun r u => ?_⟩
    have hcount := Registry.callers_of_entry (r := r) (u := u) hi.mirrored hg'
      (fun d => Registry.attached_member? hi.mirrored hc)
    rw [hc, Registry.weight_none, Registry.weight_some, if_neg (by simp [Registry.Calls])]
      at hcount
    show h.calls.count r u = (h.registry.attached handle).callers r u
    rw [hi.counted]
    omega

/-- Whoever leaves out of the call is counted out of it. -/
theorem inStep_detach (hi : InStep h) (c : ConnectionId) : InStep (h.detach c).2 := by
  rcases detach_cases hi.mirrored c with ⟨-, heq⟩ | ⟨m, hc, heq⟩
  · rw [heq]; exact hi
  · rw [heq]
    have hg' := Registry.mirrored_detached hi.mirrored hc
    refine ⟨hg', ?_, fun r u => ?_⟩
    · show (h.callsAfterDetach m).Kept
      unfold callsAfterDetach
      split
      · exact CallTracker.kept_markOut hi.kept
      · exact hi.kept
    · have hcount := Registry.callers_of_entry (r := r) (u := u) hi.mirrored hg'
        (fun d => Registry.detached_member? hi.mirrored hc)
      rw [hc, Registry.weight_none, Registry.weight_some] at hcount
      show (h.callsAfterDetach m).count r u
        = (h.registry.detached c m.handle.room).callers r u
      unfold callsAfterDetach
      -- only a connection that was in the call is counted down
      cases hm : m.inCall with
      | false =>
        rw [if_neg (by simp [Registry.Calls, hm])] at hcount
        rw [if_neg (by simp), hi.counted]
        omega
      | true =>
        rw [if_pos rfl, CallTracker.count_markOut, hi.counted, hi.counted]
        by_cases hru : m.handle.room = r ∧ m.handle.participant.user = u
        · obtain ⟨rfl, rfl⟩ := hru
          rw [if_pos ⟨rfl, hm, rfl⟩] at hcount
          rw [if_pos ⟨rfl, rfl⟩]
          omega
        · -- another room or another user: neither side moves
          rw [if_neg fun hcalls => hru ⟨hcalls.1, hcalls.2.2⟩] at hcount
          rw [if_neg hru]
          omega

/-- A change of the flag is counted once, in the direction of the change. -/
theorem inStep_setInCall (hi : InStep h) (c : ConnectionId) (on : Bool) :
    InStep (h.setInCall c on).2 := by
  rcases setInCall_cases hi.mirrored c on with ⟨-, heq⟩ | ⟨m, hc, hm, heq⟩
  · rw [heq]; exact hi
  · rw [heq]
    have hg' : (h.registry.flagged c m on).Mirrored :=
      Registry.mirrored_flagged hi.mirrored hc
    refine ⟨hg', ?_, fun r u => ?_⟩
    · show (h.callsAfterFlag m on).Kept
      unfold callsAfterFlag
      split
      · exact CallTracker.kept_markIn hi.kept
      · exact CallTracker.kept_markOut hi.kept
    · have hcount := Registry.callers_of_entry (r := r) (u := u) hi.mirrored hg'
        (fun d => Registry.flagged_member? hi.mirrored hc)
      rw [hc, Registry.weight_some, Registry.weight_some] at hcount
      show (h.callsAfterFlag m on).count r u = (h.registry.flagged c m on).callers r u
      unfold callsAfterFlag
      by_cases hru : m.handle.room = r ∧ m.handle.participant.user = u
      · obtain ⟨rfl, rfl⟩ := hru
        cases on with
        | false =>
          rw [if_pos ⟨rfl, hm, rfl⟩, if_neg (by simp [Registry.Calls])] at hcount
          rw [if_neg (by simp), CallTracker.count_markOut, if_pos ⟨rfl, rfl⟩, hi.counted]
          omega
        | true =>
          rw [if_neg (by simp [Registry.Calls, hm]), if_pos ⟨rfl, rfl, rfl⟩] at hcount
          rw [if_pos rfl, CallTracker.count_markIn, if_pos ⟨rfl, rfl⟩, hi.counted]
          omega
      · rw [if_neg fun hcalls => hru ⟨hcalls.1, hcalls.2.2⟩,
          if_neg fun hcalls => hru ⟨hcalls.1, hcalls.2.2⟩] at hcount
        split
        · rw [CallTracker.count_markIn, if_neg hru, hi.counted]
          omega
        · rw [CallTracker.count_markOut, if_neg hru, hi.counted]
          omega

/-- Every step keeps the registry and the tracker in step. -/
theorem inStep_act (a : Step) (hi : InStep h) : InStep (act a h) := by
  cases ha : a.isMembership with
  | false =>
    obtain ⟨hreg, hcalls⟩ := act_presence ha h
    refine ⟨?_, ?_, fun r u => ?_⟩
    · rw [hreg]; exact hi.mirrored
    · rw [hcalls]; exact hi.kept
    · rw [hreg, hcalls]; exact hi.counted r u
  | true =>
    cases a with
    | attach handle => exact inStep_attach hi handle
    | detach c => exact inStep_detach hi c
    | setInCall c on => exact inStep_setInCall hi c on
    | broadcast | broadcastPresence | pushTo | pushCallParticipants | deliver | receive
    | closeReceiver | dropReceiver | cancel => cases ha

/-- Flags and counts agree after every run. -/
theorem inStep_run (steps : List Step) (hi : InStep h) : InStep (run steps h) := by
  induction steps generalizing h with
  | nil => exact hi
  | cons a steps ih => exact ih (inStep_act a hi)

end Hub

end RoomHub
