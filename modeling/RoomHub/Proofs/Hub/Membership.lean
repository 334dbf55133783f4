import RoomHub.Proofs.Hub.Step
import RoomHub.Proofs.Registry.Mirror

/-!
# Attaching, detaching and the call flag, case by case

What the three operations on the membership of a hub can do, read off the one table
`member?` of the registry. Each either finds nothing to do and leaves the hub as it was,
or changes one entry of the table and, where a flag was or becomes set, one count of the
tracker. Proofs about runs split a step by these cases and look no further.
-/

namespace RoomHub.Hub

variable {h : Hub} {c : ConnectionId} {on : Bool} {handle : Handle}

/-- Joining is refused when the identifier is taken, and otherwise registers the connection. -/
theorem attach_cases (hg : h.registry.Mirrored) (handle : Handle) :
    ((h.registry.member? handle.id).isSome = true ∧ h.attach handle = (false, h)) ∨
    (h.registry.member? handle.id = none ∧
      h.attach handle = (true, { h with registry := h.registry.attached handle })) := by
  unfold attach
  cases hc : h.registry.member? handle.id with
  | some m =>
    left
    rw [Registry.attach_of_isSome hg (by rw [hc]; rfl)]
    exact ⟨rfl, rfl⟩
  | none =>
    right
    rw [Registry.attach_of_eq_none hg hc]
    exact ⟨rfl, rfl⟩

/-- The tracker after a registered connection was detached. -/
def callsAfterDetach (h : Hub) (m : Member) : CallTracker :=
  if m.inCall then (h.calls.markOut m.handle.room m.handle.participant.user).2 else h.calls

/-- Leaving does nothing to a stranger; a member is taken out of the registry, and of the call if he
was in it. -/
theorem detach_cases (hg : h.registry.Mirrored) (c : ConnectionId) :
    (h.registry.member? c = none ∧ h.detach c = (none, h)) ∨
    (∃ m, h.registry.member? c = some m ∧
      h.detach c = (some m,
        { h with
          registry := h.registry.detached c m.handle.room
          calls := h.callsAfterDetach m })) := by
  unfold detach
  cases hc : h.registry.member? c with
  | none =>
    left
    rw [Registry.detach_of_eq_none hg hc]
    exact ⟨rfl, rfl⟩
  | some m =>
    right
    rw [Registry.detach_of_eq_some hg hc]
    exact ⟨m, rfl, rfl⟩

/-- The tracker after the flag of a registered connection was changed. -/
def callsAfterFlag (h : Hub) (m : Member) (on : Bool) : CallTracker :=
  if on then (h.calls.markIn m.handle.room m.handle.participant).2
  else (h.calls.markOut m.handle.room m.handle.participant.user).2

/-- The flag is set on a member for whom that is a change, and then counted. -/
theorem setInCall_cases (hg : h.registry.Mirrored) (c : ConnectionId) (on : Bool) :
    ((∀ m, h.registry.member? c = some m → m.inCall = on) ∧
      h.setInCall c on = (false, h)) ∨
    (∃ m, h.registry.member? c = some m ∧ m.inCall = !on ∧
      h.setInCall c on = (true,
        { h with
          registry := h.registry.flagged c m on
          calls := h.callsAfterFlag m on })) := by
  unfold setInCall
  cases hc : h.registry.member? c with
  | none =>
    left
    rw [Registry.setInCall_of_eq_none hg on hc]
    exact ⟨fun _ hm => (nomatch hm), rfl⟩
  | some m =>
    rw [Registry.setInCall_of_eq_some hg on hc]
    by_cases hm : m.inCall = on
    · left
      rw [if_pos hm]
      exact ⟨fun m' hm' => Option.some.inj hm' ▸ hm, rfl⟩
    · right
      rw [if_neg hm]
      exact ⟨m, rfl, Bool.eq_not_of_ne hm, rfl⟩

/-- Every step keeps the registry's maps images of each other. -/
theorem mirrored_act {a : Step} (hg : h.registry.Mirrored) : (act a h).registry.Mirrored := by
  cases a with
  | attach handle =>
    show (h.attach handle).2.registry.Mirrored
    rcases attach_cases hg handle with ⟨-, heq⟩ | ⟨hc, heq⟩
    · rw [heq]; exact hg
    · rw [heq]; exact Registry.mirrored_attached hg hc
  | detach c =>
    show (h.detach c).2.registry.Mirrored
    rcases detach_cases hg c with ⟨-, heq⟩ | ⟨m, hc, heq⟩
    · rw [heq]; exact hg
    · rw [heq]; exact Registry.mirrored_detached hg hc
  | setInCall c on =>
    show (h.setInCall c on).2.registry.Mirrored
    rcases setInCall_cases hg c on with ⟨-, heq⟩ | ⟨m, hc, -, heq⟩
    · rw [heq]; exact hg
    · rw [heq]; exact Registry.mirrored_flagged hg hc
  | broadcast | broadcastPresence | pushTo | pushCallParticipants | deliver | receive
  | closeReceiver | dropReceiver | cancel =>
    rw [(act_presence rfl h).1]
    exact hg

/-- The two maps of the registry agree after every run. -/
theorem mirrored_run (steps : List Step) (hg : h.registry.Mirrored) :
    (run steps h).registry.Mirrored := by
  induction steps generalizing h with
  | nil => exact hg
  | cons a steps ih => exact ih (mirrored_act hg)

/-- Whoever is registered after a step was so before it, or is attached by it. -/
theorem member?_act {a : Step} {m : Member} (hg : h.registry.Mirrored)
    (hm : (act a h).registry.member? c = some m) :
    (∃ m', h.registry.member? c = some m' ∧ m'.handle = m.handle) ∨ a = .attach m.handle := by
  cases a with
  | attach handle =>
    replace hm : (h.attach handle).2.registry.member? c = some m := hm
    rcases attach_cases hg handle with ⟨-, heq⟩ | ⟨hfree, heq⟩
    · rw [heq] at hm
      exact Or.inl ⟨m, hm, rfl⟩
    · rw [heq, Registry.attached_member? hg hfree] at hm
      split at hm
      next =>
        cases hm
        exact Or.inr rfl
      next => exact Or.inl ⟨m, hm, rfl⟩
  | detach d =>
    replace hm : (h.detach d).2.registry.member? c = some m := hm
    rcases detach_cases hg d with ⟨-, heq⟩ | ⟨md, hd, heq⟩
    · rw [heq] at hm
      exact Or.inl ⟨m, hm, rfl⟩
    · rw [heq, Registry.detached_member? hg hd] at hm
      split at hm
      next => cases hm
      next => exact Or.inl ⟨m, hm, rfl⟩
  | setInCall d on =>
    replace hm : (h.setInCall d on).2.registry.member? c = some m := hm
    rcases setInCall_cases hg d on with ⟨-, heq⟩ | ⟨md, hd, -, heq⟩
    · rw [heq] at hm
      exact Or.inl ⟨m, hm, rfl⟩
    · rw [heq, Registry.flagged_member? hg hd] at hm
      split at hm
      next hdc =>
        cases hm
        exact Or.inl ⟨md, hdc ▸ hd, rfl⟩
      next => exact Or.inl ⟨m, hm, rfl⟩
  | broadcast | broadcastPresence | pushTo | pushCallParticipants | deliver | receive
  | closeReceiver | dropReceiver | cancel =>
    rw [(act_presence rfl h).1] at hm
    exact Or.inl ⟨m, hm, rfl⟩

/-- Whoever is registered stays so, unless a step detaches that very connection. -/
theorem exists_member?_act {a : Step} {m : Member} (hg : h.registry.Mirrored)
    (hm : h.registry.member? c = some m) (ha : a ≠ .detach c) :
    ∃ m', (act a h).registry.member? c = some m' ∧ m'.handle = m.handle := by
  cases a with
  | attach handle =>
    show ∃ m', (h.attach handle).2.registry.member? c = some m' ∧ _
    rcases attach_cases hg handle with ⟨-, heq⟩ | ⟨hfree, heq⟩
    · rw [heq]
      exact ⟨m, hm, rfl⟩
    · have hne : handle.id ≠ c := by
        intro hid
        rw [← hid, hfree] at hm
        cases hm
      rw [heq, Registry.attached_member? hg hfree, if_neg hne]
      exact ⟨m, hm, rfl⟩
  | detach d =>
    have hdc : d ≠ c := fun hdc => ha (hdc ▸ rfl)
    show ∃ m', (h.detach d).2.registry.member? c = some m' ∧ _
    rcases detach_cases hg d with ⟨-, heq⟩ | ⟨md, hd, heq⟩
    · rw [heq]
      exact ⟨m, hm, rfl⟩
    · rw [heq, Registry.detached_member? hg hd, if_neg hdc]
      exact ⟨m, hm, rfl⟩
  | setInCall d on =>
    show ∃ m', (h.setInCall d on).2.registry.member? c = some m' ∧ _
    rcases setInCall_cases hg d on with ⟨-, heq⟩ | ⟨md, hd, -, heq⟩
    · rw [heq]
      exact ⟨m, hm, rfl⟩
    · rw [heq, Registry.flagged_member? hg hd]
      split
      next hdc =>
        rw [← hdc, hd] at hm
        cases hm
        exact ⟨_, rfl, rfl⟩
      next => exact ⟨m, hm, rfl⟩
  | broadcast | broadcastPresence | pushTo | pushCallParticipants | deliver | receive
  | closeReceiver | dropReceiver | cancel =>
    rw [(act_presence rfl h).1]
    exact ⟨m, hm, rfl⟩

/-- Whoever is registered after a run was so before it, or is attached in it. -/
theorem member?_run {steps : List Step} {m : Member} (hg : h.registry.Mirrored)
    (hm : (run steps h).registry.member? c = some m) :
    (∃ m', h.registry.member? c = some m' ∧ m'.handle = m.handle) ∨
      Step.attach m.handle ∈ steps := by
  induction steps generalizing h with
  | nil => exact Or.inl ⟨m, hm, rfl⟩
  | cons a steps ih =>
    rcases ih (mirrored_act hg) hm with ⟨m', hm', hsame⟩ | hmem
    · rcases member?_act hg hm' with ⟨m₀, hm₀, hsame₀⟩ | rfl
      · exact Or.inl ⟨m₀, hm₀, hsame₀.trans hsame⟩
      · exact Or.inr (hsame ▸ List.mem_cons_self)
    · exact Or.inr (List.mem_cons_of_mem a hmem)

end RoomHub.Hub
