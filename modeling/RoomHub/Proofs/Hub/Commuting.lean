import RoomHub.Proofs.CallMarks
import RoomHub.Proofs.Hub.CallRoster
import RoomHub.Proofs.Registry.Table

/-!
# Different connections do not get in each other's way

Attaching, detaching and the call flag of one connection, beside those of another. The
entry of a connection in the registry is moved by its own operations only. The tracker is
shared: two connections of one user count in one entry. There two operations commute
because whoever is taken out of a call is counted in it (`InStep.backs`), and because both
joins write the same name.

`update_eq` splits an operation on a hub into what it does to the registry and what it
tells the tracker, and each half is commuted by itself:

> `update_comm`: operations of different connections may be swapped, while the registered
> connections of one user in one room show one name.
-/

namespace RoomHub

open Registry (Update Outcome)

/-! ## Operations on a hub -/

namespace Registry

/-- What an operation tells the tracker, by the entry of its connection. -/
def Update.mark? : Update → Option Member → Option Mark
  | .detach _, some m =>
    if m.inCall then some (.leave m.handle.room m.handle.participant.user) else none
  | .setInCall _ on, some m =>
    if m.inCall = on then none
    else if on then some (.enter m.handle.room m.handle.participant)
    else some (.leave m.handle.room m.handle.participant.user)
  | _, _ => none

/-- The step of a hub that an operation is. -/
def Update.toStep : Update → Hub.Step
  | .attach handle => .attach handle
  | .detach c => .detach c
  | .setInCall c on => .setInCall c on

/-- Who is taken out of a call was in it; who enters is registered. -/
theorem Update.mark?_cases {u : Update} {x : Option Member} {k : Mark} (h : u.mark? x = some k) :
    ∃ m, x = some m ∧ (k = .leave m.handle.room m.handle.participant.user ∧ m.inCall = true ∨
      k = .enter m.handle.room m.handle.participant) := by
  cases x with
  | none => cases u <;> cases h
  | some m =>
    refine ⟨m, rfl, ?_⟩
    cases u with
    | attach handle => cases h
    | detach c =>
      replace h : (if m.inCall then some (Mark.leave m.handle.room m.handle.participant.user)
        else none) = some k := h
      split at h
      next hin => exact Or.inl ⟨(Option.some.inj h).symm, hin⟩
      next => cases h
    | setInCall c on =>
      replace h : (if m.inCall = on then none
        else if on then some (Mark.enter m.handle.room m.handle.participant)
        else some (Mark.leave m.handle.room m.handle.participant.user)) = some k := h
      split at h
      next => cases h
      next hchange =>
        cases on with
        | true => exact Or.inr (Option.some.inj h).symm
        | false => exact Or.inl ⟨(Option.some.inj h).symm, by simpa using hchange⟩

end Registry

namespace Hub

variable {h h' : Hub} {c : ConnectionId} {u v : Update} {us us' : List Update}

/-- What an operation on a hub answers. -/
inductive Reply where
  | attached (ok : Bool)
  | detached (gone : Option Member)
  | moved (changed : Bool)
  deriving DecidableEq, Repr

/-- What the hub says of an answer of its registry. -/
def Reply.ofOutcome : Outcome → Reply
  | .attached ok => .attached ok
  | .detached gone => .detached gone
  | .moved changed => .moved changed.isSome

/-- Carries out an operation on a hub. -/
def update : Update → Hub → Reply × Hub
  | .attach handle, h => (h.attach handle).map .attached id
  | .detach c, h => (h.detach c).map .detached id
  | .setInCall c on, h => (h.setInCall c on).map .moved id

/-- Carries out operations one after the other, and keeps each answer with the connection
it went to. -/
def play : List Update → Hub → List (ConnectionId × Reply) × Hub
  | [], h => ([], h)
  | u :: us, h =>
    let (answer, h) := h.update u
    let (answers, h) := play us h
    ((u.target, answer) :: answers, h)

/-- What was answered to one connection. -/
def repliesTo (c : ConnectionId) (answers : List (ConnectionId × Reply)) : List Reply :=
  (answers.filter (·.1 = c)).map (·.2)

/-- What an update leaves behind is what its step leaves behind. -/
theorem update_snd (h : Hub) (u : Update) : (h.update u).2 = act u.toStep h := by
  cases u <;> rfl

/-- An operation does to a hub what it does to its registry, and tells the tracker. -/
theorem update_eq (hg : h.registry.Mirrored) (u : Update) :
    h.update u = (.ofOutcome (h.registry.update u).1,
      { h with
        registry := (h.registry.update u).2
        calls := h.calls.told (u.mark? (h.registry.member? u.target)) }) := by
  cases u with
  | attach handle => rfl
  | detach c =>
    show (h.detach c).map Reply.detached id = _
    cases hc : h.registry.member? c with
    | none =>
      have hnothing := Registry.detach_of_eq_none hg hc
      simp only [detach, Registry.update, Update.target, hnothing, hc]
      rfl
    | some m =>
      have hgone := Registry.detach_of_eq_some hg hc
      simp only [detach, Registry.update, Update.target, hgone, hc, Update.mark?]
      cases m.inCall <;> rfl
  | setInCall c on =>
    show (h.setInCall c on).map Reply.moved id = _
    cases hc : h.registry.member? c with
    | none =>
      have hnothing := Registry.setInCall_of_eq_none hg on hc
      simp only [setInCall, Registry.update, Update.target, hnothing, hc]
      rfl
    | some m =>
      have hflag := Registry.setInCall_of_eq_some hg on hc
      by_cases hsame : m.inCall = on
      · simp only [setInCall, Registry.update, Update.target, hflag, hc, Update.mark?,
          if_pos hsame]
        rfl
      · simp only [setInCall, Registry.update, Update.target, hflag, hc, Update.mark?,
          if_neg hsame]
        cases on <;> rfl

/-- Flags and counts agree after an update. -/
theorem inStep_update (hi : InStep h) (u : Update) : InStep (h.update u).2 := by
  rw [update_snd]
  exact inStep_act u.toStep hi

/-- Flags and counts agree after a series of updates. -/
theorem inStep_play (hi : InStep h) (us : List Update) : InStep (h.play us).2 := by
  induction us generalizing h with
  | nil => exact hi
  | cons u us ih => exact ih (inStep_update hi u)

/-- A series of updates in two parts is played part by part. -/
theorem play_append (us vs : List Update) (h : Hub) :
    (h.play (us ++ vs)).2 = ((h.play us).2.play vs).2 := by
  induction us generalizing h with
  | nil => rfl
  | cons u us ih => exact ih (h.update u).2

/-! ## Names -/

/-- A handle that is registered, or will be offered. -/
def Involved (h : Hub) (us : List Update) (a : Handle) : Prop :=
  (∃ c m, h.registry.member? c = some m ∧ m.handle = a) ∨ .attach a ∈ us

/-- All handles of one user for one room, registered or to come, carry one name. -/
def OneName (h : Hub) (us : List Update) : Prop :=
  ∀ ⦃a b : Handle⦄, Involved h us a → Involved h us b → a.room = b.room →
    a.participant.user = b.participant.user → a.participant.name = b.participant.name

/-- If no user is involved under two names, none is connected under two. -/
theorem OneName.sameNames (hn : OneName h us) : h.registry.SameNames := by
  intro c d m m' hc hd
  exact hn (Or.inl ⟨c, m, hc, rfl⟩) (Or.inl ⟨d, m', hd, rfl⟩)

/-- Whoever is involved in some updates is involved in more of them. -/
theorem Involved.of_subset {a : Handle} (ha : Involved h us' a) (hsub : us' ⊆ us) :
    Involved h us a := by
  rcases ha with hold | hcoming
  · exact Or.inl hold
  · exact Or.inr (hsub hcoming)

/-- An operation brings nobody in but the one it attaches. -/
theorem Involved.of_update {a : Handle} (hg : h.registry.Mirrored)
    (ha : Involved (h.update u).2 us a) : Involved h (u :: us) a := by
  rcases ha with ⟨c, m, hm, rfl⟩ | hmem
  · rw [update_snd] at hm
    rcases member?_act hg hm with ⟨m', hm', hsame⟩ | hattach
    · exact Or.inl ⟨c, m', hm', hsame⟩
    · have hu : u = .attach m.handle := by
        cases u with
        | attach handle => cases hattach; rfl
        | detach | setInCall => cases hattach
      exact Or.inr (hu ▸ List.mem_cons_self)
  · exact Or.inr (List.mem_cons_of_mem u hmem)

/-- Whoever has one name over a series has one name over a part of it. -/
theorem OneName.of_subset (hn : OneName h us) (hsub : us' ⊆ us) : OneName h us' := by
  intro a b ha hb
  exact hn (ha.of_subset hsub) (hb.of_subset hsub)

/-- After an update nobody has got a second name. -/
theorem OneName.update (hg : h.registry.Mirrored) (hn : OneName h (u :: us)) :
    OneName (h.update u).2 us := by
  intro a b ha hb
  exact hn (ha.of_update hg) (hb.of_update hg)

/-- After the first part of a series nobody has got a second name for the rest. -/
theorem OneName.play (hi : InStep h) (hn : OneName h (us ++ us')) :
    OneName (h.play us).2 us' := by
  induction us generalizing h with
  | nil => exact hn
  | cons u us ih => exact ih (inStep_update hi u) (hn.update hi.mirrored)

/-! ## Two operations -/

/-- What an operation does not aim at, it leaves alone. -/
theorem member?_update_of_ne (hg : h.registry.Mirrored) (hne : u.target ≠ c) :
    (h.update u).2.registry.member? c = h.registry.member? c := by
  rw [update_eq hg]
  obtain ⟨-, -, hentries⟩ := Registry.update_entry hg u
  exact (hentries c).trans (if_neg hne)

/-- An update rewrites what is registered of its own connection, and of nothing else. -/
theorem member?_update_target (hg : h.registry.Mirrored) (u : Update) :
    (h.update u).2.registry.member? u.target
      = (u.rewrite (h.registry.member? u.target)).2 := by
  rw [update_eq hg]
  obtain ⟨-, -, hentries⟩ := Registry.update_entry hg u
  exact (hentries u.target).trans (if_pos rfl)

/-- Updates of two connections leave the same registry in both orders. -/
theorem registry_update_comm (hg : h.registry.Mirrored) (hne : u.target ≠ v.target) :
    ((h.update u).2.update v).2.registry = ((h.update v).2.update u).2.registry := by
  have hg₁ : ∀ w, (h.update w).2.registry.Mirrored := by
    intro w
    rw [update_eq hg]
    exact Registry.mirrored_update hg w
  have hg₂ : ∀ w w', ((h.update w).2.update w').2.registry.Mirrored := by
    intro w w'
    rw [update_eq (hg₁ w)]
    exact Registry.mirrored_update (hg₁ w) w'
  -- each entry is rewritten by one of the two at most
  refine (hg₂ u v).ext (hg₂ v u) fun c => ?_
  by_cases hu : u.target = c
  · subst hu
    rw [member?_update_of_ne (hg₁ u) (Ne.symm hne), member?_update_target hg,
      member?_update_target (hg₁ v), member?_update_of_ne hg (Ne.symm hne)]
  · by_cases hv : v.target = c
    · subst hv
      rw [member?_update_target (hg₁ u), member?_update_of_ne hg hu,
        member?_update_of_ne (hg₁ v) hu, member?_update_target hg]
    · rw [member?_update_of_ne (hg₁ u) hv, member?_update_of_ne hg hu,
        member?_update_of_ne (hg₁ v) hu, member?_update_of_ne hg hv]

/-- Whom an operation takes out of a call, the tracker counts. -/
theorem InStep.backs (hi : InStep h) {k : Mark} (hk : k ∈ u.mark? (h.registry.member? u.target)) :
    h.calls.Backs k := by
  intro r w hleave
  obtain ⟨m, hm, hkind⟩ := Update.mark?_cases hk
  rcases hkind with ⟨rfl, hin⟩ | rfl
  · -- the connection is in the call itself, so the count is not zero
    cases hleave
    rw [hi.counted]
    exact hi.mirrored.callers_pos.mpr ⟨u.target, m, hm, rfl, hin, rfl⟩
  · cases hleave

/-- Operations of different connections may be swapped. -/
theorem update_comm (hi : InStep h) (hs : h.registry.SameNames) (hne : u.target ≠ v.target) :
    ((h.update u).2.update v).2 = ((h.update v).2.update u).2 := by
  have hg := hi.mirrored
  have hregistry := registry_update_comm hg hne
  have hcalls : ((h.update u).2.update v).2.calls = ((h.update v).2.update u).2.calls := by
    rw [update_eq (inStep_update hi u).mirrored, update_eq (inStep_update hi v).mirrored,
      member?_update_of_ne hg hne, member?_update_of_ne hg (Ne.symm hne), update_eq hg u,
      update_eq hg v]
    refine CallTracker.told_comm hi.kept (fun k hk => hi.backs hk) (fun k hk => hi.backs hk) ?_
    intro r p r' p' hu hv hroom huser
    -- both joins write what a registered connection says
    obtain ⟨m, hm, hm_kind⟩ := Update.mark?_cases hu
    obtain ⟨m', hm', hm_kind'⟩ := Update.mark?_cases hv
    rcases hm_kind with ⟨habsurd, -⟩ | hm_kind
    · cases habsurd
    rcases hm_kind' with ⟨habsurd, -⟩ | hm_kind'
    · cases habsurd
    cases hm_kind
    cases hm_kind'
    exact hs.participant_eq hm hm' hroom huser
  have houtboxes : ((h.update u).2.update v).2.outboxes
      = ((h.update v).2.update u).2.outboxes := by
    rw [update_eq (inStep_update hi u).mirrored, update_eq (inStep_update hi v).mirrored,
      update_eq hg u, update_eq hg v]
  -- two hubs that agree in all three fields are one
  generalize ((h.update u).2.update v).2 = left at *
  generalize ((h.update v).2.update u).2 = right at *
  cases left
  cases right
  cases hregistry
  cases hcalls
  cases houtboxes
  rfl

end Hub

end RoomHub
