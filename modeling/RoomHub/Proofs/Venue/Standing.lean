import RoomHub.Proofs.Hub.Sparing
import RoomHub.Proofs.Venue.Conduct
import RoomHub.Proofs.Venue.Moves

/-!
# Where a guest's connection is

A connection is outside, in its room, or gone again, and what the guest's task has done to
let it in or out agrees with that. `InOrder` says for each phase which of the three it is,
what the task still has to do about it, which stages the connection has advanced to, and,
once it has left, that its close signal is tripped.

> `InOrder.of_spares`: whatever spares its connection leaves a guest in order.
-/

namespace RoomHub

/-! ## Operations -/

/-- Whether an operation lets a connection in or out. -/
def Operation.isPassage : Operation → Bool
  | .attach _ | .detach _ => true
  | _ => false

section Operations

variable {op : Operation} {w : World} {c : ConnectionId} {k : Handle}

/-- A harmless operation lets nobody in or out. -/
theorem Operation.isPassage_of_isHarmless (h : op.IsHarmless k) : op.isPassage = false := by
  cases op <;> first | rfl | exact h.elim

theorem Operation.eq_attach_of_step? (h : op.step? = some (.attach k)) : op = .attach k := by
  cases op with
  | attach =>
    cases h
    rfl
  | _ => cases h

theorem Operation.eq_detach_of_step? (h : op.step? = some (.detach c)) : op = .detach c := by
  cases op with
  | detach =>
    cases h
    rfl
  | _ => cases h

/-- Registry and tracker agree after any operation. -/
theorem World.inStep_perform (op : Operation) (hi : w.hub.InStep) :
    (w.perform op).2.hub.InStep := by
  rw [World.hub_perform]
  unfold Operation.hubAfter
  split
  next a _ => exact Hub.inStep_act a hi
  next => exact hi

theorem World.hasOutbox_perform (op : Operation) (ho : w.hub.HasOutbox c) :
    (w.perform op).2.hub.HasOutbox c := by
  rw [World.hub_perform]
  unfold Operation.hubAfter
  split
  next a _ => exact Hub.hasOutbox_act a ho
  next => exact ho

/-- An operation that neither attaches nor detaches a connection leaves its registration alone. -/
theorem World.spares_perform (hg : w.hub.registry.Mirrored)
    (hin : ∀ k, op = .attach k → k.id ≠ c) (hout : op ≠ .detach c) :
    w.hub.Spares c (w.perform op).2.hub := by
  rw [World.hub_perform]
  unfold Operation.hubAfter
  split
  next a ha =>
    -- the step lets in or out whom the operation does
    refine Hub.spares_act hg (fun k hk => ?_) fun hk => ?_
    · rw [hk] at ha
      exact hin k (Operation.eq_attach_of_step? ha)
    · rw [hk] at ha
      exact hout (Operation.eq_detach_of_step? ha)
  next => exact Hub.Spares.refl c w.hub

/-- A harmless operation leaves every registration alone. -/
theorem World.spares_of_isHarmless (hg : w.hub.registry.Mirrored) (h : op.IsHarmless k)
    (c : ConnectionId) : w.hub.Spares c (w.perform op).2.hub := by
  refine World.spares_perform hg (fun k' heq => ?_) fun heq => ?_
  · subst heq
    exact h.elim
  · subst heq
    exact h.elim

/-- The store's answers are honest. -/
theorem World.isHonest_perform (hs : w.store.Numbered) (op : Operation) :
    op.IsHonest (w.perform op).1 := by
  cases op with
  | recentMessages r n =>
    cases hms : (w.perform (.recentMessages r n)).1 with
    | error e => exact trivial
    | ok ms =>
      -- what was read is the end of the list that the store keeps for the room
      intro m hm
      rw [World.recentMessages_eq_ok hms] at hm
      exact hs.roomed r m (List.drop_subset _ _ hm)
  | _ => exact trivial

end Operations

/-! ## Where a connection is -/

/-- What was done, among all that a task did, to let its connection in or out. -/
def passages (turns : List Turn) : List Turn := turns.filter (·.op.isPassage)

theorem passages_concat_harmless {turns : List Turn} {turn : Turn}
    (h : turn.op.isPassage = false) : passages (turns ++ [turn]) = passages turns := by
  simp [passages, h]

theorem passages_concat {turns : List Turn} {turn : Turn} (h : turn.op.isPassage = true) :
    passages (turns ++ [turn]) = passages turns ++ [turn] := by
  simp [passages, h]

/-- A connection is not registered, and was never let in. -/
structure Outside (h : Hub) (c : ConnectionId) (turns : List Turn) : Prop where
  free : h.registry.connection? c = none
  passages : passages turns = []

/-- A connection is registered; it was let in, and not out. -/
structure Inside (h : Hub) (k : Handle) (turns : List Turn) : Prop where
  registered : h.registry.connection? k.id = some k
  passages : passages turns = [⟨.attach k, true⟩]

/-- A connection is not registered; it was let in and then out, and what was done after
that is known. -/
structure Gone (h : Hub) (k : Handle) (turns after : List Turn) : Prop where
  free : h.registry.connection? k.id = none
  out : ∃ m before, m.handle = k ∧
    passages turns = [⟨.attach k, true⟩, ⟨.detach k.id, some m⟩] ∧
    turns = before ++ ⟨.detach k.id, some m⟩ :: after

/-- A connection is gone, and its room was told once. -/
def Left (h : Hub) (k : Handle) (turns : List Turn) : Prop :=
  ∃ report, Gone h k turns [⟨.broadcastPresence k.room .room, report⟩]

section Sparing

variable {h h' : Hub} {c : ConnectionId} {k : Handle} {turns after : List Turn}

/-- Who is outside stays so while its registration is left alone. -/
theorem Outside.of_spares (ho : Outside h c turns) (hs : Hub.Spares c h h') :
    Outside h' c turns where
  free := by rw [hs.handle]; exact ho.free
  passages := ho.passages

theorem Inside.of_spares (hi : Inside h k turns) (hs : Hub.Spares k.id h h') :
    Inside h' k turns where
  registered := by rw [hs.handle]; exact hi.registered
  passages := hi.passages

theorem Gone.of_spares (hgone : Gone h k turns after) (hs : Hub.Spares k.id h h') :
    Gone h' k turns after where
  free := by rw [hs.handle]; exact hgone.free
  out := hgone.out

theorem Left.of_spares (hleft : Left h k turns) (hs : Hub.Spares k.id h h') :
    Left h' k turns := by
  obtain ⟨report, hgone⟩ := hleft
  exact ⟨report, hgone.of_spares hs⟩

end Sparing

section Concat

variable {h : Hub} {c : ConnectionId} {k : Handle} {turns : List Turn} {turn : Turn}

/-- What neither lets in nor out is done outside as well as inside. -/
theorem Outside.concat (ho : Outside h c turns) (hturn : turn.op.isPassage = false) :
    Outside h c (turns ++ [turn]) where
  free := ho.free
  passages := by rw [passages_concat_harmless hturn]; exact ho.passages

/-- Who is inside stays so after a turn that is no passage. -/
theorem Inside.concat (hi : Inside h k turns) (hturn : turn.op.isPassage = false) :
    Inside h k (turns ++ [turn]) where
  registered := hi.registered
  passages := by rw [passages_concat_harmless hturn]; exact hi.passages

end Concat

/-! ## Being in order -/

/-- A session whose connection is in its room. -/
structure Attending (h : Hub) (stages : List (Bool × Stage)) (turns : List Turn) (s : Session) :
    Prop where
  outbox : h.HasOutbox s.handle.id
  there : s.left = false
  stage : s.stage = .active
  stages : stages = [(true, .active)]
  inside : Inside h s.handle turns

/-- A session that has read its last and whose connection is on its way out. -/
structure Departing (h : Hub) (stages : List (Bool × Stage)) (s : Session) : Prop where
  outbox : h.HasOutbox s.handle.id
  ended : ∃ e, s.reading = .error e
  stage : s.stage = .draining
  stages : stages = [(true, .active), (true, .draining)]

/-- A session whose connection has left, and whose writing side may still go on. -/
structure Departed (h : Hub) (stages : List (Bool × Stage)) (turns : List Turn) (s : Session) :
    Prop where
  ended : ∃ e, s.reading = .error e
  stage : s.stage = .draining
  stages : stages = [(true, .active), (true, .draining)]
  left : Left h s.handle turns
  outbox : h.HasOutbox s.handle.id
  cancelled : h.isCancelled s.handle.id = true

/-- A session that is over. -/
structure Finished (h : Hub) (stages : List (Bool × Stage)) (turns : List Turn) (s : Session) :
    Prop where
  stages : stages = [(true, .active), (true, .draining), (true, .closed)]
  left : Left h s.handle turns
  cancelled : h.isCancelled s.handle.id = true

section Sparing

variable {h h' : Hub} {stages : List (Bool × Stage)} {turns : List Turn} {s : Session}

/-- A session attends on while its registration is left alone. -/
theorem Attending.of_spares (ha : Attending h stages turns s)
    (hs : Hub.Spares s.handle.id h h') : Attending h' stages turns s :=
  { ha with
    outbox := hs.outbox ha.outbox
    inside := ha.inside.of_spares hs }

theorem Departing.of_spares (hd : Departing h stages s) (hs : Hub.Spares s.handle.id h h') :
    Departing h' stages s :=
  { hd with outbox := hs.outbox hd.outbox }

theorem Departed.of_spares (hd : Departed h stages turns s)
    (hs : Hub.Spares s.handle.id h h') : Departed h' stages turns s :=
  { hd with
    left := hd.left.of_spares hs
    outbox := hs.outbox hd.outbox
    cancelled := hs.cancelled hd.cancelled }

theorem Finished.of_spares (hf : Finished h stages turns s)
    (hs : Hub.Spares s.handle.id h h') : Finished h' stages turns s :=
  { hf with
    left := hf.left.of_spares hs
    cancelled := hs.cancelled hf.cancelled }

/-- Only the handle of a session, its stage and whether it has left matter to this. -/
theorem Attending.congr {t : Session} (ha : Attending h stages turns s)
    (hhandle : t.handle = s.handle)
    (hleft : t.left = s.left) (hstage : t.stage = s.stage) : Attending h stages turns t where
  outbox := by rw [hhandle]; exact ha.outbox
  there := hleft.trans ha.there
  stage := hstage.trans ha.stage
  stages := ha.stages
  inside := by rw [hhandle]; exact ha.inside

end Sparing

namespace Guest

/-- A guest's connection is where the phase says, and what is left of the program of the
phase does what is still to be done about it, and nothing else. -/
def InOrder (h : Hub) (g : Guest) : Prop :=
  match g.phase with
  | .asking rest => Outside h g.id g.turns ∧ g.stages = [] ∧ rest.Reads
  | .answered _ => Outside h g.id g.turns
  | .unopened => Outside h g.id g.turns
  | .joining k rest =>
    k.id = g.id ∧ g.stages = [] ∧ h.HasOutbox k.id ∧
      ((Outside h k.id g.turns ∧ ∃ limit, rest = Membership.join limit k) ∨
        (Inside h k g.turns ∧ rest.Obeys k (· = true)))
  | .refused _ => False
  | .live s =>
    s.handle.id = g.id ∧
      (Attending h g.stages g.turns s ∨ (s.left = true ∧ Departed h g.stages g.turns s))
  | .acting s rest =>
    s.handle.id = g.id ∧ Attending h g.stages g.turns s ∧ rest.Obeys s.handle fun _ => True
  | .leaving s rest =>
    s.handle.id = g.id ∧ Departing h g.stages s ∧
      ((Inside h s.handle g.turns ∧ rest = Membership.leave s.handle.id) ∨
        (Gone h s.handle g.turns [] ∧
          rest = .step (.broadcastPresence s.handle.room .room) fun _ => .done true) ∨
        (Left h s.handle g.turns ∧ rest = .done true))
  | .ended s d =>
    s.handle.id = g.id ∧ d.connection = g.id ∧ h.HasOutbox s.handle.id ∧
      Finished h g.stages g.turns s
  | .swept s _ => s.handle.id = g.id ∧ Finished h g.stages g.turns s

variable {cfg : HubSettings} {now : Time} {h h' : Hub} {g g' : Guest} {w w' : World}

/-- Whatever spares its connection leaves a guest in order. -/
theorem InOrder.of_spares (hi : g.InOrder h) (hs : Hub.Spares g.id h h') : g.InOrder h' := by
  obtain ⟨id, site, upgradable, request, turns, stages, phase⟩ := g
  -- in every phase the hub is only looked at for the guest's own connection
  cases phase with
  | asking rest => exact ⟨hi.1.of_spares hs, hi.2⟩
  | answered r => exact Outside.of_spares hi hs
  | unopened => exact Outside.of_spares hi hs
  | joining k rest =>
    obtain ⟨rfl, hstages, houtbox, hwhere⟩ := hi
    refine ⟨rfl, hstages, hs.outbox houtbox, ?_⟩
    rcases hwhere with ⟨hout, hrest⟩ | ⟨hin, hrest⟩
    · exact Or.inl ⟨hout.of_spares hs, hrest⟩
    · exact Or.inr ⟨hin.of_spares hs, hrest⟩
  | refused k => exact hi
  | live s =>
    obtain ⟨rfl, hin | ⟨hleft, hgone⟩⟩ := hi
    · exact ⟨rfl, Or.inl (hin.of_spares hs)⟩
    · exact ⟨rfl, Or.inr ⟨hleft, hgone.of_spares hs⟩⟩
  | acting s rest =>
    obtain ⟨rfl, hin, hrest⟩ := hi
    exact ⟨rfl, hin.of_spares hs, hrest⟩
  | leaving s rest =>
    obtain ⟨rfl, hdeparting, hwhere⟩ := hi
    refine ⟨rfl, hdeparting.of_spares hs, ?_⟩
    rcases hwhere with ⟨hin, hrest⟩ | ⟨hgone, hrest⟩ | ⟨hleft, hrest⟩
    · exact Or.inl ⟨hin.of_spares hs, hrest⟩
    · exact Or.inr (Or.inl ⟨hgone.of_spares hs, hrest⟩)
    · exact Or.inr (Or.inr ⟨hleft.of_spares hs, hrest⟩)
  | ended s d =>
    obtain ⟨rfl, hconnection, houtbox, hfinished⟩ := hi
    exact ⟨rfl, hconnection, hs.outbox houtbox, hfinished.of_spares hs⟩
  | swept s d =>
    obtain ⟨rfl, hfinished⟩ := hi
    exact ⟨rfl, hfinished.of_spares hs⟩

/-- A guest's connection is outside, in its room, or gone. -/
theorem InOrder.position (ho : g.InOrder h) :
    Outside h g.id g.turns ∨
      (∃ k, k.id = g.id ∧ g.phase.handle? = some k ∧ Inside h k g.turns) ∨
      ∃ k after, k.id = g.id ∧ Gone h k g.turns after := by
  obtain ⟨id, site, upgradable, request, turns, stages, phase⟩ := g
  cases phase with
  | asking rest => exact Or.inl ho.1
  | answered r => exact Or.inl ho
  | unopened => exact Or.inl ho
  | joining k rest =>
    obtain ⟨rfl, -, -, ⟨hout, -⟩ | ⟨hin, -⟩⟩ := ho
    · exact Or.inl hout
    · exact Or.inr (Or.inl ⟨k, rfl, rfl, hin⟩)
  | refused k => exact ho.elim
  | live s =>
    obtain ⟨hid, hin | ⟨-, hgone⟩⟩ := ho
    · exact Or.inr (Or.inl ⟨s.handle, hid, rfl, hin.inside⟩)
    · obtain ⟨report, hleft⟩ := hgone.left
      exact Or.inr (Or.inr ⟨s.handle, _, hid, hleft⟩)
  | acting s rest => exact Or.inr (Or.inl ⟨s.handle, ho.1, rfl, ho.2.1.inside⟩)
  | leaving s rest =>
    obtain ⟨hid, -, ⟨hin, -⟩ | ⟨hgone, -⟩ | ⟨⟨report, hleft⟩, -⟩⟩ := ho
    · exact Or.inr (Or.inl ⟨s.handle, hid, rfl, hin⟩)
    · exact Or.inr (Or.inr ⟨s.handle, _, hid, hgone⟩)
    · exact Or.inr (Or.inr ⟨s.handle, _, hid, hleft⟩)
  | ended s d =>
    obtain ⟨hid, -, -, hfinished⟩ := ho
    obtain ⟨report, hleft⟩ := hfinished.left
    exact Or.inr (Or.inr ⟨s.handle, _, hid, hleft⟩)
  | swept s d =>
    obtain ⟨hid, hfinished⟩ := ho
    obtain ⟨report, hleft⟩ := hfinished.left
    exact Or.inr (Or.inr ⟨s.handle, _, hid, hleft⟩)

/-- A guest's handle is one for its connection. -/
theorem InOrder.handle_id {k : Handle} (ho : g.InOrder h) (hk : g.phase.handle? = some k) :
    k.id = g.id := by
  obtain ⟨id, site, upgradable, request, turns, stages, phase⟩ := g
  cases phase with
  | joining | live | acting | leaving | ended | swept =>
    -- each of these says so first
    cases hk
    exact ho.1
  | refused => exact ho.elim
  | asking | answered | unopened => cases hk

/-- What a guest's connection is registered with is the handle of its phase. -/
theorem InOrder.handle?_of_registered {k : Handle} (ho : g.InOrder h)
    (hk : h.registry.connection? g.id = some k) : g.phase.handle? = some k := by
  rcases ho.position with hout | ⟨j, hid, hj, hin⟩ | ⟨j, after, hid, hgone⟩
  · rw [hout.free] at hk
    cases hk
  · rw [← hid, hin.registered] at hk
    cases hk
    exact hj
  · rw [← hid, hgone.free] at hk
    cases hk

end Guest

end RoomHub
