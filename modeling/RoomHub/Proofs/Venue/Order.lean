import RoomHub.Proofs.Venue.Standing

/-!
# Every guest stays in order

A guest is kept in order by its own acts (`inOrder_change`), and by everything else because
everything else spares its connection: only its own task lets it in or out (`own_of_next`),
nobody takes its outbox away, and a signal once tripped stays so.

> `orderly_run`: after any run every guest is in order, nobody is registered who is not a
> guest, and the registry and the tracker agree.
-/

namespace RoomHub

open Std (ExtTreeMap)

namespace Guest

variable {cfg : HubSettings} {now : Time} {h : Hub} {g g' : Guest} {w w' : World}
  {sent : List Sending}

/-! ## What the order says of each phase -/

section Phases

variable {k : Handle} {s : Session}

/-- A guest whose request is being answered is not registered, and its program only reads. -/
theorem InOrder.asking {rest : Program Http.Reply} (ho : g.InOrder h)
    (hp : g.phase = .asking rest) : Outside h g.id g.turns ∧ g.stages = [] ∧ rest.Reads := by
  unfold InOrder at ho
  rw [hp] at ho
  exact ho

/-- A guest that joins is about to attach, or registered with the rest of the join before it. -/
theorem InOrder.joining {rest : Program Bool} (ho : g.InOrder h)
    (hp : g.phase = .joining k rest) :
    k.id = g.id ∧ g.stages = [] ∧ h.HasOutbox k.id ∧
      ((Outside h k.id g.turns ∧ ∃ limit, rest = Membership.join limit k) ∨
        (Inside h k g.turns ∧ rest.Obeys k (· = true))) := by
  unfold InOrder at ho
  rw [hp] at ho
  exact ho

/-- A join that has come to its end has let the connection in, and says so. -/
theorem InOrder.joined {b : Bool} (ho : g.InOrder h) (hp : g.phase = .joining k (.done b)) :
    b = true ∧ Inside h k g.turns := by
  obtain ⟨-, -, -, ⟨-, limit, hrest⟩ | ⟨hin, hend⟩⟩ := ho.joining hp
  · -- a join that is yet to begin is not at its end
    rw [Membership.join_eq] at hrest
    cases hrest
  · exact ⟨hend, hin⟩

/-- A guest whose session goes on is in its room, or has left it with only the writing side going
on. -/
theorem InOrder.live (ho : g.InOrder h) (hp : g.phase = .live s) :
    s.handle.id = g.id ∧
      (Attending h g.stages g.turns s ∨ (s.left = true ∧ Departed h g.stages g.turns s)) := by
  unfold InOrder at ho
  rw [hp] at ho
  exact ho

/-- While the reading side goes on, the connection is in its room. -/
theorem InOrder.attending_of_reading {side : ReadSide} (ho : g.InOrder h) (hp : g.phase = .live s)
    (hside : s.reading = .ok side) : Attending h g.stages g.turns s := by
  obtain ⟨-, hin | ⟨-, hgone⟩⟩ := ho.live hp
  · exact hin
  · -- no connection is let out before its reading has ended
    obtain ⟨e, he⟩ := hgone.ended
    rw [hside] at he
    cases he

/-- A session that has not left is in its room. -/
theorem InOrder.attending_of_there (ho : g.InOrder h) (hp : g.phase = .live s)
    (hthere : s.left = false) : Attending h g.stages g.turns s := by
  obtain ⟨-, hin | ⟨hleft, -⟩⟩ := ho.live hp
  · exact hin
  · rw [hthere] at hleft
    cases hleft

theorem InOrder.departed_of_left (ho : g.InOrder h) (hp : g.phase = .live s)
    (hleft : s.left = true) : Departed h g.stages g.turns s := by
  obtain ⟨-, hin | ⟨-, hgone⟩⟩ := ho.live hp
  · rw [hin.there] at hleft
    cases hleft
  · exact hgone

/-- A guest that acts upon a text is in its room, and what it does is harmless. -/
theorem InOrder.acting {rest : Program (Except Ending ReadSide)} (ho : g.InOrder h)
    (hp : g.phase = .acting s rest) :
    s.handle.id = g.id ∧ Attending h g.stages g.turns s ∧ rest.Obeys s.handle fun _ => True := by
  unfold InOrder at ho
  rw [hp] at ho
  exact ho

/-- A guest that leaves is about to detach, or has detached and is about to tell its room, or has
told it. -/
theorem InOrder.leaving {rest : Program Bool} (ho : g.InOrder h)
    (hp : g.phase = .leaving s rest) :
    s.handle.id = g.id ∧ Departing h g.stages s ∧
      ((Inside h s.handle g.turns ∧ rest = Membership.leave s.handle.id) ∨
        (Gone h s.handle g.turns [] ∧
          rest = .step (.broadcastPresence s.handle.room .room) fun _ => .done true) ∨
        (Left h s.handle g.turns ∧ rest = .done true)) := by
  unfold InOrder at ho
  rw [hp] at ho
  exact ho

/-- A guest whose session is over has an outbox yet, and was finished as it should be. -/
theorem InOrder.ended {d : Departure} (ho : g.InOrder h) (hp : g.phase = .ended s d) :
    s.handle.id = g.id ∧ d.connection = g.id ∧ h.HasOutbox s.handle.id ∧
      Finished h g.stages g.turns s := by
  unfold InOrder at ho
  rw [hp] at ho
  exact ho

end Phases

/-! ## The next operation -/

section Taking

variable {op : Operation} {k : Handle} {s : Session}

/-- A request that is being answered stays in order with one more answer. -/
theorem inOrder_took_asking {f : op.Answer → Program Http.Reply} (hi : w.hub.InStep)
    (hp : g.phase = .asking (.step op f)) (ho : g.InOrder w.hub) :
    (g.took op (fun a => .asking (f a)) (w.perform op).1).InOrder (w.perform op).2.hub := by
  obtain ⟨hout, hstages, hreads⟩ := ho.asking hp
  -- a request has no handle yet, but what only reads is harmless under any
  have hharmless := Operation.isHarmless_of_isReading hreads.1 default
  have hspares := World.spares_of_isHarmless hi.mirrored hharmless g.id
  have hpassage := Operation.isPassage_of_isHarmless hharmless
  exact ⟨(hout.of_spares hspares).concat hpassage, hstages, hreads.2 _⟩

/-- A join stays in order with one more answer. -/
theorem inOrder_took_joining {f : op.Answer → Program Bool} (hi : w.hub.InStep)
    (hs : w.store.Numbered) (hp : g.phase = .joining k (.step op f)) (ho : g.InOrder w.hub) :
    (g.took op (fun a => .joining k (f a)) (w.perform op).1).InOrder (w.perform op).2.hub := by
  obtain ⟨hid, hstages, houtbox, hwhere⟩ := ho.joining hp
  refine ⟨hid, hstages, World.hasOutbox_perform op houtbox, ?_⟩
  rcases hwhere with ⟨hout, limit, hrest⟩ | ⟨hin, hobeys⟩
  · -- the join begins with its attach, and the identifier is free
    obtain ⟨next, hjoin, hobeys⟩ := Membership.obeys_join limit k
    rw [hjoin] at hrest
    cases hrest
    obtain ⟨hok, hregistered⟩ := Hub.attach_of_free hi.mirrored hout.free
    have hanswer : (w.perform (.attach k)).1 = true := hok
    right
    show Inside _ k (g.turns ++ [⟨.attach k, (w.perform (.attach k)).1⟩]) ∧
      (next (w.perform (.attach k)).1).Obeys k _
    rw [hanswer]
    refine ⟨⟨hregistered, ?_⟩, hobeys⟩
    rw [passages_concat rfl, hout.passages]
    rfl
  · have hspares := World.spares_of_isHarmless hi.mirrored hobeys.1 k.id
    have hpassage := Operation.isPassage_of_isHarmless hobeys.1
    right
    exact ⟨(hin.of_spares hspares).concat hpassage, hobeys.2 _ (World.isHonest_perform hs op)⟩

/-- Acting upon a text stays in order with one more answer. -/
theorem inOrder_took_acting {f : op.Answer → Program (Except Ending ReadSide)}
    (hi : w.hub.InStep) (hs : w.store.Numbered) (hp : g.phase = .acting s (.step op f))
    (ho : g.InOrder w.hub) :
    (g.took op (fun a => .acting s (f a)) (w.perform op).1).InOrder (w.perform op).2.hub := by
  obtain ⟨hid, hattending, hobeys⟩ := ho.acting hp
  have hspares := World.spares_of_isHarmless hi.mirrored hobeys.1 s.handle.id
  have hpassage := Operation.isPassage_of_isHarmless hobeys.1
  have hstill := hattending.of_spares hspares
  refine ⟨hid, { hstill with inside := hstill.inside.concat hpassage }, ?_⟩
  exact hobeys.2 _ (World.isHonest_perform hs op)

/-- A leave stays in order with one more answer. -/
theorem inOrder_took_leaving {f : op.Answer → Program Bool} (hi : w.hub.InStep)
    (hp : g.phase = .leaving s (.step op f)) (ho : g.InOrder w.hub) :
    (g.took op (fun a => .leaving s (f a)) (w.perform op).1).InOrder (w.perform op).2.hub := by
  obtain ⟨hid, hdeparting, hwhere⟩ := ho.leaving hp
  refine ⟨hid, { hdeparting with outbox := World.hasOutbox_perform op hdeparting.outbox }, ?_⟩
  right
  rcases hwhere with ⟨hin, hrest⟩ | ⟨⟨hfree, m, before, hm, hpassages, hturns⟩, hrest⟩ |
    ⟨hleft, hrest⟩
  · -- the leave begins with its detach, and the connection is in
    rw [Membership.leave_eq] at hrest
    cases hrest
    obtain ⟨m, hgone, hm, hfree⟩ := Hub.detach_of_registered hi.mirrored hin.registered
    have hanswer : (w.perform (.detach s.handle.id)).1 = some m := hgone
    left
    rw [hanswer]
    refine ⟨⟨hfree, m, g.turns, hm, ?_, rfl⟩, ?_⟩
    · show passages (g.turns ++ [⟨.detach s.handle.id, some m⟩]) = _
      rw [passages_concat rfl, hin.passages]
      rfl
    · rw [← hm]
  · -- the room is told, which lets nobody in or out
    cases hrest
    have hharmless : Operation.IsHarmless s.handle (.broadcastPresence s.handle.room .room) :=
      trivial
    have hspares := World.spares_of_isHarmless hi.mirrored hharmless s.handle.id
    right
    refine ⟨⟨(w.perform (.broadcastPresence s.handle.room .room)).1, ?_, m, before, hm, ?_, ?_⟩,
      rfl⟩
    · rw [hspares.handle]
      exact hfree
    · show passages (g.turns ++ [_]) = _
      rw [passages_concat_harmless rfl]
      exact hpassages
    · show g.turns ++ [_] = _
      rw [hturns, List.append_assoc]
      rfl
  · -- after that there is no operation left
    cases hrest

/-- The next operation of its program leaves a guest in order. -/
theorem inOrder_took {next : op.Answer → Phase} (hi : w.hub.InStep) (hs : w.store.Numbered)
    (hnext : g.phase.next? = some ⟨op, next⟩) (ho : g.InOrder w.hub) :
    (g.took op next (w.perform op).1).InOrder (w.perform op).2.hub := by
  rcases Phase.next?_cases hnext with ⟨f, hp, rfl⟩ | ⟨k, f, hp, rfl⟩ | ⟨s, f, hp, rfl⟩ |
    ⟨s, f, hp, rfl⟩
  · exact inOrder_took_asking hi hp ho
  · exact inOrder_took_joining hi hs hp ho
  · exact inOrder_took_acting hi hs hp ho
  · exact inOrder_took_leaving hi hp ho

end Taking

/-! ## Every act -/

section Changing

variable {s : Session}

/-- A session that is over has been left. -/
theorem left_of_over {d : Departure} (h : s.over? = some d) :
    s.left = true ∧ d.connection = s.handle.id := by
  unfold Session.over? at h
  split at h
  next hleft =>
    cases h
    exact ⟨hleft, rfl⟩
  next => cases h

/-- The writing side has no part in the order. -/
theorem inOrder_wrote {socket : WebSocket.Socket} {writing : WriteSide}
    (hp : g.phase.session? = some s) (ho : g.InOrder h) :
    (g.onSession fun _ => { s with socket := socket, writing := writing }).InOrder h := by
  obtain ⟨id, site, upgradable, request, turns, stages, phase⟩ := g
  -- the writing side is at work in three phases, and none looks at socket or writing
  cases phase with
  | live t =>
    cases hp
    obtain ⟨hid, hin | ⟨hleft, hgone⟩⟩ := ho
    · exact ⟨hid, Or.inl (hin.congr rfl rfl rfl)⟩
    · exact ⟨hid, Or.inr ⟨hleft, hgone.ended, hgone.stage, hgone.stages, hgone.left,
        hgone.outbox, hgone.cancelled⟩⟩
  | acting t rest =>
    cases hp
    obtain ⟨hid, hin, hrest⟩ := ho
    exact ⟨hid, hin.congr rfl rfl rfl, hrest⟩
  | leaving t rest =>
    cases hp
    obtain ⟨hid, hd, hwhere⟩ := ho
    exact ⟨hid, ⟨hd.outbox, hd.ended, hd.stage, hd.stages⟩, hwhere⟩
  | asking | answered | unopened | joining | refused | ended | swept => cases hp

/-- A session that begins to leave. -/
theorem inOrder_draining {e : Ending} (hp : g.phase = .live s) (hended : s.reading = .error e)
    (hthere : s.left = false) (ho : g.InOrder h) : (g.draining s).InOrder h := by
  have hin := ho.attending_of_there hp hthere
  refine ⟨(ho.live hp).1, ⟨hin.outbox, ⟨_, hended⟩, ?_, ?_⟩, Or.inl ⟨hin.inside, rfl⟩⟩
  · show (Stage.advance _ _).2 = _
    rw [hin.stage]
    rfl
  · show g.stages ++ _ = _
    rw [hin.stages, hin.stage]
    rfl

/-- A session that has left, and whose close signal is tripped. -/
theorem inOrder_left {b : Bool} (hg : h.registry.Mirrored) (hp : g.phase = .leaving s (.done b))
    (ho : g.InOrder h) :
    ({ g with phase := .live { s with left := true } } : Guest).InOrder
      (h.cancel s.handle.id) := by
  -- only a leave that has told the room is at its end
  obtain ⟨hid, hd, ⟨-, hrest⟩ | ⟨-, hrest⟩ | ⟨hleft, -⟩⟩ := ho.leaving hp
  · rw [Membership.leave_eq] at hrest
    cases hrest
  · cases hrest
  · have hspares := Hub.spares_cancel hg s.handle.id s.handle.id
    refine ⟨hid, Or.inr ⟨rfl, hd.ended, hd.stage, hd.stages, ?_, ?_, ?_⟩⟩
    · exact hleft.of_spares hspares
    · exact hspares.outbox hd.outbox
    · exact Hub.isCancelled_cancel h s.handle.id

/-- A session that is over. -/
theorem inOrder_finished {d : Departure} (hp : g.phase = .live s) (hover : s.over? = some d)
    (ho : g.InOrder h) : (g.finished s d).InOrder h := by
  obtain ⟨hleft, hconnection⟩ := left_of_over hover
  have hid := (ho.live hp).1
  have hgone := ho.departed_of_left hp hleft
  refine ⟨hid, hconnection.trans hid, hgone.outbox, ?_, hgone.left, hgone.cancelled⟩
  show g.stages ++ _ = _
  rw [hgone.stages, hgone.stage]
  rfl

/-- Taking the outbox away trips no signal back. -/
theorem inOrder_swept {d : Departure} (hp : g.phase = .ended s d) (ho : g.InOrder h) :
    ({ g with phase := .swept s d } : Guest).InOrder (h.removeOutbox d.connection) := by
  obtain ⟨hid, hconnection, -, hfinished⟩ := ho.ended hp
  obtain ⟨report, hgone⟩ := hfinished.left
  refine ⟨hid, hfinished.stages, ⟨report, hgone.free, hgone.out⟩, ?_⟩
  rw [hid, hconnection]
  exact Hub.isCancelled_removeOutbox h g.id

/-- Its own acts keep a guest in order. -/
theorem inOrder_change (hi : w.hub.InStep) (hs : w.store.Numbered)
    (hc : g.Change cfg now w g' w' sent) (ho : g.InOrder w.hub) : g'.InOrder w'.hub := by
  have hg := hi.mirrored
  cases hc with
  | still => exact ho
  | took hnext => exact inOrder_took hi hs hnext ho
  | answered hp => exact (ho.asking hp).1
  | unopened hp => exact (ho.asking hp).1
  | opened hp _ =>
    obtain ⟨hout, hstages, -⟩ := ho.asking hp
    refine ⟨rfl, hstages, ⟨_, ExtTreeMap.getElem?_insert_self⟩, Or.inl ⟨?_, _, rfl⟩⟩
    exact ⟨hout.free, hout.passages⟩
  | joined hp =>
    obtain ⟨hid, hstages, houtbox, -⟩ := ho.joining hp
    refine ⟨hid, Or.inl ⟨houtbox, rfl, rfl, ?_, (ho.joined hp).2⟩⟩
    show g.stages ++ _ = _
    rw [hstages]
    rfl
  | refused hp =>
    -- nobody else can have taken the identifier, so a join is never turned down
    exact absurd (ho.joined hp).1 Bool.false_ne_true
  | heard hp hside reading =>
    have hin := ho.attending_of_reading hp hside
    exact ⟨(ho.live hp).1, Or.inl (hin.congr rfl rfl rfl)⟩
  | arrived hp hside arrival =>
    have hin := ho.attending_of_reading hp hside
    exact ⟨(ho.live hp).1, hin, ReadSide.obeys_take _ _ _ _ _⟩
  | acted hp =>
    obtain ⟨hid, hin, -⟩ := ho.acting hp
    exact ⟨hid, Or.inl (hin.congr rfl rfl rfl)⟩
  | drained hp hended hthere => exact inOrder_draining hp hended hthere ho
  | left hp => exact inOrder_left hg hp ho
  | finished hp hover => exact inOrder_finished hp hover ho
  | @wrote s hp socket writing _ hw =>
    have hwrote : InOrder w.hub
        (g.onSession fun _ => { s with socket := socket, writing := writing }) :=
      inOrder_wrote hp ho
    rcases hw with rfl | rfl
    · exact hwrote
    · exact hwrote.of_spares (Hub.spares_receive hg s.handle.id 1 _)
  | tripped hp => exact ho.of_spares (Hub.spares_cancel hg _ _)
  | swept hp => exact inOrder_swept hp ho

theorem id_change (hc : g.Change cfg now w g' w' sent) : g'.id = g.id := by
  cases hc <;> rfl

/-- The next operation of a guest's task lets its connection in or out, or is harmless to
what the connection is registered with. -/
theorem next_cases {op : Operation} {next : op.Answer → Phase}
    (hnext : g.phase.next? = some ⟨op, next⟩) (ho : g.InOrder h) :
    (∃ k, k.id = g.id ∧ op = .attach k) ∨ op = .detach g.id ∨
      ∃ k, k.id = g.id ∧ op.IsHarmless k ∧
        ∀ j, h.registry.connection? g.id = some j → j = k := by
  rcases Phase.next?_cases hnext with ⟨f, hp, -⟩ | ⟨k, f, hp, -⟩ | ⟨s, f, hp, -⟩ | ⟨s, f, hp, -⟩
  · -- nobody is registered here, so any handle of this identifier will do
    obtain ⟨hout, -, hreads⟩ := ho.asking hp
    have hop := Operation.isHarmless_of_isReading hreads.1 { (default : Handle) with id := g.id }
    refine Or.inr (Or.inr ⟨_, rfl, hop, fun j hj => ?_⟩)
    rw [hout.free] at hj
    cases hj
  · obtain ⟨hid, -, -, ⟨-, limit, hrest⟩ | ⟨hin, hobeys⟩⟩ := ho.joining hp
    · rw [Membership.join_eq] at hrest
      cases hrest
      exact Or.inl ⟨k, hid, rfl⟩
    · refine Or.inr (Or.inr ⟨k, hid, hobeys.1, fun j hj => ?_⟩)
      rw [← hid, hin.registered] at hj
      exact (Option.some.inj hj).symm
  · obtain ⟨hid, hattending, hobeys⟩ := ho.acting hp
    refine Or.inr (Or.inr ⟨s.handle, hid, hobeys.1, fun j hj => ?_⟩)
    rw [← hid, hattending.inside.registered] at hj
    exact (Option.some.inj hj).symm
  · obtain ⟨hid, -, ⟨-, hrest⟩ | ⟨hgone, hrest⟩ | ⟨-, hrest⟩⟩ := ho.leaving hp
    · rw [Membership.leave_eq] at hrest
      cases hrest
      exact Or.inr (Or.inl (by rw [hid]))
    · cases hrest
      refine Or.inr (Or.inr ⟨s.handle, hid, trivial, fun j hj => ?_⟩)
      rw [← hid, hgone.free] at hj
      cases hj
    · cases hrest

/-- The guest's task lets in and out no connection but its own. -/
theorem own_of_next {op : Operation} {next : op.Answer → Phase}
    (hnext : g.phase.next? = some ⟨op, next⟩) (ho : g.InOrder h) :
    (∀ k, op = .attach k → k.id = g.id) ∧ ∀ c, op = .detach c → c = g.id := by
  rcases next_cases hnext ho with ⟨k, hid, rfl⟩ | rfl | ⟨k, -, hharmless, -⟩
  · refine ⟨fun k' heq => ?_, fun c heq => ?_⟩
    · cases heq
      exact hid
    · cases heq
  · refine ⟨fun k' heq => ?_, fun c heq => ?_⟩
    · cases heq
    · cases heq
      rfl
  · refine ⟨fun k' heq => ?_, fun c heq => ?_⟩
    · subst heq
      exact hharmless.elim
    · subst heq
      exact hharmless.elim

/-- An act of a guest spares every other connection. -/
theorem spares_change (hi : w.hub.InStep) (hc : g.Change cfg now w g' w' sent)
    (ho : g.InOrder w.hub) {c : ConnectionId} (hne : c ≠ g.id) : Hub.Spares c w.hub w'.hub := by
  have hg := hi.mirrored
  cases hc with
  | took hnext =>
    obtain ⟨hin, hout⟩ := own_of_next hnext ho
    refine World.spares_perform hg (fun k heq => ?_) fun heq => hne (hout c heq)
    rw [hin k heq]
    exact Ne.symm hne
  | opened => exact Hub.spares_addOutbox hne
  | left => exact Hub.spares_cancel hg _ _
  | tripped => exact Hub.spares_cancel hg _ _
  | @wrote s _ _ _ _ hw =>
    rcases hw with rfl | rfl
    · exact Hub.Spares.refl c _
    · exact Hub.spares_receive hg s.handle.id 1 c
  | swept hp =>
    -- the outbox that goes is the guest's own
    refine Hub.spares_removeOutbox ?_
    rw [(ho.ended hp).2.1]
    exact hne
  | still | answered | unopened | joined | refused | heard | arrived | acted | drained
  | finished => exact Hub.Spares.refl c _

/-- Registry and tracker agree after any act of a guest. -/
theorem inStep_change (hi : w.hub.InStep) (hc : g.Change cfg now w g' w' sent) : w'.hub.InStep := by
  cases hc with
  | took => exact World.inStep_perform _ hi
  | opened => exact hi.congr rfl rfl
  | swept => exact hi.congr rfl rfl
  | @left s => exact Hub.inStep_act (.cancel s.handle.id) hi
  | @tripped s => exact Hub.inStep_act (.cancel s.handle.id) hi
  | @wrote s _ _ _ _ hw =>
    rcases hw with rfl | rfl
    · exact hi
    · exact Hub.inStep_act (.receive s.handle.id 1) hi
  | still | answered | unopened | joined | refused | heard | arrived | acted | drained
  | finished => exact hi

theorem numbered_change (hs : w.store.Numbered) (hc : g.Change cfg now w g' w' sent) :
    w'.store.Numbered := by
  cases hc with
  | took => exact World.numbered_perform hs
  | wrote _ _ _ hw =>
    rcases hw with rfl | rfl
    · exact hs
    · exact hs
  | still | answered | unopened | opened | joined | refused | heard | arrived | acted | drained
  | left | finished | tripped | swept => exact hs

end Changing

end Guest

/-! ## Every run -/

namespace Venue

variable {cfg : HubSettings} {v v' : Venue}

/-- Registry and tracker agree, the messages of the store are in order, and so is every
guest; no two guests share an identifier, and who is registered is a guest. -/
structure Orderly (v : Venue) : Prop where
  inStep : v.world.hub.InStep
  numbered : v.world.store.Numbered
  distinct : (v.guests.map (·.id)).Nodup
  inOrder : ∀ g ∈ v.guests, g.InOrder v.world.hub
  known : ∀ c, v.world.hub.registry.connection? c ≠ none → ∃ g ∈ v.guests, g.id = c

theorem orderly_opening (seed : List Seed.Room) (clock : Instant) (outage : Outage) :
    Orderly (opening seed clock outage) where
  inStep := Hub.inStep_idle ∅
  numbered := Store.numbered_ofSeed seed
  distinct := List.nodup_nil
  inOrder g hg := by cases hg
  known c hc := by
    refine absurd ?_ hc
    simp [opening, Hub.empty, Registry.connection?, Registry.member?, Registry.empty]

/-- An operation that is harmless to everybody leaves a venue in order. -/
theorem Orderly.perform (ho : Orderly v) {op : Operation} (hop : ∀ k, op.IsHarmless k) :
    Orderly (v.perform op) := by
  have hspares : ∀ c, v.world.hub.Spares c (v.world.perform op).2.hub :=
    World.spares_of_isHarmless ho.inStep.mirrored (hop default)
  refine ⟨World.inStep_perform op ho.inStep, World.numbered_perform ho.numbered, ho.distinct,
    fun g hg => (ho.inOrder g hg).of_spares (hspares g.id), fun c hc => ho.known c ?_⟩
  rw [← (hspares c).handle]
  exact hc

/-- A guest's identifier tells where the guest stands. -/
theorem Orderly.index_eq {i j : Nat} {g u : Guest} (ho : Orderly v) (hi : v.guests[i]? = some g)
    (hj : v.guests[j]? = some u) (hid : u.id = g.id) : i = j := by
  have hids : (v.guests.map (·.id))[i]? = (v.guests.map (·.id))[j]? := by
    rw [List.getElem?_map, List.getElem?_map, hi, hj, Option.map_some, Option.map_some, hid]
  have hlt : i < (v.guests.map (·.id)).length := by
    rw [List.length_map]
    exact (List.getElem?_eq_some_iff.mp hi).1
  exact (List.getElem?_inj hlt ho.distinct).mp hids

/-- A guest is known by its identifier. -/
theorem Orderly.eq_of_id {g u : Guest} (ho : Orderly v) (hg : g ∈ v.guests) (hu : u ∈ v.guests)
    (hid : u.id = g.id) : u = g := by
  obtain ⟨i, hi⟩ := List.mem_iff_getElem?.mp hg
  obtain ⟨j, hj⟩ := List.mem_iff_getElem?.mp hu
  rw [ho.index_eq hi hj hid, hj] at hi
  exact Option.some.inj hi

/-- A new guest is in order, and disturbs nobody. -/
theorem Orderly.begun (ho : Orderly v) {id : ConnectionId} (site : Http.Site) (upgradable : Bool)
    (request : Http.Request) (hnew : ∀ g ∈ v.guests, g.id ≠ id) :
    Orderly { v with guests := v.guests ++ [.fresh id site upgradable request] } := by
  -- whoever is registered is a guest, so an identifier of nobody's is free
  have hfree : v.world.hub.registry.connection? id = none := by
    refine Classical.byContradiction fun hne => ?_
    obtain ⟨g, hg, hid⟩ := ho.known id hne
    exact hnew g hg hid
  refine ⟨ho.inStep, ho.numbered, ?_, ?_, ?_⟩
  · rw [List.map_append, List.nodup_append]
    refine ⟨ho.distinct, by simp, ?_⟩
    intro c hc d hd heq
    obtain ⟨g, hg, rfl⟩ := List.mem_map.mp hc
    rw [List.map_singleton, List.mem_singleton] at hd
    exact hnew g hg (heq.trans hd)
  · intro g hg
    rcases List.mem_append.mp hg with hg | hg
    · exact ho.inOrder g hg
    · rw [List.mem_singleton.mp hg]
      exact ⟨⟨hfree, rfl⟩, rfl, Http.reads_answer site upgradable request⟩
  · intro c hc
    obtain ⟨g, hg, hid⟩ := ho.known c hc
    exact ⟨g, List.mem_append_left _ hg, hid⟩

/-- An act keeps the identifiers of all guests. -/
theorem map_id_put {i : Nat} {g g' : Guest} {w : World} {sent : List Sending}
    (hget : v.guests[i]? = some g) (hid : g'.id = g.id) :
    (v.put i g' w sent).guests.map (·.id) = v.guests.map (·.id) := by
  have hi : (v.guests.map (·.id))[i]? = some g.id := by
    rw [List.getElem?_map, hget]
    rfl
  obtain ⟨hlt, hgid⟩ := List.getElem?_eq_some_iff.mp hi
  show (v.guests.set i g').map (·.id) = _
  rw [List.map_set, hid, ← hgid, List.set_getElem_self]

/-- An act keeps its guest in order, and spares all others. -/
theorem Orderly.acted (ho : Orderly v) {i : Nat} {g g' : Guest} {w : World}
    {sent : List Sending} (hget : v.guests[i]? = some g)
    (hact : g.Change cfg v.now v.world g' w sent) : Orderly (v.put i g' w sent) := by
  have hg : g ∈ v.guests := List.mem_of_getElem? hget
  have hinOrder := ho.inOrder g hg
  have hids : (v.put i g' w sent).guests.map (·.id) = v.guests.map (·.id) :=
    map_id_put hget (Guest.id_change hact)
  refine ⟨Guest.inStep_change ho.inStep hact, Guest.numbered_change ho.numbered hact, ?_, ?_, ?_⟩
  · rw [hids]
    exact ho.distinct
  · intro u hu
    obtain ⟨j, hj⟩ := List.mem_iff_getElem?.mp hu
    replace hj : (v.guests.set i g')[j]? = some u := hj
    by_cases hij : i = j
    · -- the guest itself
      subst hij
      rw [List.getElem?_set_self (List.getElem?_eq_some_iff.mp hget).1] at hj
      cases hj
      exact Guest.inOrder_change ho.inStep ho.numbered hact hinOrder
    · -- another one, with another identifier
      rw [List.getElem?_set_ne hij] at hj
      have hne : u.id ≠ g.id := fun heq => hij (ho.index_eq hget hj heq)
      have hspares := Guest.spares_change ho.inStep hact hinOrder hne
      exact (ho.inOrder u (List.mem_of_getElem? hj)).of_spares hspares
  · intro c hc
    -- an act lets in its own guest at most, so who is registered now was known before
    have hknown : c ∈ v.guests.map (·.id) := by
      by_cases hcid : c = g.id
      · rw [hcid]
        exact List.mem_map_of_mem hg
      · have hspares := Guest.spares_change ho.inStep hact hinOrder hcid
        have hbefore : v.world.hub.registry.connection? c ≠ none := by
          rw [← hspares.handle]
          exact hc
        obtain ⟨u, hu, rfl⟩ := ho.known c hbefore
        exact List.mem_map_of_mem hu
    rw [← hids] at hknown
    obtain ⟨u, hu, heq⟩ := List.mem_map.mp hknown
    exact ⟨u, hu, heq⟩

/-- No change of a venue brings it out of order. -/
theorem orderly_change (ho : Orderly v) (hc : Change cfg v v') : Orderly v' := by
  cases hc with
  | begun id site upgradable request hnew => exact ho.begun site upgradable request hnew
  | acted hget hact => exact ho.acted hget hact
  | stored r u d => exact ho.perform fun _ => trivial
  | announced m => exact ho.perform fun _ => Event.isAbout_chat m
  | around w now hhub hgrows hmessages hlast =>
    -- the owner of the rooms does not touch the hub
    refine ⟨?_, ho.numbered.congr hmessages hlast, ho.distinct, ?_, ?_⟩
    · show w.hub.InStep
      rw [hhub]
      exact ho.inStep
    · intro g hg
      show g.InOrder w.hub
      rw [hhub]
      exact ho.inOrder g hg
    · intro c hc
      replace hc : w.hub.registry.connection? c ≠ none := hc
      rw [hhub] at hc
      exact ho.known c hc

/-- After any run a venue is in order. -/
theorem orderly_run (ho : Orderly v) (moves : List Move) : Orderly (v.run cfg moves) :=
  run_induction ho (fun _ _ => orderly_change) moves

end Venue

end RoomHub
