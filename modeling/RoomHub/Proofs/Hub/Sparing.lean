import RoomHub.Proofs.Hub.CallCount

/-!
# What a step leaves of a connection

`Spares c h h'` is what one connection can rely on while others are at work: it is
registered in the hub `h'` as it was in `h`, or is not in either; if it had an outbox it
still has it; and if its close signal was tripped it still is.

> `spares_act`: a step spares every connection that it does not let in or out.

Letting in and out is then all that is left to be known (`attach_of_free`,
`detach_of_registered`).

Both facts about the outbox come from `outboxes_act`, which says what any step can do to
one: shut it, take events away, or queue what the step sent. So whatever is found in a
queue was there before, or is on record as sent (`mem_queue_act`).
-/

namespace RoomHub.Hub

open Std (ExtTreeMap)

variable {h h' : Hub} {c : ConnectionId} {a : Step} {k : Handle}

/-- Whether a connection has an outbox. -/
def HasOutbox (h : Hub) (c : ConnectionId) : Prop := ∃ o, h.outboxes[c]? = some o

/-- A connection is registered in both hubs alike or in neither; its outbox stays, and so
does its close signal when it is tripped. -/
structure Spares (c : ConnectionId) (h h' : Hub) : Prop where
  handle : h'.registry.connection? c = h.registry.connection? c
  outbox : h.HasOutbox c → h'.HasOutbox c
  cancelled : h.isCancelled c = true → h'.isCancelled c = true

theorem Spares.refl (c : ConnectionId) (h : Hub) : Spares c h h where
  handle := rfl
  outbox ho := ho
  cancelled ho := ho

/-! ## What a step does to an outbox -/

/-- An outbox before and after something was sent: the close signal is not reset, and what
is new in the queue was queued by the sending. -/
structure Advances (c : ConnectionId) (sent : List Sending) (o o' : Outbox) : Prop where
  cancelled : o.cancelled = true → o'.cancelled = true
  queue : ∀ e ∈ o'.queue, e ∈ o.queue ∨ e ∈ Sending.stream c sent

theorem Advances.refl (c : ConnectionId) (sent : List Sending) (o : Outbox) :
    Advances c sent o o where
  cancelled ho := ho
  queue _ he := Or.inl he

/-- An offer does not reset the close signal, and queues the event or nothing. -/
theorem offer_cases (e : Event) (o : Outbox) :
    (o.cancelled = true → (o.offer e).2.cancelled = true) ∧
      ∀ f ∈ (o.offer e).2.queue, f ∈ o.queue ∨ (f = e ∧ (o.offer e).1 = .queued) := by
  unfold Outbox.offer
  split
  next => exact ⟨id, fun f hf => Or.inl hf⟩
  next =>
    split
    next => exact ⟨fun _ => rfl, fun f hf => Or.inl hf⟩
    next =>
      refine ⟨id, fun f hf => ?_⟩
      rcases List.mem_append.mp hf with hold | hnew
      · exact Or.inl hold
      · exact Or.inr ⟨List.mem_singleton.mp hnew, rfl⟩

/-- So it is with a series of offers. -/
theorem offerAll_cases (es : List Event) (o : Outbox) :
    (o.cancelled = true → (o.offerAll es).2.cancelled = true) ∧
      ∀ f ∈ (o.offerAll es).2.queue, f ∈ o.queue ∨ (f, .queued) ∈ (o.offerAll es).1 := by
  induction es generalizing o with
  | nil => exact ⟨id, fun f hf => Or.inl hf⟩
  | cons e es ih =>
    obtain ⟨hcancelled, hqueue⟩ := offer_cases e o
    obtain ⟨hlater, hrest⟩ := ih (o.offer e).2
    refine ⟨fun ho => hlater (hcancelled ho), fun f hf => ?_⟩
    rcases hrest f hf with hthere | hqueued
    · rcases hqueue f hthere with hold | ⟨rfl, hanswer⟩
      · exact Or.inl hold
      · right
        show (f, Delivery.queued) ∈ (f, (o.offer f).1) :: _
        rw [hanswer]
        exact List.mem_cons_self
    · exact Or.inr (List.mem_cons_of_mem _ hqueued)

/-- Whatever is done to one outbox, if it lets that one advance it lets all. -/
theorem outboxes_updateOutbox_advances {sent : List Sending} {d : ConnectionId}
    {f : Outbox → Outbox} (hf : ∀ o, Advances c sent o (f o)) :
    ∃ f' : Outbox → Outbox, (h.updateOutbox d f).outboxes[c]? = (h.outboxes[c]?).map f' ∧
      ∀ o, h.outboxes[c]? = some o → Advances c sent o (f' o) := by
  rw [outboxes_updateOutbox]
  by_cases hdc : d = c
  · subst hdc
    exact ⟨f, by rw [if_pos rfl], fun o _ => hf o⟩
  · exact ⟨id, by rw [if_neg hdc, Option.map_id, id], fun o _ => Advances.refl c _ o⟩

/-- A step changes an outbox in some way, and lets it advance. -/
theorem outboxes_act (a : Step) (h : Hub) (c : ConnectionId) :
    ∃ f : Outbox → Outbox, (act a h).outboxes[c]? = (h.outboxes[c]?).map f ∧
      ∀ o, h.outboxes[c]? = some o → Advances c (sends a h) o (f o) := by
  cases hs : a.isSending with
  | true =>
    rw [act_of_isSending hs, outboxes_dispatch]
    refine ⟨_, rfl, fun o ho => ?_⟩
    obtain ⟨hcancelled, hqueue⟩ := offerAll_cases (meantFor c (dispatches a h)) o
    refine ⟨hcancelled, fun e he => (hqueue e he).imp_right fun hqueued => ?_⟩
    -- the answers are those that the log of the step keeps
    unfold sends Sending.stream
    rw [attempts_dispatch]
    unfold answers
    rw [ho]
    exact List.mem_map.mpr ⟨(e, .queued), List.mem_filter.mpr ⟨hqueued, rfl⟩, rfl⟩
  | false =>
    cases hm : a.isMembership with
    | true =>
      rw [outboxes_act_of_isMembership hm]
      exact ⟨id, by rw [Option.map_id, id], fun o _ => Advances.refl c _ o⟩
    | false =>
      cases a with
      | receive d n =>
        show ∃ f, (h.take d n).2.outboxes[c]? = _ ∧ _
        rw [take_snd]
        exact outboxes_updateOutbox_advances fun o =>
          ⟨id, fun e he => Or.inl (List.drop_subset n _ he)⟩
      | closeReceiver d =>
        refine outboxes_updateOutbox_advances fun o => ?_
        unfold Outbox.closeReceiver
        split
        next => exact ⟨id, fun e he => Or.inl he⟩
        next => exact Advances.refl c _ o
      | dropReceiver d =>
        exact outboxes_updateOutbox_advances fun o => ⟨id, fun e he => by cases he⟩
      | cancel d =>
        exact outboxes_updateOutbox_advances fun o => ⟨fun _ => rfl, fun e he => Or.inl he⟩
      | attach | detach | setInCall => cases hm
      | broadcast | broadcastPresence | pushTo | pushCallParticipants | deliver => cases hs

/-- What is in a queue after a step was there before, or was queued by the step. -/
theorem mem_queue_act {o' : Outbox} {e : Event} (ho' : (act a h).outboxes[c]? = some o')
    (he : e ∈ o'.queue) :
    (∃ o, h.outboxes[c]? = some o ∧ e ∈ o.queue) ∨ e ∈ Sending.stream c (sends a h) := by
  obtain ⟨f, hf, hadvances⟩ := outboxes_act a h c
  rw [hf] at ho'
  obtain ⟨o, ho, rfl⟩ := Option.map_eq_some_iff.mp ho'
  exact ((hadvances o ho).queue e he).imp_left fun hold => ⟨o, ho, hold⟩

/-- A step that sends nothing brings nothing into a queue. -/
theorem mem_queue_of_not_isSending {o' : Outbox} {e : Event} (ha : a.isSending = false)
    (ho' : (act a h).outboxes[c]? = some o') (he : e ∈ o'.queue) :
    ∃ o, h.outboxes[c]? = some o ∧ e ∈ o.queue := by
  rcases mem_queue_act ho' he with hold | hnew
  · exact hold
  · unfold sends at hnew
    rw [dispatches_of_not_isSending ha] at hnew
    cases hnew

/-! ## What a step spares -/

/-- A tripped close signal is that of every outbox that the connection has. -/
theorem isCancelled_iff :
    h.isCancelled c = true ↔ ∀ o, h.outboxes[c]? = some o → o.cancelled = true := by
  unfold isCancelled
  cases h.outboxes[c]? with
  | none => simp
  | some o => simp

/-- Whether a signal is tripped is seen from the outbox alone. -/
theorem isCancelled_congr (hsame : h'.outboxes[c]? = h.outboxes[c]?) :
    h'.isCancelled c = h.isCancelled c := by
  unfold isCancelled
  rw [hsame]

/-- No step takes an outbox away. -/
theorem hasOutbox_act (a : Step) (ho : h.HasOutbox c) : (act a h).HasOutbox c := by
  obtain ⟨f, hf, -⟩ := outboxes_act a h c
  obtain ⟨o, ho⟩ := ho
  exact ⟨f o, by rw [hf, ho]; rfl⟩

/-- A step spares every connection that it does not let in or out. -/
theorem spares_act (hg : h.registry.Mirrored) (hin : ∀ k, a = .attach k → k.id ≠ c)
    (hout : a ≠ .detach c) : Spares c h (act a h) := by
  obtain ⟨f, hf, hadvances⟩ := outboxes_act a h c
  refine ⟨?_, ?_, ?_⟩
  · unfold Registry.connection?
    cases hm : h.registry.member? c with
    | some m =>
      obtain ⟨m', hm', hsame⟩ := exists_member?_act hg hm hout
      rw [hm', Option.map_some, Option.map_some, hsame]
    | none =>
      cases hm' : (act a h).registry.member? c with
      | none => rfl
      | some m' =>
        rcases member?_act hg hm' with ⟨m, hm₀, -⟩ | rfl
        · rw [hm] at hm₀
          cases hm₀
        · exact absurd ((mirrored_act hg).id_eq hm') (hin m'.handle rfl)
  · exact hasOutbox_act a
  · rw [isCancelled_iff, isCancelled_iff, hf]
    intro ho o' ho'
    obtain ⟨o, hget, rfl⟩ := Option.map_eq_some_iff.mp ho'
    exact (hadvances o hget).cancelled (ho o hget)

/-- Tripping a close signal spares every connection. -/
theorem spares_cancel (hg : h.registry.Mirrored) (c d : ConnectionId) : Spares c h (h.cancel d) :=
  spares_act (a := .cancel d) hg (fun _ heq => by cases heq) fun heq => by cases heq

/-- Taking from a queue spares every connection. -/
theorem spares_receive (hg : h.registry.Mirrored) (d : ConnectionId) (n : Nat) (c : ConnectionId) :
    Spares c h (h.take d n).2 :=
  spares_act (a := .receive d n) hg (fun _ heq => by cases heq) fun heq => by cases heq

/-- A signal that was tripped is tripped. -/
theorem isCancelled_cancel (h : Hub) (c : ConnectionId) : (h.cancel c).isCancelled c = true := by
  rw [isCancelled_iff]
  intro o' ho'
  unfold cancel at ho'
  rw [outboxes_updateOutbox, if_pos rfl] at ho'
  obtain ⟨o, -, rfl⟩ := Option.map_eq_some_iff.mp ho'
  rfl

/-- What leaves the registry and the connection's own outbox alone spares the connection. -/
theorem spares_of_outbox_eq (hregistry : h'.registry = h.registry)
    (hsame : h'.outboxes[c]? = h.outboxes[c]?) : Spares c h h' where
  handle := by rw [hregistry]
  outbox := by
    unfold HasOutbox
    rw [hsame]
    exact id
  cancelled := by
    rw [isCancelled_congr hsame]
    exact id

/-- An outbox for another connection is nothing to this one. -/
theorem spares_addOutbox {o : Outbox} {d : ConnectionId} (hne : c ≠ d) :
    Spares c h (h.addOutbox d o) := by
  refine spares_of_outbox_eq rfl ?_
  show (h.outboxes.insert d o)[c]? = _
  rw [ExtTreeMap.getElem?_insert, if_neg]
  simpa only [Std.compare_eq_iff_eq] using Ne.symm hne

/-- Nor is taking another one's outbox away. -/
theorem spares_removeOutbox {d : ConnectionId} (hne : c ≠ d) : Spares c h (h.removeOutbox d) := by
  refine spares_of_outbox_eq rfl ?_
  show (h.outboxes.erase d)[c]? = _
  rw [ExtTreeMap.getElem?_erase, if_neg]
  simpa only [Std.compare_eq_iff_eq] using Ne.symm hne

/-- Whoever has no outbox counts as cancelled. -/
theorem isCancelled_removeOutbox (h : Hub) (c : ConnectionId) :
    (h.removeOutbox c).isCancelled c = true := by
  rw [isCancelled_iff]
  intro o ho
  replace ho : (h.outboxes.erase c)[c]? = some o := ho
  rw [ExtTreeMap.getElem?_erase_self] at ho
  cases ho

/-- A connection that is free is let in. -/
theorem attach_of_free (hg : h.registry.Mirrored)
    (hfree : h.registry.connection? k.id = none) :
    (h.attach k).1 = true ∧ (h.attach k).2.registry.connection? k.id = some k := by
  have hnone : h.registry.member? k.id = none := Option.map_eq_none_iff.mp hfree
  rcases attach_cases hg k with ⟨hsome, -⟩ | ⟨-, heq⟩
  · rw [hnone] at hsome
    cases hsome
  · rw [heq]
    refine ⟨rfl, ?_⟩
    show ((h.registry.attached k).member? k.id).map (·.handle) = some k
    rw [Registry.attached_member? hg hnone, if_pos rfl]
    rfl

/-- A connection that is in is let out. -/
theorem detach_of_registered (hg : h.registry.Mirrored)
    (hin : h.registry.connection? c = some k) :
    ∃ m, (h.detach c).1 = some m ∧ m.handle = k ∧
      (h.detach c).2.registry.connection? c = none := by
  obtain ⟨m, hm, rfl⟩ := Option.map_eq_some_iff.mp hin
  rcases detach_cases hg c with ⟨hnone, -⟩ | ⟨m', hm', heq⟩
  · rw [hm] at hnone
    cases hnone
  · rw [hm] at hm'
    cases hm'
    rw [heq]
    refine ⟨m, rfl, rfl, ?_⟩
    show ((h.registry.detached c m.handle.room).member? c).map (·.handle) = none
    rw [Registry.detached_member? hg hm, if_pos rfl]
    rfl

/-- Outboxes have no part in the agreement of registry and tracker. -/
theorem InStep.congr (hi : InStep h) (hregistry : h'.registry = h.registry)
    (hcalls : h'.calls = h.calls) : InStep h' where
  mirrored := by rw [hregistry]; exact hi.mirrored
  kept := by rw [hcalls]; exact hi.kept
  counted := by rw [hregistry, hcalls]; exact hi.counted

end RoomHub.Hub
