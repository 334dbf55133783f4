import RoomHub.Proofs.Hub.Filling
import RoomHub.Proofs.Hub.Sparing
import RoomHub.Proofs.Scene.Announcements

/-!
# A queue that holds less

Two hubs in which a connection is registered alike, and in the second of them its queue is not
longer. Whatever fits into the first queue fits into the second, so as long as the first hub
does not evict the connection, the second one does not either. `Lighter c h h'` says so of the
hubs `h` and `h'`.

> `Lighter.act`: a step that both hubs take keeps this;
> `Lighter.act_left`: so does a step of the first hub alone, if it neither lets the connection in
> or out nor comes from the owner of a queue or of a close signal.

What is in the queues does not matter: a roster of the first hub may differ from that of the
second one.
-/

namespace RoomHub

/-! ## Two outboxes -/

namespace Outbox

variable {o o' : Outbox} {es fs : List Event}

/-- An outbox that is not shut by its close signal, beside one with a queue that is not shorter. -/
structure Lighter (o o' : Outbox) : Prop where
  untripped : o'.cancelled = false
  capacity : o'.capacity = o.capacity
  receiver : o'.receiver = o.receiver
  queue : o'.queue.length ≤ o.queue.length

/-- An outbox that nobody tripped is no heavier than itself. -/
theorem Lighter.refl (hun : o.cancelled = false) : o.Lighter o := ⟨hun, rfl, rfl, Nat.le_refl _⟩

/-- Two functions that keep one outbox lighter than another, as long as the first function does
not shut its outbox. -/
structure Keeps (f f' : Outbox → Outbox) : Prop where
  untripped : ∀ o, (f o).cancelled = false → o.cancelled = false
  lighter : ∀ o o', (f o).cancelled = false → o.Lighter o' → (f o).Lighter (f' o')

theorem Keeps.id : Keeps id id := ⟨fun _ hun => hun, fun _ _ _ hl => hl⟩

/-- What keeps one outbox lighter than another may be done one after the other. -/
theorem Keeps.comp {f f' g g' : Outbox → Outbox} (hg : Keeps g g') (hf : Keeps f f') :
    Keeps (g ∘ f) (g' ∘ f') where
  untripped o hun := hf.untripped o (hg.untripped _ hun)
  lighter o o' hun hl := hg.lighter _ _ hun (hf.lighter o o' (hg.untripped _ hun) hl)

/-- An offer does not reset the close signal. -/
theorem untripped_of_offer (e : Event) (o : Outbox) (hun : (o.offer e).2.cancelled = false) :
    o.cancelled = false := by
  rw [Bool.eq_false_iff] at hun ⊢
  exact fun ho => hun ((Hub.offer_cases e o).1 ho)

/-- An event that is offered to the first outbox only. -/
theorem keeps_offer_left (e : Event) : Keeps (fun o => (o.offer e).2) id where
  untripped := untripped_of_offer e
  lighter o o' hun hl := by
    rcases offer_cases e o with ⟨-, heq⟩ | ⟨-, -, heq⟩ | ⟨-, -, heq⟩
    · rw [heq]
      exact hl
    · rw [heq] at hun
      cases hun
    · rw [heq]
      refine ⟨hl.untripped, hl.capacity, hl.receiver, ?_⟩
      show o'.queue.length ≤ (o.queue ++ [e]).length
      rw [List.length_append]
      exact Nat.le_add_right_of_le hl.queue

/-- One event for each of the two outboxes. -/
theorem keeps_offer (e f : Event) : Keeps (fun o => (o.offer e).2) (fun o => (o.offer f).2) where
  untripped := untripped_of_offer e
  lighter o o' hun hl := by
    have hopen : o'.isOpen = o.isOpen := by
      unfold isOpen
      rw [hl.untripped, untripped_of_offer e o hun, hl.receiver]
    rcases offer_cases e o with ⟨hshut, heq⟩ | ⟨-, -, heq⟩ | ⟨hisOpen, hroom, heq⟩
    · rw [heq, offer_of_not_isOpen (hopen.trans hshut)]
      exact hl
    · rw [heq] at hun
      cases hun
    · rw [heq, offer_of_room (hopen.trans hisOpen)
        (hl.capacity ▸ Nat.lt_of_le_of_lt hl.queue hroom)]
      refine ⟨hl.untripped, hl.capacity, hl.receiver, ?_⟩
      show (o'.queue ++ [f]).length ≤ (o.queue ++ [e]).length
      rw [List.length_append, List.length_append]
      exact Nat.add_le_add_right hl.queue _

/-- Some events for the first outbox, and not more for the second one. -/
theorem keeps_offerAll (hfewer : fs.length ≤ es.length) :
    Keeps (fun o => (o.offerAll es).2) (fun o => (o.offerAll fs).2) := by
  induction es generalizing fs with
  | nil =>
    rw [List.eq_nil_of_length_eq_zero (Nat.le_zero.mp hfewer)]
    exact .id
  | cons e es ih =>
    cases fs with
    | nil => exact (ih (Nat.zero_le _)).comp (keeps_offer_left e)
    | cons f fs => exact (ih (Nat.le_of_succ_le_succ hfewer)).comp (keeps_offer e f)

/-- Taking from both queues keeps the lighter one lighter. -/
theorem keeps_take (n : Nat) : Keeps (fun o => (o.take n).2) (fun o => (o.take n).2) where
  untripped _ hun := hun
  lighter o o' _ hl := by
    refine ⟨hl.untripped, hl.capacity, hl.receiver, ?_⟩
    show (o'.queue.drop n).length ≤ (o.queue.drop n).length
    rw [List.length_drop, List.length_drop]
    exact Nat.sub_le_sub_right hl.queue n

/-- Closing both keeps the lighter one lighter. -/
theorem keeps_closeReceiver : Keeps closeReceiver closeReceiver where
  untripped o hun := by
    unfold closeReceiver at hun
    split at hun <;> exact hun
  lighter o o' _ hl := by
    unfold closeReceiver
    rw [hl.receiver]
    split
    next => exact ⟨hl.untripped, hl.capacity, rfl, hl.queue⟩
    next => exact hl

/-- Dropping both keeps the lighter one lighter. -/
theorem keeps_dropReceiver : Keeps dropReceiver dropReceiver where
  untripped _ hun := hun
  lighter _ _ _ hl := ⟨hl.untripped, hl.capacity, rfl, Nat.le_refl _⟩

/-- Once the first signal is tripped nothing is left to compare. -/
theorem keeps_cancel : Keeps cancel cancel where
  untripped _ hun := nomatch hun
  lighter _ _ hun _ := nomatch hun

end Outbox

/-! ## Two hubs -/

namespace Hub

variable {c d : ConnectionId} {h h' g g' : Hub} {a : Step}

/-- A connection is registered alike in two hubs, and unless its close signal is tripped in the
first one, its outbox in the second one is lighter. -/
structure Lighter (c : ConnectionId) (h h' : Hub) : Prop where
  mirrored : h.registry.Mirrored
  mirrored' : h'.registry.Mirrored
  handle : h'.registry.connection? c = h.registry.connection? c
  outbox : ∀ o, h.outboxes[c]? = some o → o.cancelled = false →
    ∃ o', h'.outboxes[c]? = some o' ∧ o.Lighter o'

namespace Lighter

/-- A hub is no heavier than itself. -/
theorem refl (hg : h.registry.Mirrored) : Lighter c h h :=
  ⟨hg, hg, rfl, fun o ho hun => ⟨o, ho, .refl hun⟩⟩

/-- If the signal is not tripped in the heavier hub, it is not in the lighter one. -/
theorem isCancelled_eq_false (hl : Lighter c h h') (hun : h.isCancelled c = false) :
    h'.isCancelled c = false := by
  unfold isCancelled at hun ⊢
  split at hun
  next o ho =>
    obtain ⟨o', ho', hlighter⟩ := hl.outbox o ho hun
    rw [ho']
    exact hlighter.untripped
  next => cases hun

/-- What changes one outbox in both hubs, and keeps it the lighter one, keeps the hub lighter. -/
theorem of_keeps (hl : Lighter c h h') (hg : g.registry.Mirrored) (hg' : g'.registry.Mirrored)
    (hhandle : g'.registry.connection? c = g.registry.connection? c) {f f' : Outbox → Outbox}
    (hkeeps : Outbox.Keeps f f') (hf : g.outboxes[c]? = (h.outboxes[c]?).map f)
    (hf' : g'.outboxes[c]? = (h'.outboxes[c]?).map f') : Lighter c g g' := by
  refine ⟨hg, hg', hhandle, fun o ho hun => ?_⟩
  rw [hf] at ho
  obtain ⟨before, hbefore, rfl⟩ := Option.map_eq_some_iff.mp ho
  obtain ⟨o', ho', hlighter⟩ := hl.outbox before hbefore (hkeeps.untripped before hun)
  exact ⟨f' o', by rw [hf', ho']; rfl, hkeeps.lighter before o' hun hlighter⟩

end Lighter

/-! ### What a step does to the outbox of a connection -/

/-- Whether a connection is in a room depends on what is registered of it. -/
theorem isIn_congr (hhandle : h'.registry.connection? c = h.registry.connection? c) (r : RoomId) :
    h'.IsIn c r ↔ h.IsIn c r := by
  have hisIn : ∀ g : Hub, g.IsIn c r ↔ (g.registry.connection? c).any (·.room = r) = true := by
    intro g
    unfold IsIn Registry.connection?
    cases g.registry.member? c <;> simp
  rw [hisIn, hisIn, hhandle]

/-- A push is meant for one connection, which gets it when it is registered. -/
theorem length_meantFor_pushTo (h : Hub) (c d : ConnectionId) (e : Event) :
    (meantFor c (dispatches (.pushTo d e) h)).length =
      if c = d ∧ (h.registry.connection? c).isSome = true then 1 else 0 := by
  have hsingle : meantFor c [(e, [d])] = if c = d then [e] else [] := meantFor_singleton [e] d
  rw [dispatches_pushTo]
  by_cases hcd : c = d
  · subst hcd
    by_cases hin : (h.registry.connection? c).isSome = true
    · rw [if_pos hin, hsingle, if_pos rfl, if_pos ⟨rfl, hin⟩, List.length_singleton]
    · rw [if_neg hin, if_neg fun hand => hin hand.2]
      rfl
  · have hnot : ¬(c = d ∧ (h.registry.connection? c).isSome = true) := fun hand => hcd hand.1
    rw [if_neg hnot]
    by_cases hin : (h.registry.connection? d).isSome = true
    · rw [if_pos hin, hsingle, if_neg hcd, List.length_nil]
    · rw [if_neg hin]
      rfl

/-- Pushing who is in the call is pushing some event. -/
theorem exists_dispatches_pushTo (h : Hub) (d : ConnectionId) :
    ∃ e, dispatches (.pushCallParticipants d) h = dispatches (.pushTo d e) h := by
  simp only [dispatches]
  cases h.registry.connection? d with
  | none => exact ⟨.history [], rfl⟩
  | some handle => exact ⟨_, rfl⟩

/-- Where a connection is registered alike, as many events are meant for it. -/
theorem length_meantFor_congr (hg : h.registry.Mirrored) (hg' : h'.registry.Mirrored)
    (hhandle : h'.registry.connection? c = h.registry.connection? c) (a : Step) :
    (meantFor c (dispatches a h')).length = (meantFor c (dispatches a h)).length := by
  cases a with
  | broadcast r e =>
    show (meantFor c ([e].map (·, h'.roomIds r))).length =
      (meantFor c ([e].map (·, h.roomIds r))).length
    rw [meantFor_room hg', meantFor_room hg]
    simp only [isIn_congr hhandle]
  | broadcastPresence r s =>
    rw [dispatches_broadcastPresence, dispatches_broadcastPresence, meantFor_room hg',
      meantFor_room hg]
    simp only [isIn_congr hhandle]
    cases s <;> split <;> rfl
  | pushTo d e => rw [length_meantFor_pushTo, length_meantFor_pushTo, hhandle]
  | pushCallParticipants d =>
    obtain ⟨e, he⟩ := exists_dispatches_pushTo h d
    obtain ⟨e', he'⟩ := exists_dispatches_pushTo h' d
    rw [he, he', length_meantFor_pushTo, length_meantFor_pushTo, hhandle]
  | attach | detach | setInCall | deliver | receive | closeReceiver | dropReceiver | cancel => rfl

/-- A step lets a connection in or out of two hubs alike. -/
theorem connection?_act_congr (hg : h.registry.Mirrored) (hg' : h'.registry.Mirrored)
    (hhandle : h'.registry.connection? c = h.registry.connection? c) (a : Step) :
    (act a h').registry.connection? c = (act a h).registry.connection? c := by
  by_cases hin : ∃ k, a = .attach k ∧ k.id = c
  · obtain ⟨k, rfl, rfl⟩ := hin
    show (h'.attach k).2.registry.connection? k.id = (h.attach k).2.registry.connection? k.id
    cases hfree : h.registry.connection? k.id with
    | none => rw [(attach_of_free hg hfree).2, (attach_of_free hg' (hhandle.trans hfree)).2]
    | some k' =>
      have hsame : ∀ g : Hub, g.registry.Mirrored → g.registry.connection? k.id = some k' →
          (g.attach k).2 = g := by
        intro g hgm hk
        rcases attach_cases hgm k with ⟨-, heq⟩ | ⟨hnone, -⟩
        · rw [heq]
        · rw [Registry.connection?, hnone] at hk
          cases hk
      rw [hsame h hg hfree, hsame h' hg' (hhandle.trans hfree), hhandle]
  · by_cases hout : a = .detach c
    · subst hout
      have hgone : ∀ g : Hub, g.registry.Mirrored →
          (g.detach c).2.registry.connection? c = none := by
        intro g hgm
        rcases detach_cases hgm c with ⟨hnone, heq⟩ | ⟨m, hm, -⟩
        · rw [heq, Registry.connection?, hnone]
          rfl
        · obtain ⟨-, -, -, hgone⟩ := detach_of_registered hgm
            (Option.map_eq_some_iff.mpr ⟨m, hm, rfl⟩)
          exact hgone
      exact (hgone h' hg').trans (hgone h hg).symm
    · have hstays : ∀ k, a = .attach k → k.id ≠ c := fun k hk hid => hin ⟨k, hk, hid⟩
      rw [(spares_act hg hstays hout).handle, (spares_act hg' hstays hout).handle, hhandle]

namespace Lighter

/-- What is done to one outbox in both hubs. -/
theorem updateOutbox (hl : Lighter c h h') (d : ConnectionId) {f : Outbox → Outbox}
    (hf : Outbox.Keeps f f) : Lighter c (h.updateOutbox d f) (h'.updateOutbox d f) := by
  have houtbox : ∀ g : Hub, (g.updateOutbox d f).outboxes[c]? =
      (g.outboxes[c]?).map (if d = c then f else id) := by
    intro g
    rw [outboxes_updateOutbox]
    by_cases hdc : d = c
    · rw [if_pos hdc, if_pos hdc, hdc]
    · rw [if_neg hdc, if_neg hdc, Option.map_id, id]
  have hkeeps : Outbox.Keeps (if d = c then f else id) (if d = c then f else id) := by
    split
    next => exact hf
    next => exact .id
  have hregistry := updateOutbox_registry d f
  exact hl.of_keeps (hregistry h ▸ hl.mirrored) (hregistry h' ▸ hl.mirrored')
    (by rw [hregistry, hregistry, hl.handle]) hkeeps (houtbox h) (houtbox h')

/-- A step of both hubs that sends something. -/
theorem act_of_isSending (hl : Lighter c h h') (ha : a.isSending = true) :
    Lighter c (Hub.act a h) (Hub.act a h') := by
  have hfewer := Nat.le_of_eq (length_meantFor_congr hl.mirrored hl.mirrored' hl.handle a)
  exact hl.of_keeps (mirrored_act hl.mirrored) (mirrored_act hl.mirrored')
    (connection?_act_congr hl.mirrored hl.mirrored' hl.handle a) (Outbox.keeps_offerAll hfewer)
    (by rw [Hub.act_of_isSending ha, outboxes_dispatch])
    (by rw [Hub.act_of_isSending ha, outboxes_dispatch])

/-- A step of both hubs. -/
theorem act (hl : Lighter c h h') (a : Step) : Lighter c (Hub.act a h) (Hub.act a h') := by
  cases a with
  | attach | detach | setInCall =>
    refine hl.of_keeps (mirrored_act hl.mirrored) (mirrored_act hl.mirrored')
      (connection?_act_congr hl.mirrored hl.mirrored' hl.handle _) .id ?_ ?_ <;>
      rw [outboxes_act_of_isMembership rfl, Option.map_id, id]
  | broadcast | broadcastPresence | pushTo | pushCallParticipants | deliver =>
    exact hl.act_of_isSending rfl
  | receive d n =>
    show Lighter c (h.take d n).2 (h'.take d n).2
    rw [take_snd, take_snd]
    exact hl.updateOutbox d (Outbox.keeps_take n)
  | closeReceiver d => exact hl.updateOutbox d Outbox.keeps_closeReceiver
  | dropReceiver d => exact hl.updateOutbox d Outbox.keeps_dropReceiver
  | cancel d => exact hl.updateOutbox d Outbox.keeps_cancel

end Lighter

/-- Whether a step sends something or sets a call flag. -/
def Step.isBurden : Step → Bool
  | .setInCall .. => true
  | a => a.isSending

/-- A step of the first hub only, which sends something or sets a call flag. -/
theorem Lighter.act_left (hl : Lighter c h h') (ha : a.isBurden = true) :
    Lighter c (Hub.act a h) h' := by
  have hg := mirrored_act (a := a) hl.mirrored
  have hhandle : h'.registry.connection? c = (Hub.act a h).registry.connection? c := by
    have hspares : Spares c h (Hub.act a h) := spares_act hl.mirrored
      (fun k hk => by rw [hk] at ha; cases ha) (fun hout => by rw [hout] at ha; cases ha)
    rw [hspares.handle, hl.handle]
  have hsame : h'.outboxes[c]? = (h'.outboxes[c]?).map id := Option.map_id'.symm
  cases hs : a.isSending with
  | true =>
    have hnothing : ([] : List Event).length ≤ (meantFor c (dispatches a h)).length := Nat.zero_le _
    exact hl.of_keeps hg hl.mirrored' hhandle (Outbox.keeps_offerAll hnothing)
      (by rw [Hub.act_of_isSending hs, outboxes_dispatch]) hsame
  | false =>
    have hm : a.isMembership = true := by
      cases a with
      | setInCall => rfl
      | broadcast | broadcastPresence | pushTo | pushCallParticipants | deliver => cases hs
      | attach | detach | receive | closeReceiver | dropReceiver | cancel => cases ha
    refine hl.of_keeps hg hl.mirrored' hhandle .id ?_ hsame
    rw [outboxes_act_of_isMembership hm, Option.map_id, id]

end Hub

end RoomHub
