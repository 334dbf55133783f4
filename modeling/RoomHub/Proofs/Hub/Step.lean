import RoomHub.Proofs.Hub.Sending

/-!
# Runs of the hub

A `Step` is anything that may happen to a hub: one of its operations, an offer to a single
connection, or something that the receiving end of a queue or the owner of a close signal
does. A run is a list of steps. It starts from an idle hub: nobody is registered, and the
outboxes that connections will use are there already, since making one touches nothing
else.

Each step is told apart by the one part of the hub that it may change:

> `act_of_isSending`: a step that sends does nothing but carry out its `dispatches`;
> `act_presence`: only attaching, detaching and the call flag reach the registry and the
> tracker;
> `outboxes_act_of_isMembership`: those three in turn reach no outbox.
-/

namespace RoomHub.Hub

open Std (ExtTreeMap)

/-- What may happen to a hub. -/
inductive Step where
  | attach (handle : Handle)
  | detach (connection : ConnectionId)
  | setInCall (connection : ConnectionId) (on : Bool)
  | broadcast (room : RoomId) (event : Event)
  | broadcastPresence (room : RoomId) (scope : Scope)
  | pushTo (connection : ConnectionId) (event : Event)
  | pushCallParticipants (connection : ConnectionId)
  | deliver (connection : ConnectionId) (event : Event)
  | receive (connection : ConnectionId) (count : Nat)
  | closeReceiver (connection : ConnectionId)
  | dropReceiver (connection : ConnectionId)
  | cancel (connection : ConnectionId)
  deriving DecidableEq, Repr

/-- Whether a step is none of the hub's operations, but comes from the owner of a queue or
of a close signal. -/
def Step.isOutside : Step → Bool
  | .receive .. | .closeReceiver .. | .dropReceiver .. | .cancel .. => true
  | _ => false

/-- The hub after a step. -/
def act : Step → Hub → Hub
  | .attach handle, h => (h.attach handle).2
  | .detach c, h => (h.detach c).2
  | .setInCall c on, h => (h.setInCall c on).2
  | .broadcast r e, h => (h.broadcast r e).2
  | .broadcastPresence r s, h => (h.broadcastPresence r s).2
  | .pushTo c e, h => (h.pushTo c e).2
  | .pushCallParticipants c, h => (h.pushCallParticipants c).2
  | .deliver c e, h => (h.deliver c e).2
  | .receive c n, h => (h.take c n).2
  | .closeReceiver c, h => h.updateOutbox c Outbox.closeReceiver
  | .dropReceiver c, h => h.updateOutbox c Outbox.dropReceiver
  | .cancel c, h => h.cancel c

/-- A hub nobody is connected to, with the outboxes that connections will use. -/
def idle (outboxes : ExtTreeMap ConnectionId Outbox) : Hub := ⟨.empty, .empty, outboxes⟩

/-- The hub after a run. -/
def run (steps : List Step) (h : Hub) : Hub := steps.foldl (fun h a => act a h) h

/-! ## What a step sends -/

/-- The connections of a room, by identifier. -/
def roomIds (h : Hub) (r : RoomId) : List ConnectionId :=
  (h.registry.connections r).map (·.id)

/-- What a step offers, and to whom. -/
def dispatches : Step → Hub → List Dispatch
  | .broadcast r e, h => [(e, h.roomIds r)]
  | .broadcastPresence r .call, h => [(.callParticipants (h.callParticipants r), h.roomIds r)]
  | .broadcastPresence r .room, h =>
    [(.participants (h.participants r), h.roomIds r),
      (.callParticipants (h.callParticipants r), h.roomIds r)]
  | .pushTo c e, h => if (h.registry.connection? c).isSome then [(e, [c])] else []
  | .pushCallParticipants c, h =>
    match h.registry.connection? c with
    | some handle => [(.callParticipants (h.callParticipants handle.room), [c])]
    | none => []
  | .deliver c e, _ => [(e, [c])]
  | _, _ => []

/-- What a step sends, with the answers. -/
def sends (a : Step) (h : Hub) : List Sending := (dispatch (dispatches a h) h).1

/-- Everything that a run sends. -/
def sendsAll : List Step → Hub → List Sending
  | [], _ => []
  | a :: steps, h => sends a h ++ sendsAll steps (act a h)

theorem run_cons (a : Step) (steps : List Step) (h : Hub) :
    run (a :: steps) h = run steps (act a h) := rfl

theorem sendsAll_cons (a : Step) (steps : List Step) (h : Hub) :
    sendsAll (a :: steps) h = sends a h ++ sendsAll steps (act a h) := rfl

/-- Whether a step is a sending one. -/
def Step.isSending : Step → Bool
  | .broadcast .. | .broadcastPresence .. | .pushTo .. | .pushCallParticipants ..
  | .deliver .. => true
  | _ => false

/-- A push goes to its connection if that is registered, and else nowhere. -/
theorem dispatches_pushTo (c : ConnectionId) (e : Event) (h : Hub) :
    dispatches (.pushTo c e) h
      = if (h.registry.connection? c).isSome then [(e, [c])] else [] := rfl

/-- A broadcast is an offer to each connection of the room. -/
theorem broadcast_snd (r : RoomId) (e : Event) (h : Hub) :
    (h.broadcast r e).2 = (offerEach e (h.roomIds r) h).2 := by
  unfold broadcast roomIds
  rw [fanOut_eq]

/-- A push is an offer to its connection if that is registered, and else nothing. -/
theorem pushTo_snd (c : ConnectionId) (e : Event) (h : Hub) :
    (h.pushTo c e).2 = if (h.registry.connection? c).isSome then (h.deliver c e).2 else h := by
  unfold pushTo
  cases h.registry.connection? c with
  | none => rfl
  | some handle =>
    simp only [Option.isSome_some, if_true]
    split <;> simp_all

/-- A sending step does nothing but carry out its dispatches. -/
theorem act_of_isSending {a : Step} (ha : a.isSending = true) (h : Hub) :
    act a h = (dispatch (dispatches a h) h).2 := by
  cases a with
  | broadcast r e => exact broadcast_snd r e h
  | broadcastPresence r s =>
    cases s with
    | call => exact broadcast_snd r _ h
    | room =>
      simp only [act, broadcastPresence]
      rw [broadcast_snd, broadcast_snd]
      unfold roomIds
      rw [offerEach_registry]
      rfl
  | pushTo c e =>
    show (h.pushTo c e).2 = _
    rw [pushTo_snd, dispatches_pushTo]
    split <;> rfl
  | pushCallParticipants c =>
    cases hc : h.registry.connection? c with
    | none => simp only [act, dispatches, pushCallParticipants, hc, dispatch]
    | some handle =>
      simp only [act, dispatches, pushCallParticipants, hc, pushTo_snd, Option.isSome_some,
        if_true]
      rfl
  | deliver c e => rfl
  | attach | detach | setInCall | receive | closeReceiver | dropReceiver | cancel => cases ha

/-- A step that is not a sending one offers nothing. -/
theorem dispatches_of_not_isSending {a : Step} (ha : a.isSending = false) (h : Hub) :
    dispatches a h = [] := by
  cases a <;> first | rfl | cases ha

/-- What a step sends depends on the registry and the tracker only. -/
theorem dispatches_congr {h h' : Hub} (hreg : h'.registry = h.registry)
    (hcalls : h'.calls = h.calls) (a : Step) : dispatches a h' = dispatches a h := by
  cases a with
  | broadcastPresence r s =>
    cases s <;>
      simp only [dispatches, roomIds, participants, callParticipants, hreg, hcalls]
  | broadcast | pushTo | pushCallParticipants =>
    simp only [dispatches, roomIds, callParticipants, hreg, hcalls]
  | attach | detach | setInCall | deliver | receive | closeReceiver | dropReceiver | cancel => rfl

/-- Steps that do nothing but send are one round of dispatches from the hub at the start. -/
theorem run_of_isSending {steps : List Step} (hsteps : ∀ a ∈ steps, a.isSending = true) (h : Hub) :
    (sendsAll steps h, run steps h) = dispatch (steps.flatMap (dispatches · h)) h := by
  induction steps generalizing h with
  | nil => rfl
  | cons a steps ih =>
    obtain ⟨ha, hrest⟩ := List.forall_mem_cons.mp hsteps
    have hact : act a h = (dispatch (dispatches a h) h).2 := act_of_isSending ha h
    have hsame : ∀ b, dispatches b (act a h) = dispatches b h := fun b =>
      dispatches_congr (by rw [hact, dispatch_registry]) (by rw [hact, dispatch_calls]) b
    have htail := ih hrest (act a h)
    simp only [hsame] at htail
    rw [List.flatMap_cons, dispatch_append, ← hact, ← htail]
    rfl

/-! ## What a step leaves alone -/

/-- Whether a step may change who is registered or who is in a call. -/
def Step.isMembership : Step → Bool
  | .attach .. | .detach .. | .setInCall .. => true
  | _ => false

theorem Step.isMembership_of_isOutside {a : Step} (ha : a.isOutside = true) :
    a.isMembership = false := by
  cases a <;> first | rfl | cases ha

theorem updateOutbox_registry (c : ConnectionId) (f : Outbox → Outbox) (h : Hub) :
    (h.updateOutbox c f).registry = h.registry := by
  unfold updateOutbox
  split <;> rfl

theorem updateOutbox_calls (c : ConnectionId) (f : Outbox → Outbox) (h : Hub) :
    (h.updateOutbox c f).calls = h.calls := by
  unfold updateOutbox
  split <;> rfl

/-- Changing one outbox leaves the others. -/
theorem outboxes_updateOutbox {c d : ConnectionId} {f : Outbox → Outbox} {h : Hub} :
    (h.updateOutbox c f).outboxes[d]?
      = if c = d then (h.outboxes[c]?).map f else h.outboxes[d]? := by
  unfold updateOutbox
  cases hc : h.outboxes[c]? with
  | none =>
    show h.outboxes[d]? = _
    split
    next hcd => rw [← hcd, hc]; rfl
    next => rfl
  | some o =>
    show (h.outboxes.insert c (f o))[d]? = _
    rw [ExtTreeMap.getElem?_insert]
    simp only [Std.compare_eq_iff_eq, Option.map_some]

/-- Receiving is an update of the outbox like any other. -/
theorem take_snd (c : ConnectionId) (n : Nat) (h : Hub) :
    (h.take c n).2 = h.updateOutbox c fun o => (o.take n).2 := by
  unfold take updateOutbox
  cases h.outboxes[c]? <;> rfl

/-- What is taken comes from the connection's own queue. -/
theorem take_fst (c : ConnectionId) (n : Nat) (h : Hub) :
    (h.take c n).1 = ((h.outboxes[c]?).map fun o => (o.take n).1).getD [] := by
  unfold take
  split <;> simp_all

/-- Only attaching, detaching and the call flag reach the registry and the tracker. -/
theorem act_presence {a : Step} (ha : a.isMembership = false) (h : Hub) :
    (act a h).registry = h.registry ∧ (act a h).calls = h.calls := by
  cases hs : a.isSending with
  | true =>
    rw [act_of_isSending hs]
    exact ⟨dispatch_registry _ h, dispatch_calls _ h⟩
  | false =>
    cases a with
    | receive c n =>
      show (h.take c n).2.registry = _ ∧ (h.take c n).2.calls = _
      rw [take_snd]
      exact ⟨updateOutbox_registry c _ h, updateOutbox_calls c _ h⟩
    | closeReceiver c | dropReceiver c | cancel c =>
      exact ⟨updateOutbox_registry c _ h, updateOutbox_calls c _ h⟩
    | attach | detach | setInCall => cases ha
    | broadcast | broadcastPresence | pushTo | pushCallParticipants | deliver => cases hs

/-- Attaching, detaching and the call flag reach no outbox. -/
theorem outboxes_act_of_isMembership {a : Step} (ha : a.isMembership = true) (h : Hub) :
    (act a h).outboxes = h.outboxes := by
  cases a with
  | attach handle => rfl
  | detach c =>
    show (h.detach c).2.outboxes = _
    unfold detach
    split <;> rfl
  | setInCall c on =>
    show (h.setInCall c on).2.outboxes = _
    unfold setInCall
    split <;> rfl
  | broadcast | broadcastPresence | pushTo | pushCallParticipants | deliver | receive
  | closeReceiver | dropReceiver | cancel => cases ha

end RoomHub.Hub
