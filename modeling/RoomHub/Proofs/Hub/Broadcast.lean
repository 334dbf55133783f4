import RoomHub.Proofs.Hub.Filling
import RoomHub.Proofs.Hub.Snapshots

/-!
# What a broadcast does

The connections of a room have outboxes of their own. So each of them is offered the event
as if it were the only one, and neither what becomes of the event there nor the report
depends on the order in which they are visited:

> `isBroadcast_fanOut`: what an event offered to different connections does to each of them,
> to all others and to the report; `fanOut_perm`: in every order;
> `isPresence_broadcastPresence`: the same of the two snapshots of a room;
> `stream_after`: nothing is queued between the events of one step, and nothing behind them
> where there was no room for all.
-/

namespace RoomHub

open Std (ExtTreeMap)

namespace Hub

variable {h h' : Hub} {c d : ConnectionId} {e : Event} {cs cs' : List ConnectionId} {r : RoomId}

/-! ## One event to different connections -/

/-- A hub is its registry, its tracker and the outbox of each connection. -/
theorem ext_outboxes (hregistry : h.registry = h'.registry) (hcalls : h.calls = h'.calls)
    (houtboxes : ∀ c : ConnectionId, h.outboxes[c]? = h'.outboxes[c]?) : h = h' := by
  obtain ⟨g, t, os⟩ := h
  obtain ⟨g', t', os'⟩ := h'
  cases hregistry
  cases hcalls
  exact congrArg _ (ExtTreeMap.ext_getElem? fun c => houtboxes c)

/-- A connection answers as its outbox does, and as a closed one when it has none. -/
theorem deliver_fst :
    (h.deliver c e).1 = (h.outboxes[c]?).elim .closed fun o => (o.offer e).1 := by
  unfold deliver
  cases h.outboxes[c]? <;> rfl

/-- What one connection answers does not depend on what was offered to another. -/
theorem deliver_fst_deliver (hne : c ≠ d) :
    ((h.deliver c e).2.deliver d e).1 = (h.deliver d e).1 := by
  rw [deliver_fst, deliver_fst, outboxes_deliver, if_neg hne]

/-- Connections that are all different answer as if each were the only one. -/
theorem report_fanOut (hnodup : cs.Nodup) (h : Hub) :
    (fanOut e cs h).1 = Report.sum (cs.map fun c => Report.zero.count (h.deliver c e).1) := by
  induction cs generalizing h with
  | nil => rfl
  | cons c cs ih =>
    obtain ⟨hc, hcs⟩ := List.nodup_cons.mp hnodup
    have hothers : cs.map (fun d => Report.zero.count ((h.deliver c e).2.deliver d e).1) =
        cs.map fun d => Report.zero.count (h.deliver d e).1 := by
      refine List.map_congr_left fun d hd => ?_
      have hne : c ≠ d := fun heq => hc (heq ▸ hd)
      rw [deliver_fst_deliver hne]
    show (fanOut e cs (h.deliver c e).2).1.count (h.deliver c e).1 = _
    rw [Report.count_eq_add, ih hcs, hothers]
    rfl

/-- Offering an event to connections does not touch the registry. -/
theorem fanOut_registry : (fanOut e cs h).2.registry = h.registry := by
  rw [fanOut_eq]
  exact offerEach_registry h

/-- Offering an event to connections does not touch the call tracker. -/
theorem fanOut_calls : (fanOut e cs h).2.calls = h.calls := by
  rw [fanOut_eq]
  exact offerEach_calls h

/-- Each of the connections is offered the event once. -/
theorem outboxes_fanOut (hnodup : cs.Nodup) :
    (fanOut e cs h).2.outboxes[c]? =
      if c ∈ cs then (h.outboxes[c]?).map fun o => (o.offer e).2 else h.outboxes[c]? := by
  rw [fanOut_eq]
  show (offerEach e cs h).2.outboxes[c]? = _
  rw [outboxes_offerEach, hnodup.count]
  split
  next => rfl
  next => exact Option.map_id'

/-- The order in which different connections are visited does not matter. -/
theorem fanOut_perm (hnodup : cs.Nodup) (hperm : cs'.Perm cs) : fanOut e cs' h = fanOut e cs h := by
  have hnodup' : cs'.Nodup := hperm.nodup_iff.mpr hnodup
  refine Prod.ext ?_ (ext_outboxes ?_ ?_ fun c => ?_)
  · rw [report_fanOut hnodup', report_fanOut hnodup]
    exact Report.sum_perm (hperm.map _)
  · rw [fanOut_registry, fanOut_registry]
  · rw [fanOut_calls, fanOut_calls]
  · rw [outboxes_fanOut hnodup', outboxes_fanOut hnodup]
    simp only [hperm.mem_iff]

/-! ## What a broadcast does -/

/-- Whether an event was put at the end of a connection's queue. -/
def appended (e : Event) (h h' : Hub) (c : ConnectionId) : Bool :=
  match h.outboxes[c]?, h'.outboxes[c]? with
  | some o, some o' => o'.queue = o.queue ++ [e]
  | _, _ => false

/-- Whether the close signal of a connection was tripped. -/
def tripped (h h' : Hub) (c : ConnectionId) : Bool := !h.isCancelled c && h'.isCancelled c

/-- All that a broadcast of an event to some connections does. -/
structure IsBroadcast (cs : List ConnectionId) (e : Event) (h : Hub) (result : Report × Hub) :
    Prop where
  registry : result.2.registry = h.registry
  calls : result.2.calls = h.calls
  others : ∀ c : ConnectionId, c ∉ cs → result.2.outboxes[c]? = h.outboxes[c]?
  missing : ∀ c : ConnectionId, h.outboxes[c]? = none → result.2.outboxes[c]? = none
  closed : ∀ c ∈ cs, ∀ o, h.outboxes[c]? = some o →
    (o.cancelled = true ∨ o.receiver ≠ .listening) → result.2.outboxes[c]? = some o
  full : ∀ c ∈ cs, ∀ o, h.outboxes[c]? = some o → o.cancelled = false →
    o.receiver = .listening → o.capacity ≤ o.queue.length →
      result.2.outboxes[c]? = some { o with cancelled := true }
  room : ∀ c ∈ cs, ∀ o, h.outboxes[c]? = some o → o.cancelled = false →
    o.receiver = .listening → o.queue.length < o.capacity →
      result.2.outboxes[c]? = some { o with queue := o.queue ++ [e] }
  delivered : result.1.delivered = cs.countP (appended e h result.2)
  evicted : result.1.evicted = cs.countP (tripped h result.2)

/-- An event offered to different connections does what a broadcast does. -/
theorem isBroadcast_fanOut (hnodup : cs.Nodup) : IsBroadcast cs e h (fanOut e cs h) := by
  have hafter (c : ConnectionId) (hc : c ∈ cs) : (fanOut e cs h).2.outboxes[c]? =
      (h.outboxes[c]?).map fun o => (o.offer e).2 := by
    rw [outboxes_fanOut hnodup, if_pos hc]
  refine ⟨fanOut_registry, fanOut_calls, ?others, ?missing, ?closed, ?full, ?room, ?delivered,
    ?evicted⟩
  case others =>
    intro c hc
    rw [outboxes_fanOut hnodup, if_neg hc]
  case missing =>
    intro c hnone
    rw [outboxes_fanOut hnodup, hnone]
    split <;> rfl
  case closed =>
    intro c hc o ho hshut
    have hnot : o.isOpen = false := by
      rw [Bool.eq_false_iff, ne_eq, Outbox.isOpen_iff]
      rintro ⟨hfree, hlistening⟩
      rcases hshut with hcancelled | hgone
      · rw [hfree] at hcancelled
        cases hcancelled
      · exact hgone hlistening
    rw [hafter c hc, ho, Option.map_some, Outbox.offer_of_not_isOpen hnot]
  case full =>
    intro c hc o ho hfree hlistening hfull
    rw [hafter c hc, ho, Option.map_some,
      Outbox.offer_of_full (Outbox.isOpen_iff.mpr ⟨hfree, hlistening⟩) hfull]
  case room =>
    intro c hc o ho hfree hlistening hroom
    rw [hafter c hc, ho, Option.map_some,
      Outbox.offer_of_room (Outbox.isOpen_iff.mpr ⟨hfree, hlistening⟩) hroom]
  case delivered =>
    rw [report_fanOut hnodup]
    refine Report.sum_eq_countP rfl (fun _ _ => rfl) fun c hc => ?_
    unfold appended
    rw [hafter c hc, deliver_fst]
    cases h.outboxes[c]? with
    | none => rfl
    | some o =>
      show (Report.zero.count (o.offer e).1).delivered =
        if decide ((o.offer e).2.queue = o.queue ++ [e]) then 1 else 0
      rcases o.offer_cases e with ⟨-, heq⟩ | ⟨-, -, heq⟩ | ⟨-, -, heq⟩
      · simp [heq, Report.count, Report.zero]
      · simp [heq, Report.count, Report.zero]
      · simp [heq, Report.count, Report.zero, Outbox.queued]
  case evicted =>
    rw [report_fanOut hnodup]
    refine Report.sum_eq_countP rfl (fun _ _ => rfl) fun c hc => ?_
    unfold tripped isCancelled
    rw [hafter c hc, deliver_fst]
    cases h.outboxes[c]? with
    | none => rfl
    | some o =>
      show (Report.zero.count (o.offer e).1).evicted =
        if !o.cancelled && (o.offer e).2.cancelled then 1 else 0
      rcases o.offer_cases e with ⟨-, heq⟩ | ⟨hopen, -, heq⟩ | ⟨-, -, heq⟩
      · simp [heq, Report.count, Report.zero]
      · simp [heq, Report.count, Report.zero, (Outbox.isOpen_iff.mp hopen).1]
      · simp [heq, Report.count, Report.zero, Outbox.queued]

/-! ## Two events in a row -/

/-- Offers one event and then another, and sums the reports. -/
def fanOutTwice (e f : Event) (cs cs' : List ConnectionId) (h : Hub) : Report × Hub :=
  let first := fanOut e cs h
  let second := fanOut f cs' first.2
  (first.1 + second.1, second.2)

section Twice

variable {f : Event}

/-- Neither of two events in a row depends on the order of its visits. -/
theorem fanOutTwice_perm {ds ds' : List ConnectionId} (hcs : cs.Nodup) (hds : ds.Nodup)
    (hperm : cs'.Perm cs) (hperm' : ds'.Perm ds) :
    fanOutTwice e f cs' ds' h = fanOutTwice e f cs ds h := by
  unfold fanOutTwice
  rw [fanOut_perm hcs hperm]
  simp only [fanOut_perm hds hperm']

/-- The report on both is the sum of what each connection adds to it. -/
theorem report_fanOutTwice (hnodup : cs.Nodup) :
    (fanOutTwice e f cs cs h).1 =
      Report.sum (cs.map fun c => ((h.outboxes[c]?).map (Outbox.share 2)).getD .zero) := by
  show (fanOut e cs h).1 + (fanOut f cs (fanOut e cs h).2).1 = _
  rw [report_fanOut hnodup, report_fanOut hnodup, Report.sum_map_add]
  refine congrArg Report.sum (List.map_congr_left fun c hc => ?_)
  rw [deliver_fst, deliver_fst, outboxes_fanOut hnodup, if_pos hc]
  cases h.outboxes[c]? with
  | none => rfl
  | some o => exact o.count_offer_offer e f

/-- Each connection is offered both, one right after the other. -/
theorem outboxes_fanOutTwice (hnodup : cs.Nodup) :
    (fanOutTwice e f cs cs h).2.outboxes[c]? =
      if c ∈ cs then (h.outboxes[c]?).map (Outbox.filled [e, f]) else h.outboxes[c]? := by
  show (fanOut f cs (fanOut e cs h).2).2.outboxes[c]? = _
  rw [outboxes_fanOut hnodup, outboxes_fanOut hnodup]
  split
  next =>
    rw [Option.map_map]
    cases h.outboxes[c]? with
    | none => rfl
    | some o => exact congrArg (fun series => some series.2) (o.offerAll_eq [e, f])
  next => rfl

end Twice

/-- A broadcast of presence to a room is two broadcasts, one right after the other. -/
theorem broadcastPresence_room (r : RoomId) (h : Hub) :
    h.broadcastPresence r .room =
      fanOutTwice (.participants (h.participants r)) (.callParticipants (h.callParticipants r))
        (h.roomIds r) (h.roomIds r) h := by
  have hrooms : (fanOut (.participants (h.participants r)) (h.roomIds r) h).2.roomIds r =
      h.roomIds r := by
    unfold roomIds
    rw [fanOut_registry]
  show (let first := fanOut (.participants (h.participants r)) (h.roomIds r) h
    let second := fanOut (.callParticipants (h.callParticipants r)) (first.2.roomIds r) first.2
    (first.1 + second.1, second.2)) = _
  simp only [hrooms]
  rfl

/-! ## What comes between and behind -/

/-- A step queues to a connection what it has room for of the events that are meant for it. -/
theorem stream_sends {o : Outbox} (ho : h.outboxes[c]? = some o) (a : Step) :
    Sending.stream c (sends a h) = (meantFor c (dispatches a h)).take o.free := by
  have hanswers : Sending.attempts c (sends a h) =
      ((meantFor c (dispatches a h)).take o.free).map (·, .queued) ++
        o.refuse ((meantFor c (dispatches a h)).drop o.free) := by
    rw [attempts_sends]
    unfold answers
    rw [ho]
    exact congrArg Prod.fst (o.offerAll_eq _)
  exact Sending.stream_eq_queued hanswers fun a ha => Outbox.ne_queued_of_mem_refuse ha

/-- A connection that is shut is given nothing any more. -/
theorem stream_run_of_not_isOpen {x : Record} (hshut : ¬x.hub.IsOpen c) (steps : List Step) :
    Sending.stream c (x.run steps).log = Sending.stream c x.log := by
  induction steps generalizing x with
  | nil => rfl
  | cons a steps ih =>
    have hnothing : Sending.stream c (sends a x.hub) = [] := by
      cases ho : x.hub.outboxes[c]? with
      | none =>
        unfold Sending.stream
        rw [attempts_sends]
        unfold answers
        rw [ho]
        simp [List.filter_map, Function.comp_def]
      | some o =>
        have hnot : o.isOpen = false :=
          Bool.eq_false_iff.mpr fun hopen => hshut ⟨o, ho, hopen⟩
        rw [stream_sends ho, Outbox.free_of_not_isOpen hnot, List.take_zero]
    have hstill : ¬(x.act a).hub.IsOpen c := fun hopen => hshut (stream_sends_of_isOpen hopen).2
    show Sending.stream c ((x.act a).run steps).log = _
    rw [ih hstill]
    show Sending.stream c (x.log ++ sends a x.hub) = _
    rw [Sending.stream_append, hnothing, List.append_nil]

/-- Behind what was queued to a connection stand as many of the events that a step means for it
as it has room for, and then later ones, but none when it had not room for all. -/
theorem stream_after {x : Record} {a : Step} {o : Outbox} (ha : a.isSending = true)
    (ho : x.hub.outboxes[c]? = some o) (steps : List Step) :
    ∃ later, Sending.stream c ((x.act a).run steps).log =
        Sending.stream c x.log ++ (meantFor c (dispatches a x.hub)).take o.free ++ later ∧
      (o.free < (meantFor c (dispatches a x.hub)).length → later = []) := by
  have hnow : Sending.stream c (x.act a).log =
      Sending.stream c x.log ++ (meantFor c (dispatches a x.hub)).take o.free := by
    show Sending.stream c (x.log ++ sends a x.hub) = _
    rw [Sending.stream_append, stream_sends ho]
  obtain ⟨more, hmore⟩ := (x.act a).log_prefix_run steps
  have hstream : Sending.stream c ((x.act a).run steps).log =
      Sending.stream c (x.act a).log ++ Sending.stream c more := by
    rw [← hmore, Sending.stream_append]
  refine ⟨Sending.stream c more, by rw [hstream, hnow], fun hfew => ?_⟩
  have houtbox : (x.act a).hub.outboxes[c]? =
      some (o.filled (meantFor c (dispatches a x.hub))) := by
    show (Hub.act a x.hub).outboxes[c]? = _
    rw [act_of_isSending ha, outboxes_dispatch, ho, Option.map_some, Outbox.offerAll_eq]
  have hshut : ¬(x.act a).hub.IsOpen c := by
    rintro ⟨o', ho', hopen⟩
    rw [houtbox] at ho'
    cases ho'
    rw [Outbox.isOpen_filled_of_free_lt hfew] at hopen
    cases hopen
  rw [stream_run_of_not_isOpen hshut steps] at hstream
  exact List.self_eq_append_right.mp hstream

/-- All that a broadcast of presence to a room does: the people connected are broadcast and then
those in the call, both as they were before, with the reports summed. To one connection this
is a series of two offers. With room for one it takes the first and is evicted by the second,
and counts once as either. -/
structure IsPresence (r : RoomId) (h : Hub) (result : Report × Hub) : Prop where
  twice : ∀ cs cs' : List ConnectionId, cs.Perm (h.roomIds r) → cs'.Perm (h.roomIds r) →
    result = fanOutTwice (.participants (h.participants r))
      (.callParticipants (h.callParticipants r)) cs cs' h
  report : result.1 = Report.sum
    ((h.roomIds r).map fun c => ((h.outboxes[c]?).map (Outbox.share 2)).getD .zero)
  registry : result.2.registry = h.registry
  calls : result.2.calls = h.calls
  outboxes : ∀ c : ConnectionId, result.2.outboxes[c]? =
    if c ∈ h.roomIds r then (h.outboxes[c]?).map (Outbox.filled (h.told r .room))
    else h.outboxes[c]?
  tight : ∀ c ∈ h.roomIds r, ∀ o, h.outboxes[c]? = some o → o.isOpen = true →
    o.queue.length + 1 = o.capacity →
      o.share 2 = ⟨1, 1⟩ ∧ result.2.outboxes[c]? = some { o with
        queue := o.queue ++ [.participants (h.participants r)]
        cancelled := true }

/-- A broadcast of presence is two broadcasts of what was before it, and does nothing else. -/
theorem isPresence_broadcastPresence (hdistinct : (h.roomIds r).Nodup) :
    IsPresence r h (h.broadcastPresence r .room) := by
  have houtboxes (c : ConnectionId) : (h.broadcastPresence r .room).2.outboxes[c]? =
      if c ∈ h.roomIds r then (h.outboxes[c]?).map (Outbox.filled (h.told r .room))
      else h.outboxes[c]? := by
    rw [broadcastPresence_room, outboxes_fanOutTwice hdistinct]
    rfl
  refine ⟨?twice, ?report, ?registry, ?calls, houtboxes, ?tight⟩
  case twice =>
    intro cs cs' hcs hcs'
    rw [broadcastPresence_room, fanOutTwice_perm hdistinct hdistinct hcs hcs']
  case report => rw [broadcastPresence_room, report_fanOutTwice hdistinct]
  case registry =>
    rw [broadcastPresence_room]
    exact fanOut_registry.trans fanOut_registry
  case calls =>
    rw [broadcastPresence_room]
    exact fanOut_calls.trans fanOut_calls
  case tight =>
    intro c hc o ho hopen hone
    have hfree : o.free = 1 := by
      rw [Outbox.free_of_isOpen hopen]
      omega
    refine ⟨by simp [Outbox.share, hfree, hopen], ?_⟩
    rw [houtboxes c, if_pos hc, ho, Option.map_some]
    simp [Outbox.filled, Outbox.queued, hfree, hopen, told]

/-- A connection of the room is meant once by each of the two snapshots. -/
theorem meantFor_of_distinct (hdistinct : (h.roomIds r).Nodup) (hc : c ∈ h.roomIds r)
    (s : Scope) : meantFor c (dispatches (.broadcastPresence r s) h) = h.told r s := by
  rw [dispatches_broadcastPresence]
  unfold meantFor
  rw [List.flatMap_map]
  simp [hdistinct.count, hc]

/-- For every hub in which the connections of a room have outboxes of their own: a broadcast
to the room is the same whatever the order in which the connections are visited, and does no
more and no less than `IsBroadcast` says; a broadcast of presence is two broadcasts, as
`IsPresence` says; and however the run goes on, nothing is queued to a connection between
what it was given of the two, and nothing at all behind it unless it was given both. -/
theorem broadcast_exact (h : Hub) (r : RoomId) (hdistinct : (h.roomIds r).Nodup) :
    (∀ (e : Event) (cs : List ConnectionId), cs.Perm (h.roomIds r) →
      fanOut e cs h = h.broadcast r e ∧ IsBroadcast (h.roomIds r) e h (fanOut e cs h)) ∧
    IsPresence r h (h.broadcastPresence r .room) ∧
    ∀ (x : Record), x.hub = h → ∀ c ∈ h.roomIds r, ∀ o, h.outboxes[c]? = some o →
      ∀ steps : List Step, ∃ later,
        Sending.stream c ((x.act (.broadcastPresence r .room)).run steps).log =
          Sending.stream c x.log ++ (h.told r .room).take o.free ++ later ∧
        (o.free < 2 → later = []) := by
  refine ⟨fun e cs hcs => ?_, isPresence_broadcastPresence hdistinct, ?_⟩
  · rw [fanOut_perm hdistinct hcs]
    exact ⟨rfl, isBroadcast_fanOut hdistinct⟩
  · rintro x rfl c hc o ho steps
    have hafter := stream_after (a := .broadcastPresence r .room) rfl ho steps
    rw [meantFor_of_distinct hdistinct hc] at hafter
    exact hafter

/-- A room of four connections, one of them in the call: the first has room in its queue, the
second room for one event, the third none, and the fourth takes none. A fifth is elsewhere. -/
def mixedHub : Hub :=
  let outboxes : List (ConnectionId × Outbox) :=
    [(⟨⟨1⟩⟩, ⟨5, [.history []], .listening, false, by decide⟩),
     (⟨⟨2⟩⟩, ⟨2, [.history []], .listening, false, by decide⟩),
     (⟨⟨3⟩⟩, ⟨1, [.history []], .listening, false, by decide⟩),
     (⟨⟨4⟩⟩, ⟨3, [], .closed, false, by decide⟩),
     (⟨⟨5⟩⟩, ⟨1, [], .listening, false, by decide⟩)]
  let handles : List Handle :=
    [⟨⟨⟨4⟩⟩, ⟨⟨1⟩⟩, ⟨⟨⟨1⟩⟩, "Ada"⟩⟩, ⟨⟨⟨2⟩⟩, ⟨⟨1⟩⟩, ⟨⟨⟨1⟩⟩, "Ada"⟩⟩, ⟨⟨⟨1⟩⟩, ⟨⟨1⟩⟩, ⟨⟨⟨2⟩⟩, "Bob"⟩⟩,
     ⟨⟨⟨5⟩⟩, ⟨⟨2⟩⟩, ⟨⟨⟨2⟩⟩, "Bob"⟩⟩, ⟨⟨⟨3⟩⟩, ⟨⟨1⟩⟩, ⟨⟨⟨3⟩⟩, "Cy"⟩⟩]
  let attached : Hub :=
    handles.foldl (fun h handle => (h.attach handle).2) (idle (ExtTreeMap.ofList outboxes))
  (attached.setInCall ⟨⟨2⟩⟩ true).2

/-- One event reaches two of the four and evicts the third, in whatever order they are visited. Of
the two snapshots the second connection takes the first and is evicted by the other. -/
theorem broadcast_exact_mixed :
    (mixedHub.roomIds ⟨⟨1⟩⟩).Nodup ∧
      fanOut (.history []) [⟨⟨4⟩⟩, ⟨⟨2⟩⟩, ⟨⟨1⟩⟩, ⟨⟨3⟩⟩] mixedHub =
        mixedHub.broadcast ⟨⟨1⟩⟩ (.history []) ∧
      (mixedHub.broadcast ⟨⟨1⟩⟩ (.history [])).1.delivered = 2 ∧
      (mixedHub.broadcast ⟨⟨1⟩⟩ (.history [])).1.evicted = 1 ∧
      (mixedHub.broadcastPresence ⟨⟨1⟩⟩ .room).1 = ⟨3, 2⟩ ∧
      (mixedHub.broadcastPresence ⟨⟨1⟩⟩ .room).2.outboxes[(⟨⟨2⟩⟩ : ConnectionId)]? =
        some ⟨2, [.history [], .participants (mixedHub.participants ⟨⟨1⟩⟩)], .listening, true,
          by decide⟩ ∧
      (mixedHub.broadcastPresence ⟨⟨1⟩⟩ .room).2.outboxes[(⟨⟨5⟩⟩ : ConnectionId)]? =
        some ⟨1, [], .listening, false, by decide⟩ := by
  have hdistinct : (mixedHub.roomIds ⟨⟨1⟩⟩).Nodup := by decide +kernel
  obtain ⟨hevent, hpresence, -⟩ := broadcast_exact mixedHub ⟨⟨1⟩⟩ hdistinct
  obtain ⟨horder, hexact⟩ :=
    hevent (.history []) [⟨⟨4⟩⟩, ⟨⟨2⟩⟩, ⟨⟨1⟩⟩, ⟨⟨3⟩⟩] (by decide +kernel)
  rw [horder] at hexact
  have htight := hpresence.tight ⟨⟨2⟩⟩ (by decide +kernel)
    ⟨2, [.history []], .listening, false, by decide⟩ (by decide +kernel) rfl rfl
  have helsewhere := hpresence.outboxes ⟨⟨5⟩⟩
  rw [if_neg (by decide +kernel)] at helsewhere
  exact ⟨hdistinct, horder, hexact.delivered.trans (by decide +kernel),
    hexact.evicted.trans (by decide +kernel), hpresence.report.trans (by decide +kernel), htight.2,
    helsewhere.trans (by decide +kernel)⟩

end Hub
end RoomHub
