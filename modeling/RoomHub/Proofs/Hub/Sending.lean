import RoomHub.Hub

/-!
# Sendings and their answers

A `Sending` is one event offered to some connections in turn, with the answer of each.
The hub's reports only count answers; here they are kept, so that one can say which
connection got what. What a hub sends is a list of dispatches, an event and whom to offer
it to, and `dispatch` carries one out.

The view of one connection is all that matters to it:

> `outboxes_dispatch`, `attempts_dispatch`: a connection's outbox, and the answers it
> gives, are those of offering it, one after the other, the events that are meant for it.

So connections cannot disturb each other, and the order within a sending is immaterial.
-/

namespace RoomHub

open Std (ExtTreeMap)

/-- One event offered to some connections: what became of it at each, in turn. -/
structure Sending where
  event : Event
  answers : List (ConnectionId × Delivery)

namespace Sending

/-- What one connection answered to a sending. -/
def answersOf (c : ConnectionId) (s : Sending) : List Delivery :=
  (s.answers.filter (·.1 = c)).map (·.2)

/-- How many connections a sending was queued to, and how many it evicted. -/
def report (s : Sending) : Report := s.answers.foldr (fun a r => r.count a.2) .zero

/-- What was offered to one connection, and its answers. -/
def attempts (c : ConnectionId) (log : List Sending) : List (Event × Delivery) :=
  log.flatMap fun s => (s.answersOf c).map (s.event, ·)

/-- The events that were queued to one connection. -/
def stream (c : ConnectionId) (log : List Sending) : List Event :=
  ((attempts c log).filter (·.2 = .queued)).map (·.1)

/-- The attempts of two logs follow each other. -/
theorem attempts_append (c : ConnectionId) (log log' : List Sending) :
    attempts c (log ++ log') = attempts c log ++ attempts c log' :=
  List.flatMap_append

/-- The streams of two logs follow each other. -/
theorem stream_append (c : ConnectionId) (log log' : List Sending) :
    stream c (log ++ log') = stream c log ++ stream c log' := by
  unfold stream
  rw [attempts_append, List.filter_append, List.map_append]

end Sending

/-! ## A series of offers to one outbox -/

namespace Outbox

/-- Offers events one after the other, and keeps each with its answer. -/
def offerAll : List Event → Outbox → List (Event × Delivery) × Outbox
  | [], o => ([], o)
  | e :: es, o =>
    let (d, o) := o.offer e
    let (as, o) := offerAll es o
    ((e, d) :: as, o)

/-- A series in two parts is offered part by part. -/
theorem offerAll_append (es fs : List Event) (o : Outbox) :
    o.offerAll (es ++ fs)
      = ((o.offerAll es).1 ++ ((o.offerAll es).2.offerAll fs).1,
          ((o.offerAll es).2.offerAll fs).2) := by
  induction es generalizing o with
  | nil => rfl
  | cons e es ih => simp only [List.cons_append, offerAll, ih]

/-- Every event of a series gets one answer. -/
theorem offerAll_map_fst (es : List Event) (o : Outbox) :
    (o.offerAll es).1.map (·.1) = es := by
  induction es generalizing o with
  | nil => rfl
  | cons e es ih => exact congrArg (e :: ·) (ih _)

/-- An outbox that is open after an offer took the event. -/
theorem offer_of_isOpen {e : Event} {o : Outbox} (h : (o.offer e).2.isOpen = true) :
    o.isOpen = true ∧ (o.offer e).1 = .queued := by
  unfold offer at h ⊢
  split at h
  next hshut => exact absurd h (by simpa using hshut)
  next hopen =>
    split at h
    next => simp [isOpen] at h
    next hroom => exact ⟨by simpa using hopen, by rw [if_neg hopen, if_neg hroom]⟩

/-! Nothing that the other end does opens an outbox. -/

/-- Taking from the queue opens and shuts nothing. -/
theorem isOpen_take (n : Nat) (o : Outbox) : (o.take n).2.isOpen = o.isOpen := rfl

/-- A closed receiver shuts the outbox. -/
theorem isOpen_closeReceiver (o : Outbox) : o.closeReceiver.isOpen = false := by
  unfold closeReceiver
  split
  next => simp [isOpen]
  next hnot => simp [isOpen, hnot]

/-- A dropped receiver shuts the outbox. -/
theorem isOpen_dropReceiver (o : Outbox) : o.dropReceiver.isOpen = false := by
  simp [isOpen, dropReceiver]

/-- A tripped signal shuts the outbox. -/
theorem isOpen_cancel (o : Outbox) : o.cancel.isOpen = false := by
  simp [isOpen, cancel]

/-- An outbox that is open after a series of offers took them all. -/
theorem offerAll_of_isOpen {es : List Event} {o : Outbox}
    (h : (o.offerAll es).2.isOpen = true) :
    o.isOpen = true ∧ (o.offerAll es).1 = es.map (·, Delivery.queued) := by
  induction es generalizing o with
  | nil => exact ⟨h, rfl⟩
  | cons e es ih =>
    obtain ⟨hnext, hrest⟩ := ih (o := (o.offer e).2) h
    obtain ⟨hopen, hfirst⟩ := offer_of_isOpen hnext
    refine ⟨hopen, ?_⟩
    show (e, (o.offer e).1) :: ((o.offer e).2.offerAll es).1 = _
    rw [hfirst, hrest, List.map_cons]

end Outbox

namespace Hub

/-! ## One offer -/

variable {h : Hub} {c d : ConnectionId} {e : Event} {cs : List ConnectionId}

/-- What a connection answers when events are offered to it one after the other. -/
def answers (h : Hub) (c : ConnectionId) (es : List Event) : List (Event × Delivery) :=
  match h.outboxes[c]? with
  | none => es.map (·, .closed)
  | some o => (o.offerAll es).1

@[simp] theorem answers_nil : h.answers c [] = [] := by
  unfold answers
  split <;> rfl

/-- Every event is answered, in order. -/
theorem answers_map_fst (es : List Event) : (h.answers c es).map (·.1) = es := by
  unfold answers
  split
  next => simp [Function.comp_def]
  next o _ => exact o.offerAll_map_fst es

/-- Offering an event to a connection does not touch the registry. -/
theorem deliver_registry : (h.deliver c e).2.registry = h.registry := by
  unfold deliver
  split <;> rfl

/-- Offering an event to a connection does not touch the call tracker. -/
theorem deliver_calls : (h.deliver c e).2.calls = h.calls := by
  unfold deliver
  split <;> rfl

/-- Offering an event to a connection changes its outbox and no other. -/
theorem outboxes_deliver :
    (h.deliver c e).2.outboxes[d]?
      = if c = d then (h.outboxes[c]?).map fun o => (o.offer e).2 else h.outboxes[d]? := by
  unfold deliver
  cases hc : h.outboxes[c]? with
  | none =>
    show h.outboxes[d]? = _
    split
    next hcd => rw [← hcd, hc]; rfl
    next => rfl
  | some o =>
    show (h.outboxes.insert c (o.offer e).2)[d]? = _
    rw [ExtTreeMap.getElem?_insert]
    simp only [Std.compare_eq_iff_eq, Option.map_some]

/-- The events after the first are answered by what the first offer left. -/
theorem answers_cons (es : List Event) :
    h.answers c (e :: es) = (e, (h.deliver c e).1) :: (h.deliver c e).2.answers c es := by
  unfold answers
  rw [outboxes_deliver, if_pos rfl]
  unfold deliver
  cases h.outboxes[c]? <;> rfl

/-- An offer to another connection changes no answer. -/
theorem answers_deliver_ne (hcd : c ≠ d) (es : List Event) :
    (h.deliver c e).2.answers d es = h.answers d es := by
  unfold answers
  rw [outboxes_deliver, if_neg hcd]

/-! ## One sending -/

/-- Offers an event to connections in the given order and keeps every answer. -/
def offerEach (e : Event) : List ConnectionId → Hub → List (ConnectionId × Delivery) × Hub
  | [], h => ([], h)
  | c :: cs, h =>
    let (d, h) := h.deliver c e
    let (as, h) := offerEach e cs h
    ((c, d) :: as, h)

/-- Sending to connections is offering to each; the report counts the answers. -/
theorem fanOut_eq (h : Hub) :
    fanOut e cs h
      = ((offerEach e cs h).1.foldr (fun a r => r.count a.2) .zero, (offerEach e cs h).2) := by
  induction cs generalizing h with
  | nil => rfl
  | cons c cs ih => simp only [fanOut, offerEach, ih, List.foldr_cons]

/-- Offers to many connections do not touch the registry. -/
theorem offerEach_registry (h : Hub) : (offerEach e cs h).2.registry = h.registry := by
  induction cs generalizing h with
  | nil => rfl
  | cons c cs ih => exact (ih _).trans deliver_registry

/-- Offers to many connections do not touch the call tracker. -/
theorem offerEach_calls (h : Hub) : (offerEach e cs h).2.calls = h.calls := by
  induction cs generalizing h with
  | nil => rfl
  | cons c cs ih => exact (ih _).trans deliver_calls

/-- The outbox of a connection is offered the event as often as it is named. -/
theorem outboxes_offerEach (h : Hub) :
    (offerEach e cs h).2.outboxes[d]?
      = (h.outboxes[d]?).map fun o => (o.offerAll (List.replicate (cs.count d) e)).2 := by
  induction cs generalizing h with
  | nil => simp [offerEach, Outbox.offerAll]
  | cons c cs ih =>
    show (offerEach e cs (h.deliver c e).2).2.outboxes[d]? = _
    rw [ih, outboxes_deliver]
    by_cases hcd : c = d
    · subst hcd
      rw [if_pos rfl, Option.map_map, List.count_cons_self, List.replicate_succ]
      rfl
    · rw [if_neg hcd, List.count_cons_of_ne hcd]

/-- A connection answers as often as it is named. -/
theorem answersOf_offerEach (h : Hub) :
    (Sending.answersOf d ⟨e, (offerEach e cs h).1⟩).map (e, ·)
      = h.answers d (List.replicate (cs.count d) e) := by
  induction cs generalizing h with
  | nil => exact answers_nil.symm
  | cons c cs ih =>
    by_cases hcd : c = d
    · subst hcd
      rw [List.count_cons_self, List.replicate_succ, answers_cons, ← ih]
      simp [Sending.answersOf, offerEach]
    · rw [List.count_cons_of_ne hcd, ← answers_deliver_ne hcd (e := e), ← ih]
      simp [Sending.answersOf, offerEach, hcd]

/-! ## Several sendings in a row -/

/-- An event and the connections it is to be offered to. -/
abbrev Dispatch := Event × List ConnectionId

/-- The events that dispatches mean for one connection. -/
def meantFor (c : ConnectionId) (ds : List Dispatch) : List Event :=
  ds.flatMap fun d => List.replicate (d.2.count c) d.1

/-- An event is meant for a connection if it is dispatched to it. -/
theorem mem_meantFor {ds : List Dispatch} :
    e ∈ meantFor c ds ↔ ∃ d ∈ ds, d.1 = e ∧ c ∈ d.2 := by
  unfold meantFor
  simp only [List.mem_flatMap, List.mem_replicate, ne_eq, List.count_eq_zero,
    Classical.not_not]
  constructor
  · rintro ⟨d, hd, hc, rfl⟩
    exact ⟨d, hd, rfl, hc⟩
  · rintro ⟨d, hd, rfl, hc⟩
    exact ⟨d, hd, hc, rfl⟩

/-- Of events that all go to one list, each is meant as often as the connection stands there. -/
theorem meantFor_map (es : List Event) (cs : List ConnectionId) :
    meantFor c (es.map (·, cs)) = es.flatMap (List.replicate (cs.count c) ·) :=
  List.flatMap_map ..

/-- What is pushed to one connection is meant for that one only. -/
theorem meantFor_singleton (es : List Event) (d : ConnectionId) :
    meantFor c (es.map (·, [d])) = if c = d then es else [] := by
  rw [meantFor_map, List.count_singleton]
  by_cases hcd : c = d
  · simp [hcd]
  · simp [hcd, Ne.symm hcd]

/-- Carries out dispatches one after the other, and keeps the sendings. -/
def dispatch : List Dispatch → Hub → List Sending × Hub
  | [], h => ([], h)
  | (e, cs) :: ds, h =>
    let (as, h) := offerEach e cs h
    let (log, h) := dispatch ds h
    (⟨e, as⟩ :: log, h)

theorem dispatch_registry (ds : List Dispatch) (h : Hub) :
    (dispatch ds h).2.registry = h.registry := by
  induction ds generalizing h with
  | nil => rfl
  | cons d ds ih => exact (ih _).trans (offerEach_registry h)

theorem dispatch_calls (ds : List Dispatch) (h : Hub) : (dispatch ds h).2.calls = h.calls := by
  induction ds generalizing h with
  | nil => rfl
  | cons d ds ih => exact (ih _).trans (offerEach_calls h)

/-- Dispatches in two parts are made part by part. -/
theorem dispatch_append (ds ds' : List Dispatch) (h : Hub) :
    dispatch (ds ++ ds') h =
      ((dispatch ds h).1 ++ (dispatch ds' (dispatch ds h).2).1,
        (dispatch ds' (dispatch ds h).2).2) := by
  induction ds generalizing h with
  | nil => rfl
  | cons d ds ih =>
    obtain ⟨e, cs⟩ := d
    simp only [List.cons_append, dispatch, ih]

/-- The answers to a series in two parts are those to the first, then those after it. -/
theorem answers_append (es fs : List Event) {h' : Hub}
    (hout : h'.outboxes[c]? = (h.outboxes[c]?).map fun o => (o.offerAll es).2) :
    h.answers c (es ++ fs) = h.answers c es ++ h'.answers c fs := by
  unfold answers
  rw [hout]
  cases h.outboxes[c]? with
  | none => exact List.map_append
  | some o => simp only [Outbox.offerAll_append, Option.map_some]

/-- An outbox goes through the offers meant for it, whatever else is sent. -/
theorem outboxes_dispatch (ds : List Dispatch) (h : Hub) :
    (dispatch ds h).2.outboxes[c]?
      = (h.outboxes[c]?).map fun o => (o.offerAll (meantFor c ds)).2 := by
  induction ds generalizing h with
  | nil => simp [dispatch, meantFor, Outbox.offerAll]
  | cons d ds ih =>
    obtain ⟨e, cs⟩ := d
    show (dispatch ds (offerEach e cs h).2).2.outboxes[c]? = _
    rw [ih, outboxes_offerEach, Option.map_map]
    unfold meantFor
    simp only [Function.comp_def, List.flatMap_cons, Outbox.offerAll_append]

/-- A connection answers the offers meant for it, whatever else is sent. -/
theorem attempts_dispatch (ds : List Dispatch) (h : Hub) :
    Sending.attempts c (dispatch ds h).1 = h.answers c (meantFor c ds) := by
  induction ds generalizing h with
  | nil => exact answers_nil.symm
  | cons d ds ih =>
    obtain ⟨e, cs⟩ := d
    have hlog : Sending.attempts c (dispatch ((e, cs) :: ds) h).1
        = (Sending.answersOf c ⟨e, (offerEach e cs h).1⟩).map (e, ·)
          ++ Sending.attempts c (dispatch ds (offerEach e cs h).2).1 := List.flatMap_cons
    have hmeant : meantFor c ((e, cs) :: ds)
        = List.replicate (cs.count c) e ++ meantFor c ds := List.flatMap_cons
    rw [hlog, hmeant, ih, answersOf_offerEach, answers_append _ _ (outboxes_offerEach h)]

/-- What is meant for an outbox that is open afterwards is queued to it. -/
theorem stream_dispatch_of_isOpen {ds : List Dispatch} {o' : Outbox}
    (ho' : (dispatch ds h).2.outboxes[c]? = some o') (hopen : o'.isOpen = true) :
    Sending.stream c (dispatch ds h).1 = meantFor c ds
      ∧ ∃ o, h.outboxes[c]? = some o ∧ o.isOpen = true := by
  rw [outboxes_dispatch] at ho'
  obtain ⟨o, ho, rfl⟩ := Option.map_eq_some_iff.mp ho'
  obtain ⟨hbefore, htook⟩ := Outbox.offerAll_of_isOpen hopen
  refine ⟨?_, o, ho, hbefore⟩
  unfold Sending.stream
  rw [attempts_dispatch]
  unfold answers
  simp [ho, htook, List.filter_map, Function.comp_def]

end Hub

end RoomHub
