import RoomHub.Proofs.Hub.Isolation

/-!
# How much an outbox takes

An outbox that is offered a series of events queues the first ones, as many as it has room
for. The next one evicts it, and the others find it closed. So the whole series is told by one
number, the room that is left:

> `Outbox.offerAll_eq`: the answers and the outbox afterwards;
> `Outbox.report_offerAll`: what the series adds to a report.
-/

namespace RoomHub

/-! ## Reports -/

namespace Report

/-- The sum of reports. -/
def sum (rs : List Report) : Report := rs.foldr (· + ·) .zero

/-- Counting an answer adds what it counts for. -/
theorem count_eq_add (d : Delivery) (r : Report) : r.count d = Report.zero.count d + r := by
  ext <;> cases d <;> simp [count, zero] <;> omega

/-- Two sums over one list are added member by member. -/
theorem sum_map_add {α : Type} (f g : α → Report) (as : List α) :
    sum (as.map f) + sum (as.map g) = sum (as.map fun a => f a + g a) := by
  induction as with
  | nil => rfl
  | cons a as ih =>
    show (f a + sum (as.map f)) + (g a + sum (as.map g)) = f a + g a + sum _
    rw [add_add_add_comm, ih]

/-- A sum of reports counts those that have one of what is counted. -/
theorem sum_eq_countP {α : Type} {counted : Report → Nat} {f : α → Report} {p : α → Bool}
    {as : List α} (hzero : counted .zero = 0) (hadd : ∀ a b, counted (a + b) = counted a + counted b)
    (h : ∀ a ∈ as, counted (f a) = if p a then 1 else 0) :
    counted (sum (as.map f)) = as.countP p := by
  induction as with
  | nil => exact hzero
  | cons a as ih =>
    show counted (f a + sum (as.map f)) = _
    rw [hadd, h a List.mem_cons_self, ih fun b hb => h b (List.mem_cons_of_mem a hb),
      List.countP_cons, Nat.add_comm]

theorem add_left_comm (a b c : Report) : a + (b + c) = b + (a + c) := by
  ext
  · simp only [add_delivered]
    omega
  · simp only [add_evicted]
    omega

/-- The sum of reports does not depend on their order. -/
theorem sum_perm {rs rs' : List Report} (hperm : rs.Perm rs') : sum rs = sum rs' :=
  hperm.foldr_eq' (fun a _ b _ r => add_left_comm b a r) .zero

/-- Events that are all answered alike are counted by their number. -/
theorem foldr_answered (es : List Event) (d : Delivery) (r : Report) :
    (es.map (·, d)).foldr (fun a r => r.count a.2) r =
      ⟨r.delivered + (if d = .queued then es.length else 0),
        r.evicted + (if d = .evicted then es.length else 0)⟩ := by
  induction es with
  | nil => simp
  | cons e es ih =>
    rw [List.map_cons, List.foldr_cons, ih]
    cases d <;> simp [count, Nat.add_assoc]

end Report

/-! ## Room in an outbox -/

namespace Outbox

/-- How many events an outbox still takes. -/
def free (o : Outbox) : Nat := if o.isOpen then o.capacity - o.queue.length else 0

/-- What an outbox adds to the report when so many events are offered to it. -/
def share (n : Nat) (o : Outbox) : Report :=
  ⟨min o.free n, if o.isOpen && o.free < n then 1 else 0⟩

variable {o : Outbox} {e : Event}

/-- An outbox is open as long as nobody tripped its signal and its receiver listens. -/
theorem isOpen_iff : o.isOpen = true ↔ o.cancelled = false ∧ o.receiver = .listening := by
  simp [isOpen]

/-- An outbox that is shut ignores what it is offered. -/
theorem offer_of_not_isOpen (hshut : o.isOpen = false) : o.offer e = (.closed, o) := by
  simp [offer, hshut]

/-- A full outbox loses the event and its connection. -/
theorem offer_of_full (hopen : o.isOpen = true) (hfull : o.capacity ≤ o.queue.length) :
    o.offer e = (.evicted, { o with cancelled := true }) := by
  simp [offer, hopen, isFull, hfull]

/-- An outbox with room puts the event at the end of its queue. -/
theorem offer_of_room (hopen : o.isOpen = true) (hroom : o.queue.length < o.capacity) :
    o.offer e = (.queued, { o with queue := o.queue ++ [e] }) := by
  simp [offer, hopen, isFull, hroom]

/-- There is no room in an outbox that is shut. -/
theorem free_of_not_isOpen (hshut : o.isOpen = false) : o.free = 0 := by
  simp [free, hshut]

/-- An open outbox has the room that its queue does not take. -/
theorem free_of_isOpen (hopen : o.isOpen = true) : o.free = o.capacity - o.queue.length := by
  simp [free, hopen]

/-- An outbox that is shut ignores every event of a series. -/
theorem offerAll_of_not_isOpen (hshut : o.isOpen = false) (es : List Event) :
    o.offerAll es = (es.map (·, .closed), o) := by
  induction es with
  | nil => rfl
  | cons e es ih => simp [offerAll, offer_of_not_isOpen hshut, ih]

/-- The outbox with events behind those that wait. -/
def queued (es : List Event) (o : Outbox) : Outbox := { o with queue := o.queue ++ es }

/-- An event in the queue takes one place. -/
theorem free_queued (e : Event) (o : Outbox) : (o.queued [e]).free = o.free - 1 := by
  unfold free
  show (if o.isOpen then o.capacity - (o.queue ++ [e]).length else 0) = _
  rw [List.length_append, List.length_singleton]
  split <;> omega

/-- The three things that an offer can do. -/
theorem offer_cases (e : Event) (o : Outbox) :
    (o.isOpen = false ∧ o.offer e = (.closed, o)) ∨
      (o.isOpen = true ∧ o.capacity ≤ o.queue.length ∧
        o.offer e = (.evicted, { o with cancelled := true })) ∨
      (o.isOpen = true ∧ o.queue.length < o.capacity ∧ o.offer e = (.queued, o.queued [e])) := by
  cases hopen : o.isOpen with
  | false => exact .inl ⟨rfl, offer_of_not_isOpen hopen⟩
  | true =>
    by_cases hroom : o.queue.length < o.capacity
    · exact .inr (.inr ⟨rfl, hroom, offer_of_room hopen hroom⟩)
    · have hfull : o.capacity ≤ o.queue.length := Nat.le_of_not_lt hroom
      exact .inr (.inl ⟨rfl, hfull, offer_of_full hopen hfull⟩)

/-- What an outbox answers to events that it has no room for: the first one evicts it. -/
def refuse (o : Outbox) : List Event → List (Event × Delivery)
  | [] => []
  | e :: rest => (e, if o.isOpen then .evicted else .closed) :: rest.map (·, .closed)

/-- An outbox that was offered events: those that it has room for are queued, and when there
are more its close signal is tripped. -/
def filled (es : List Event) (o : Outbox) : Outbox :=
  { o.queued (es.take o.free) with
    cancelled := o.cancelled || (o.isOpen && decide (o.free < es.length)) }

/-- As long as there is room, a series is queued one event after the other. -/
theorem filled_cons {es : List Event} (hroom : 0 < o.free) :
    (o.queued [e]).filled es = o.filled (e :: es) := by
  have hfree : o.free = (o.queued [e]).free + 1 := by
    rw [free_queued]
    omega
  have hqueued : (o.queued [e]).queued (es.take (o.queued [e]).free) =
      o.queued ((e :: es).take o.free) := by
    rw [hfree, List.take_succ_cons]
    simp [queued]
  have htripped : ((o.queued [e]).isOpen && decide ((o.queued [e]).free < es.length)) =
      (o.isOpen && decide (o.free < (e :: es).length)) := by
    rw [hfree, List.length_cons]
    simp only [Nat.add_lt_add_iff_right]
    rfl
  unfold filled
  rw [hqueued, htripped]
  rfl

/-- A series of offers is answered by what there is room for, and then by refusals. -/
theorem offerAll_eq (es : List Event) (o : Outbox) :
    o.offerAll es =
      ((es.take o.free).map (·, .queued) ++ o.refuse (es.drop o.free), o.filled es) := by
  cases hopen : o.isOpen with
  | false =>
    rw [offerAll_of_not_isOpen hopen, free_of_not_isOpen hopen]
    cases es <;> simp [refuse, filled, queued, hopen, free_of_not_isOpen hopen]
  | true =>
    induction es generalizing o with
    | nil => simp [offerAll, refuse, filled, queued]
    | cons e es ih =>
      by_cases hroom : o.queue.length < o.capacity
      · have hfree : o.free = (o.queued [e]).free + 1 := by
          rw [free_queued, free_of_isOpen hopen]
          omega
        have hfirst : o.offer e = (.queued, o.queued [e]) := offer_of_room hopen hroom
        simp only [offerAll, hfirst, ih (o.queued [e]) hopen]
        rw [filled_cons (by omega), hfree]
        rfl
      · have hfree : o.free = 0 := by
          rw [free_of_isOpen hopen]
          omega
        have hshut : ({ o with cancelled := true } : Outbox).isOpen = false := by simp [isOpen]
        simp only [offerAll, offer_of_full hopen (Nat.le_of_not_lt hroom),
          offerAll_of_not_isOpen hshut]
        simp [refuse, filled, queued, hfree, hopen]

/-- An outbox with enough room takes all events. -/
theorem offerAll_of_fits {es : List Event} (hfits : es.length ≤ o.free) :
    o.offerAll es = (es.map (·, .queued), o.queued es) := by
  have hfilled : o.filled es = o.queued es := by
    unfold filled
    simp [List.take_of_length_le hfits, Nat.not_lt.mpr hfits, queued]
  rw [offerAll_eq, List.take_of_length_le hfits, List.drop_of_length_le hfits, hfilled]
  exact congrArg (·, _) (List.append_nil _)

/-- Nothing of what is refused was queued. -/
theorem ne_queued_of_mem_refuse {es : List Event} {a : Event × Delivery} (ha : a ∈ o.refuse es) :
    a.2 ≠ .queued := by
  cases es with
  | nil => cases ha
  | cons e es =>
    rcases List.mem_cons.mp ha with rfl | ha
    · cases o.isOpen <;> simp
    · obtain ⟨f, -, rfl⟩ := List.mem_map.mp ha
      exact Delivery.noConfusion

/-- An outbox that was offered more than it had room for is shut. -/
theorem isOpen_filled_of_free_lt {es : List Event} (hfew : o.free < es.length) :
    (o.filled es).isOpen = false := by
  show (!(o.cancelled || (o.isOpen && decide (o.free < es.length))) &&
    decide (o.receiver = .listening)) = false
  cases hopen : o.isOpen with
  | true => simp [hfew]
  | false =>
    rw [Bool.false_and, Bool.or_false]
    exact hopen

/-- Of what is refused, the first offer may have evicted. -/
theorem report_refuse (es : List Event) (o : Outbox) :
    (o.refuse es).foldr (fun a r => r.count a.2) Report.zero =
      (⟨0, if o.isOpen && decide (0 < es.length) then 1 else 0⟩ : Report) := by
  cases es with
  | nil => simp [refuse, Report.zero]
  | cons e es =>
    unfold refuse
    rw [List.foldr_cons, Report.foldr_answered]
    cases o.isOpen <;> simp [Report.count, Report.zero]

/-- The report on a series of offers. -/
theorem report_offerAll (es : List Event) (o : Outbox) :
    (o.offerAll es).1.foldr (fun a r => r.count a.2) .zero = o.share es.length := by
  have hmore : decide (0 < (es.drop o.free).length) = decide (o.free < es.length) := by
    rw [decide_eq_decide, List.length_drop]
    omega
  rw [offerAll_eq, List.foldr_append, report_refuse, hmore, Report.foldr_answered]
  simp [share]

/-- An offer, and another one, add to the report what the outbox has room for. -/
theorem count_offer_offer (e f : Event) (o : Outbox) :
    Report.zero.count (o.offer e).1 + Report.zero.count ((o.offer e).2.offer f).1 = o.share 2 := by
  rw [← Report.count_eq_add]
  exact o.report_offerAll [e, f]

end Outbox

end RoomHub
