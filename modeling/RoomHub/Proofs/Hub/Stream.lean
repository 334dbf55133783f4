import RoomHub.Proofs.Hub.Membership

/-!
# The stream of one connection

What was offered to a connection and how it answered, what was taken from its queue and
what is still in it, over a whole run. The invariant is `Outbox.Account`: the answers split
into those that queued their event and those that did not, in this order; what was taken
and what still waits make up the first part; and there is a second part only if the outbox
is shut. Nothing reopens an outbox, so a later offer can only make the second part longer.

> `stream_has_no_hole`: the account holds after every run;
> `stream_eq_filter`: each stream is the one log of sendings, less those that the
> connection did not get, so all connections see their sendings in one order.
-/

namespace RoomHub

open Std (ExtTreeMap)

namespace Outbox

variable {o : Outbox} {e : Event} {queued taken : List Event}
  {refused answers : List (Event × Delivery)}

/-! ## The account of an outbox -/

/-- The state of an outbox after some events were queued and later offers were refused. -/
structure Settled (queued : List Event) (refused : List (Event × Delivery)) (taken : List Event)
    (o : Outbox) : Prop where
  inOrder : o.receiver ≠ .dropped → taken ++ o.queue = queued
  notQueued : ∀ a ∈ refused, a.2 ≠ .queued
  closedAfter : ∀ a ∈ refused.tail, a.2 = .closed
  tripped : (∃ a ∈ refused, a.2 = .evicted) → o.cancelled = true
  shut : refused ≠ [] → o.isOpen = false

/-- The answers of an outbox, with what was taken from it, account for its state. -/
def Account (answers : List (Event × Delivery)) (taken : List Event) (o : Outbox) : Prop :=
  ∃ queued refused, answers = queued.map (·, Delivery.queued) ++ refused ∧
    Settled queued refused taken o

/-- An empty outbox that nothing was offered to accounts for that. -/
theorem account_of_empty (hqueue : o.queue = []) : Account [] [] o := by
  refine ⟨[], [], rfl, fun _ => hqueue, ?_, ?_, ?_, fun h => absurd rfl h⟩
  · intro a ha
    cases ha
  · intro a ha
    cases ha
  · intro hevicted
    obtain ⟨a, ha, -⟩ := hevicted
    cases ha

/-- An open outbox has refused nothing yet. -/
theorem Settled.eq_nil_of_isOpen (hs : Settled queued refused taken o)
    (hopen : o.isOpen = true) : refused = [] := by
  refine Classical.byContradiction fun hne => ?_
  rw [hs.shut hne] at hopen
  cases hopen

/-- A shut outbox refuses, and stays as it was. -/
theorem Settled.offer_of_shut (hs : Settled queued refused taken o) (hshut : o.isOpen = false) :
    Settled queued (refused ++ [(e, .closed)]) taken o where
  inOrder := hs.inOrder
  notQueued a ha := by
    rcases List.mem_append.mp ha with ha | ha
    · exact hs.notQueued a ha
    · rw [List.mem_singleton.mp ha]
      exact fun h => by cases h
  closedAfter a ha := by
    cases refused with
    | nil => cases ha
    | cons first rest =>
      rcases List.mem_append.mp ha with ha | ha
      · exact hs.closedAfter a ha
      · rw [List.mem_singleton.mp ha]
  tripped := by
    intro hevicted
    obtain ⟨a, ha, hev⟩ := hevicted
    rcases List.mem_append.mp ha with ha | ha
    · exact hs.tripped ⟨a, ha, hev⟩
    · rw [List.mem_singleton.mp ha] at hev
      cases hev
  shut _ := hshut

/-- The first refusal of an open outbox is an eviction, which trips the close signal. -/
theorem Settled.offer_of_full (hs : Settled queued [] taken o) :
    Settled queued [(e, .evicted)] taken { o with cancelled := true } where
  inOrder := hs.inOrder
  notQueued a ha := by
    rw [List.mem_singleton.mp ha]
    exact fun h => by cases h
  closedAfter a ha := by cases ha
  tripped _ := rfl
  shut _ := by simp [isOpen]

/-- An open outbox with room left queues behind everything queued before. -/
theorem Settled.offer_of_room (hs : Settled queued [] taken o) :
    Settled (queued ++ [e]) [] taken { o with queue := o.queue ++ [e] } where
  inOrder hkept := by
    rw [← hs.inOrder hkept, List.append_assoc]
  notQueued a ha := by cases ha
  closedAfter a ha := by cases ha
  tripped := by
    intro hevicted
    obtain ⟨a, ha, -⟩ := hevicted
    cases ha
  shut h := absurd rfl h

/-- An eviction is the first refusal. -/
theorem Settled.head?_of_evicted {a : Event × Delivery} (hs : Settled queued refused taken o)
    (ha : a ∈ queued.map (·, Delivery.queued) ++ refused) (hev : a.2 = .evicted) :
    refused.head? = some a := by
  rcases List.mem_append.mp ha with ha | ha
  · obtain ⟨e, -, rfl⟩ := List.mem_map.mp ha
    cases hev
  · cases refused with
    | nil => cases ha
    | cons first rest =>
      rcases List.mem_cons.mp ha with rfl | ha
      · rfl
      · have hclosed := hs.closedAfter a ha
        rw [hev] at hclosed
        cases hclosed

/-- There is one eviction at most. -/
theorem Settled.countP_evicted (hs : Settled queued refused taken o) :
    (queued.map (·, Delivery.queued) ++ refused).countP (·.2 = .evicted) ≤ 1 := by
  have hqueued : (queued.map (·, Delivery.queued)).countP (·.2 = .evicted) = 0 := by
    rw [List.countP_eq_zero]
    intro a ha
    obtain ⟨e, -, rfl⟩ := List.mem_map.mp ha
    simp
  rw [List.countP_append, hqueued, Nat.zero_add]
  cases refused with
  | nil => exact Nat.zero_le 1
  | cons first rest =>
    have hrest : rest.countP (·.2 = .evicted) = 0 := by
      rw [List.countP_eq_zero]
      intro a ha
      rw [hs.closedAfter a ha]
      simp
    rw [List.countP_cons, hrest]
    split <;> omega

/-- One more offer is accounted for. -/
theorem Account.offer (ha : Account answers taken o) (e : Event) :
    Account (answers ++ [(e, (o.offer e).1)]) taken (o.offer e).2 := by
  obtain ⟨queued, refused, rfl, hs⟩ := ha
  unfold Outbox.offer
  cases hopen : o.isOpen with
  | false =>
    refine ⟨queued, refused ++ [(e, .closed)], ?_, hs.offer_of_shut hopen⟩
    exact List.append_assoc _ _ _
  | true =>
    -- an open outbox has refused nothing so far
    have hnone := hs.eq_nil_of_isOpen hopen
    subst hnone
    cases hfull : o.isFull with
    | true =>
      refine ⟨queued, [(e, .evicted)], ?_, hs.offer_of_full⟩
      simp
    | false =>
      refine ⟨queued ++ [e], [], ?_, hs.offer_of_room⟩
      simp

/-- A series of offers is accounted for. -/
theorem Account.offerAll (ha : Account answers taken o) (es : List Event) :
    Account (answers ++ (o.offerAll es).1) taken (o.offerAll es).2 := by
  induction es generalizing answers o with
  | nil =>
    show Account (answers ++ []) taken o
    rw [List.append_nil]
    exact ha
  | cons e es ih =>
    have hrest := ih (ha.offer e)
    rw [List.append_assoc] at hrest
    exact hrest

/-- Taking from the front moves events from the queue to what was taken. -/
theorem Account.take (ha : Account answers taken o) (n : Nat) :
    Account answers (taken ++ (o.take n).1) (o.take n).2 := by
  obtain ⟨queued, refused, hans, hs⟩ := ha
  refine ⟨queued, refused, hans, ?_, hs.notQueued, hs.closedAfter, hs.tripped, hs.shut⟩
  intro hkept
  show taken ++ o.queue.take n ++ o.queue.drop n = queued
  rw [List.append_assoc, List.take_append_drop]
  exact hs.inOrder hkept

/-- An update that shuts an outbox further, and keeps the queue unless it drops it, does
not disturb the account. -/
theorem Account.shutting {f : Outbox → Outbox} (ha : Account answers taken o)
    (hqueue : (f o).receiver ≠ .dropped → o.receiver ≠ .dropped ∧ (f o).queue = o.queue)
    (hcancelled : o.cancelled = true → (f o).cancelled = true)
    (hshut : o.isOpen = false → (f o).isOpen = false) : Account answers taken (f o) := by
  obtain ⟨queued, refused, hans, hs⟩ := ha
  refine ⟨queued, refused, hans, ?_, hs.notQueued, hs.closedAfter,
    fun hev => hcancelled (hs.tripped hev), fun hne => hshut (hs.shut hne)⟩
  intro hkept
  obtain ⟨hbefore, hsame⟩ := hqueue hkept
  rw [hsame]
  exact hs.inOrder hbefore

/-- Closing the outbox is accounted for. -/
theorem Account.closeReceiver (ha : Account answers taken o) :
    Account answers taken o.closeReceiver := by
  refine ha.shutting (fun hkept => ?_) (fun hc => ?_) fun _ => ?_
  · unfold Outbox.closeReceiver at hkept ⊢
    split at hkept
    next hlistening =>
      rw [hlistening, if_pos rfl]
      exact ⟨Receiver.noConfusion, rfl⟩
    next hnot => exact ⟨hkept, by rw [if_neg hnot]⟩
  · unfold Outbox.closeReceiver
    split <;> exact hc
  · exact o.isOpen_closeReceiver

/-- Dropping the outbox with its queue is accounted for. -/
theorem Account.dropReceiver (ha : Account answers taken o) :
    Account answers taken o.dropReceiver := by
  refine ha.shutting (fun hkept => absurd rfl hkept) (fun hc => hc) fun _ => ?_
  exact o.isOpen_dropReceiver

/-- Tripping the signal is accounted for. -/
theorem Account.cancel (ha : Account answers taken o) : Account answers taken o.cancel := by
  refine ha.shutting (fun hkept => ⟨hkept, rfl⟩) (fun _ => rfl) fun _ => ?_
  exact o.isOpen_cancel

end Outbox

namespace Hub

variable {h : Hub} {c d : ConnectionId}

/-! ## Recorded runs -/

/-- What a step takes from the queue of a connection. -/
def taken : Step → Hub → ConnectionId → List Event
  | .receive c n, h, d => if c = d then (h.take c n).1 else []
  | _, _, _ => []

/-- A hub with everything that was sent so far and everything that was received. -/
structure Record where
  hub : Hub
  log : List Sending
  received : ConnectionId → List Event

namespace Record

/-- The record when nothing has happened yet. -/
def start (h : Hub) : Record := ⟨h, [], fun _ => []⟩

/-- The record after a step. -/
def act (x : Record) (a : Step) : Record :=
  { hub := Hub.act a x.hub
    log := x.log ++ sends a x.hub
    received := fun c => x.received c ++ taken a x.hub c }

/-- The record after a run. -/
def run (x : Record) (steps : List Step) : Record := steps.foldl act x

/-- A run in two parts is recorded part by part. -/
theorem run_append (as bs : List Step) (x : Record) :
    x.run (as ++ bs) = (x.run as).run bs :=
  List.foldl_append

/-- The log only grows. -/
theorem log_prefix_run (steps : List Step) (x : Record) : x.log <+: (x.run steps).log := by
  induction steps generalizing x with
  | nil => exact List.prefix_refl _
  | cons a steps ih => exact (List.prefix_append _ _).trans (ih (x.act a))

end Record

/-- The step's own answers are the last ones in the log. -/
theorem attempts_sends (a : Step) (h : Hub) (c : ConnectionId) :
    Sending.attempts c (sends a h) = h.answers c (meantFor c (dispatches a h)) :=
  attempts_dispatch _ h

/-- Each event that a step means for a connection is offered to it once, in order. -/
theorem map_fst_attempts_sends (a : Step) (h : Hub) (c : ConnectionId) :
    (Sending.attempts c (sends a h)).map (·.1) = meantFor c (dispatches a h) := by
  rw [attempts_sends, answers_map_fst]

theorem taken_of_isSending {a : Step} (ha : a.isSending = true) (h : Hub) :
    taken a h c = [] := by
  cases a <;> first | rfl | cases ha

/-! ## Broadcasts report what the log says -/

/-- A broadcast reports what its one sending says. -/
theorem broadcast_fst (r : RoomId) (e : Event) (h : Hub) :
    (sends (.broadcast r e) h).map Sending.report = [(h.broadcast r e).1] := by
  unfold broadcast
  rw [fanOut_eq]
  rfl

/-- A presence broadcast reports the sum over its sendings. -/
theorem broadcastPresence_fst (r : RoomId) (s : Scope) (h : Hub) :
    ((sends (.broadcastPresence r s) h).map Sending.report).foldr (· + ·) .zero
      = (h.broadcastPresence r s).1 := by
  cases s with
  | call =>
    have hcall := broadcast_fst r (.callParticipants (h.callParticipants r)) h
    show (List.map Sending.report (sends (.broadcast r _) h)).foldr (· + ·) .zero = _
    rw [hcall]
    rfl
  | room =>
    have hpeople := broadcast_snd r (.participants (h.participants r)) h
    unfold broadcastPresence
    simp only [broadcast, fanOut_eq]
    rw [offerEach_registry]
    rfl

/-! ## The account holds along a run -/

/-- The account of one connection holds in a record. -/
def Record.Sound (c : ConnectionId) (x : Record) : Prop :=
  ∃ o, x.hub.outboxes[c]? = some o ∧
    Outbox.Account (Sending.attempts c x.log) (x.received c) o

/-- A step that does to the outbox of a connection what keeps its account is sound. -/
theorem Record.Sound.update {x : Record} {f : Outbox → Outbox} {a : Step} (hx : x.Sound c)
    (hact : Hub.act a x.hub = x.hub.updateOutbox d f) (hsends : sends a x.hub = [])
    (htaken : d ≠ c → taken a x.hub c = [])
    (hf : d = c → ∀ o, x.hub.outboxes[c]? = some o →
      Outbox.Account (Sending.attempts c x.log) (x.received c) o →
      Outbox.Account (Sending.attempts c x.log) (x.received c ++ taken a x.hub c) (f o)) :
    (x.act a).Sound c := by
  obtain ⟨o, ho, hacc⟩ := hx
  show ∃ o, (Hub.act a x.hub).outboxes[c]? = some o ∧ Outbox.Account
    (Sending.attempts c (x.log ++ sends a x.hub)) (x.received c ++ taken a x.hub c) o
  rw [hact, hsends, List.append_nil, outboxes_updateOutbox]
  by_cases hdc : d = c
  · subst hdc
    rw [if_pos rfl, ho]
    exact ⟨f o, rfl, hf rfl o ho hacc⟩
  · rw [if_neg hdc, htaken hdc]
    exact ⟨o, ho, by rw [List.append_nil]; exact hacc⟩

/-- The account of a connection holds after whatever is sent. -/
theorem Record.Sound.send {x : Record} {a : Step} (hx : x.Sound c) (ha : a.isSending = true) :
    (x.act a).Sound c := by
  obtain ⟨o, ho, hacc⟩ := hx
  have hanswers : x.hub.answers c (meantFor c (dispatches a x.hub))
      = (o.offerAll (meantFor c (dispatches a x.hub))).1 := by
    unfold answers
    rw [ho]
  show ∃ o, (Hub.act a x.hub).outboxes[c]? = some o ∧ Outbox.Account
    (Sending.attempts c (x.log ++ sends a x.hub)) (x.received c ++ taken a x.hub c) o
  rw [act_of_isSending ha, outboxes_dispatch, ho, Sending.attempts_append, attempts_sends,
    hanswers, taken_of_isSending ha, List.append_nil]
  exact ⟨_, rfl, hacc.offerAll _⟩

/-- The account of a connection holds after every step. -/
theorem Record.Sound.act {x : Record} (hx : x.Sound c) (a : Step) : (x.act a).Sound c := by
  cases a with
  | attach | detach | setInCall =>
    obtain ⟨o, ho, hacc⟩ := hx
    refine ⟨o, ?_, ?_⟩
    · exact (congrArg (·[c]?) (outboxes_act_of_isMembership rfl x.hub)).trans ho
    · show Outbox.Account (Sending.attempts c (x.log ++ [])) (x.received c ++ []) o
      rw [List.append_nil, List.append_nil]
      exact hacc
  | broadcast | broadcastPresence | pushTo | pushCallParticipants | deliver =>
    exact hx.send rfl
  | receive d n =>
    refine hx.update (take_snd d n x.hub) rfl (fun hdc => if_neg hdc) fun hdc o ho hacc => ?_
    subst hdc
    have htaken : taken (.receive d n) x.hub d = (o.take n).1 := by
      show (if d = d then _ else _) = _
      rw [if_pos rfl, take_fst, ho]
      rfl
    rw [htaken]
    exact hacc.take n
  | closeReceiver d =>
    refine hx.update rfl rfl (fun _ => rfl) fun _ o _ hacc => ?_
    rw [show taken (.closeReceiver d) x.hub c = [] from rfl, List.append_nil]
    exact hacc.closeReceiver
  | dropReceiver d =>
    refine hx.update rfl rfl (fun _ => rfl) fun _ o _ hacc => ?_
    rw [show taken (.dropReceiver d) x.hub c = [] from rfl, List.append_nil]
    exact hacc.dropReceiver
  | cancel d =>
    refine hx.update rfl rfl (fun _ => rfl) fun _ o _ hacc => ?_
    rw [show taken (.cancel d) x.hub c = [] from rfl, List.append_nil]
    exact hacc.cancel

/-- The account of a connection holds after every run. -/
theorem Record.Sound.run {x : Record} (hx : x.Sound c) (steps : List Step) :
    (x.run steps).Sound c := by
  induction steps generalizing x with
  | nil => exact hx
  | cons a steps ih => exact ih (hx.act a)

end Hub

/-! ## One log for all connections -/

namespace Sending

variable {s : Sending} {log : List Sending} {c d : ConnectionId}

/-- The stream is the part of the answers that queued their event. -/
theorem stream_eq_queued {queued : List Event} {refused : List (Event × Delivery)}
    (hans : attempts c log = queued.map (·, Delivery.queued) ++ refused)
    (hrefused : ∀ a ∈ refused, a.2 ≠ .queued) : stream c log = queued := by
  have hnone : refused.filter (·.2 = .queued) = [] := by
    rw [List.filter_eq_nil_iff]
    intro a ha
    simpa using hrefused a ha
  unfold stream
  rw [hans, List.filter_append, hnone, List.append_nil]
  simp [List.filter_map, Function.comp_def]

/-- Whether a connection got the event of a sending. -/
def reached (c : ConnectionId) (s : Sending) : Bool := (c, Delivery.queued) ∈ s.answers

/-- No connection is named twice in a sending. -/
def Once (s : Sending) : Prop := (s.answers.map (·.1)).Nodup

/-- A sending adds its event to the stream of whom it reached. -/
theorem stream_singleton (hs : s.Once) :
    stream c [s] = if s.reached c then [s.event] else [] := by
  obtain ⟨e, as⟩ := s
  unfold Once at hs
  unfold stream attempts reached answersOf
  simp only [List.flatMap_cons, List.flatMap_nil, List.append_nil]
  induction as with
  | nil => rfl
  | cons a as ih =>
    obtain ⟨a, x⟩ := a
    rw [List.map_cons, List.nodup_cons] at hs
    by_cases hac : a = c
    · subst hac
      have hnone : as.filter (·.1 = a) = [] := by
        rw [List.filter_eq_nil_iff]
        intro other hb hba
        obtain ⟨b, y⟩ := other
        replace hba : b = a := by simpa using hba
        exact hs.1 (List.mem_map.mpr ⟨(b, y), hb, hba⟩)
      have hmem : (a, Delivery.queued) ∉ as := fun hin =>
        hs.1 (List.mem_map.mpr ⟨_, hin, rfl⟩)
      cases x <;> simp [hnone, hmem]
    · have hskip : ((a, x) :: as).filter (·.1 = c) = as.filter (·.1 = c) := by
        simp [hac]
      have hmem : (c, Delivery.queued) ∈ (a, x) :: as ↔ (c, Delivery.queued) ∈ as := by
        simp [Ne.symm hac]
      simp only [hskip, hmem]
      exact ih hs.2

/-- The stream of a connection is the log, less what the connection did not get. -/
theorem stream_eq_filter (hlog : ∀ s ∈ log, Once s) :
    stream c log = (log.filter (reached c)).map (·.event) := by
  induction log with
  | nil => rfl
  | cons s log ih =>
    have hsplit : stream c (s :: log) = stream c [s] ++ stream c log := stream_append c [s] log
    rw [hsplit, stream_singleton (hlog s List.mem_cons_self),
      ih fun s' hs' => hlog s' (List.mem_cons_of_mem s hs')]
    cases hreached : s.reached c with
    | true => rw [List.filter_cons_of_pos hreached]; rfl
    | false => rw [List.filter_cons_of_neg (by rw [hreached]; exact Bool.noConfusion)]; rfl

/-- What two connections both got stands in the stream of each, in the order of the log. -/
theorem sublist_stream (hlog : ∀ s ∈ log, Once s) :
    ((log.filter fun s => s.reached c && s.reached d).map (·.event)).Sublist (stream c log) := by
  rw [stream_eq_filter hlog]
  have hboth : (log.filter fun s => s.reached c && s.reached d)
      = (log.filter (reached c)).filter (reached d) := by
    rw [List.filter_filter]
    simp only [Bool.and_comm]
  rw [hboth]
  exact List.Sublist.map _ List.filter_sublist

end Sending

namespace Hub

variable {h : Hub} {c d : ConnectionId}

/-- Everybody on a list answers once, in the order of the list. -/
theorem offerEach_map_fst (e : Event) (cs : List ConnectionId) (h : Hub) :
    (offerEach e cs h).1.map (·.1) = cs := by
  induction cs generalizing h with
  | nil => rfl
  | cons c cs ih => exact congrArg (c :: ·) (ih _)

/-- Each sending of a step goes to connections that are all different. -/
theorem once_of_mem_dispatch {ds : List Dispatch} (hds : ∀ d ∈ ds, d.2.Nodup) {s : Sending}
    (hs : s ∈ (dispatch ds h).1) : s.Once := by
  induction ds generalizing h with
  | nil => cases hs
  | cons d ds ih =>
    obtain ⟨e, cs⟩ := d
    rcases List.mem_cons.mp hs with rfl | hs
    · show ((offerEach e cs h).1.map (·.1)).Nodup
      rw [offerEach_map_fst]
      exact hds _ List.mem_cons_self
    · exact ih (fun d hd => hds d (List.mem_cons_of_mem _ hd)) hs

/-- No step offers one event twice to one connection. -/
theorem nodup_dispatches (hg : h.registry.Mirrored) (a : Step) :
    ∀ d ∈ dispatches a h, d.2.Nodup := by
  have hroom : ∀ r, (h.roomIds r).Nodup := fun r => hg.nodup_connections
  have hone : ∀ c : ConnectionId, [c].Nodup := fun c => by simp
  intro d hd
  cases a with
  | broadcast r e =>
    rw [List.mem_singleton.mp hd]
    exact hroom r
  | broadcastPresence r s =>
    cases s with
    | call =>
      rw [List.mem_singleton.mp hd]
      exact hroom r
    | room =>
      rcases List.mem_cons.mp hd with rfl | hd
      · exact hroom r
      · rw [List.mem_singleton.mp hd]
        exact hroom r
  | pushTo c e =>
    replace hd : d ∈ if (h.registry.connection? c).isSome then [(e, [c])] else [] := hd
    split at hd
    next =>
      rw [List.mem_singleton.mp hd]
      exact hone c
    next => cases hd
  | pushCallParticipants c =>
    cases hc : h.registry.connection? c with
    | none =>
      simp only [dispatches, hc] at hd
      cases hd
    | some handle =>
      simp only [dispatches, hc] at hd
      rw [List.mem_singleton.mp hd]
      exact hone c
  | deliver c e =>
    rw [List.mem_singleton.mp hd]
    exact hone c
  | attach | detach | setInCall | receive | closeReceiver | dropReceiver | cancel => cases hd

/-- In no run is one sending made twice to one connection. -/
theorem once_run {x : Record} (hg : x.hub.registry.Mirrored) (hx : ∀ s ∈ x.log, s.Once)
    (steps : List Step) : ∀ s ∈ (x.run steps).log, s.Once := by
  induction steps generalizing x with
  | nil => exact hx
  | cons a steps ih =>
    refine ih (mirrored_act hg) fun s hs => ?_
    -- the registry is mirrored before each step, so the step names nobody twice
    rcases List.mem_append.mp hs with hs | hs
    · exact hx s hs
    · exact once_of_mem_dispatch (nodup_dispatches hg a) hs

/-! ## Every run -/

/-- The record of a run from an idle hub. -/
def recorded (outboxes : ExtTreeMap ConnectionId Outbox) (steps : List Step) : Record :=
  (Record.start (idle outboxes)).run steps

/-- What a connection answers over a run splits into the events queued to it and those it
refused. The first part is what was received and what still waits, in order; an eviction
can only be the first refusal, and trips the close signal for good. What two connections
both got, they got in one order. -/
theorem stream_has_no_hole {outboxes : ExtTreeMap ConnectionId Outbox} {o₀ : Outbox}
    (h₀ : outboxes[c]? = some o₀) (hempty : o₀.queue = []) (steps : List Step) :
    ∃ o refused, (recorded outboxes steps).hub.outboxes[c]? = some o ∧
      Sending.attempts c (recorded outboxes steps).log
        = (Sending.stream c (recorded outboxes steps).log).map (·, .queued) ++ refused ∧
      (∀ a ∈ refused, a.2 ≠ .queued) ∧
      (o.receiver ≠ .dropped →
        (recorded outboxes steps).received c ++ o.queue
          = Sending.stream c (recorded outboxes steps).log) ∧
      (Sending.attempts c (recorded outboxes steps).log).countP (·.2 = .evicted) ≤ 1 ∧
      (∀ a ∈ Sending.attempts c (recorded outboxes steps).log,
        a.2 = .evicted → refused.head? = some a) ∧
      (∀ pre a, pre <+: steps →
        a ∈ Sending.attempts c (recorded outboxes pre).log →
        a.2 = .evicted → o.cancelled = true) ∧
      (∀ d d',
        let both := (recorded outboxes steps).log.filter fun s =>
          s.reached d && s.reached d'
        (both.map (·.event)).Sublist (Sending.stream d (recorded outboxes steps).log) ∧
          (both.map (·.event)).Sublist (Sending.stream d' (recorded outboxes steps).log)) := by
  have hstart : (Record.start (idle outboxes)).Sound c :=
    ⟨o₀, h₀, Outbox.account_of_empty hempty⟩
  have hsound : (recorded outboxes steps).Sound c := hstart.run steps
  have honce : ∀ s ∈ (recorded outboxes steps).log, s.Once :=
    once_run (x := .start (idle outboxes)) Registry.mirrored_empty (fun s hs => by cases hs) steps
  obtain ⟨o, ho, queued, refused, hans, hs⟩ := hsound
  have hstream := Sending.stream_eq_queued hans hs.notQueued
  have hhead : ∀ a ∈ Sending.attempts c (recorded outboxes steps).log,
      a.2 = .evicted → refused.head? = some a := by
    intro a ha hev
    rw [hans] at ha
    exact hs.head?_of_evicted ha hev
  refine ⟨o, refused, ho, ?_, hs.notQueued, ?_, ?_, hhead, ?_, ?_⟩
  · rw [hstream]
    exact hans
  · rw [hstream]
    exact hs.inOrder
  · rw [hans]
    exact hs.countP_evicted
  · intro pre a hpre ha hev
    obtain ⟨rest, rfl⟩ := hpre
    -- what was answered early is still in the log at the end
    have hrun : recorded outboxes (pre ++ rest) = (recorded outboxes pre).run rest :=
      Record.run_append pre rest _
    obtain ⟨more, hmore⟩ := Record.log_prefix_run rest (recorded outboxes pre)
    refine hs.tripped ⟨a, ?_, hev⟩
    refine List.mem_of_mem_head? (Option.mem_def.mpr (hhead a ?_ hev))
    rw [hrun, ← hmore, Sending.attempts_append]
    exact List.mem_append_left _ ha
  · intro d d'
    refine ⟨Sending.sublist_stream honce, ?_⟩
    simp only [Bool.and_comm (Sending.reached d _)]
    exact Sending.sublist_stream honce

/-- A run on a queue of length one: the second event evicts, and room that is made
afterwards lets no third one in. -/
def tightRun (c : ConnectionId) (r : RoomId) : List Step :=
  [.attach ⟨c, r, default⟩, .broadcast r (.participants []),
    .broadcast r (.callParticipants []), .receive c 1, .broadcast r (.history [])]

/-- An outbox of one place takes the first of two events and is evicted by the second. -/
theorem stream_has_no_hole_tight :
    Sending.stream ⟨⟨1⟩⟩ (recorded (ExtTreeMap.insert ∅ ⟨⟨1⟩⟩ ⟨1, [], .listening, false, by decide⟩)
      (tightRun ⟨⟨1⟩⟩ ⟨⟨1⟩⟩)).log = [.participants []] ∧
    ∃ o, (recorded (ExtTreeMap.insert ∅ ⟨⟨1⟩⟩ ⟨1, [], .listening, false, by decide⟩)
        (tightRun ⟨⟨1⟩⟩ ⟨⟨1⟩⟩)).hub.outboxes[(⟨⟨1⟩⟩ : ConnectionId)]? = some o ∧
      (o.receiver ≠ .dropped →
        (recorded (ExtTreeMap.insert ∅ ⟨⟨1⟩⟩ ⟨1, [], .listening, false, by decide⟩)
          (tightRun ⟨⟨1⟩⟩ ⟨⟨1⟩⟩)).received ⟨⟨1⟩⟩ ++ o.queue = [.participants []]) ∧
      o.cancelled = true := by
  have hstream : Sending.stream ⟨⟨1⟩⟩
      (recorded (ExtTreeMap.insert ∅ ⟨⟨1⟩⟩ ⟨1, [], .listening, false, by decide⟩)
        (tightRun ⟨⟨1⟩⟩ ⟨⟨1⟩⟩)).log = [.participants []] := by decide +kernel
  obtain ⟨o, refused, ho, -, -, horder, -, -, htripped, -⟩ :=
    stream_has_no_hole (c := ⟨⟨1⟩⟩) (ExtTreeMap.getElem?_insert_self (t := ∅)
      (v := ⟨1, [], .listening, false, by decide⟩)) rfl (tightRun ⟨⟨1⟩⟩ ⟨⟨1⟩⟩)
  rw [hstream] at horder
  refine ⟨hstream, o, ho, horder, ?_⟩
  exact htripped _ (.callParticipants [], .evicted) (List.prefix_refl _) (by decide +kernel) rfl

end Hub

end RoomHub
