import RoomHub.Proofs.Hub.Stream

/-!
# One connection cannot disturb the others

Two runs of the same steps in which one connection is treated differently: its outbox holds
more or fewer events, or none; its events are received at other times; its receiving end is
closed, or its close signal tripped, at other times or never. `Step.isOwn` tells these steps
from the rest, and `Record.Alike c` says what two recorded runs have in common: who is
registered and who is in a call, the outboxes of all connections but `c`, what these received,
and every sending less the answer of `c`. A common step keeps this (`Alike.act`), and a step
of `c` alone in one of the runs does not touch it (`alike_act_of_isOwn`).

> `slow_consumer_disturbs_nobody`: whenever two runs have the same common steps behind them,
> they are alike, every further operation answers the same in both, and reports differ by
> the share of that one connection only.
-/

namespace RoomHub

open Std (ExtTreeMap)

/-! ## Answers of one connection -/

namespace Report

variable {a b r : Report} {d : Delivery}

@[simp] theorem add_delivered (a b : Report) :
    (a + b).delivered = a.delivered + b.delivered := rfl

@[simp] theorem add_evicted (a b : Report) : (a + b).evicted = a.evicted + b.evicted := rfl

/-- A report is how many took the event and how many were evicted. -/
@[ext] theorem ext (hdelivered : a.delivered = b.delivered) (hevicted : a.evicted = b.evicted) :
    a = b := by
  cases a; cases b
  cases hdelivered; cases hevicted
  rfl

theorem add_zero (r : Report) : r + zero = r := rfl

theorem add_add_add_comm (a b c d : Report) : a + b + (c + d) = a + c + (b + d) := by
  ext
  · simp only [add_delivered]
    omega
  · simp only [add_evicted]
    omega

theorem add_count (d : Delivery) (a b : Report) : a + b.count d = (a + b).count d := by
  cases d <;> rfl

/-- An answer may be counted before or after the sum is taken. -/
theorem count_add (d : Delivery) (a b : Report) : a.count d + b = (a + b).count d := by
  ext <;> cases d <;> simp [count] <;> omega

end Report

namespace Sending

variable {c d : ConnectionId}

/-- A sending without the answers of one connection. -/
def without (c : ConnectionId) (s : Sending) : Sending :=
  { s with answers := s.answers.filter (·.1 ≠ c) }

/-- What one connection contributes to the report on a sending. -/
def share (c : ConnectionId) (s : Sending) : Report := (s.answersOf c).foldr Report.count .zero

/-- A report is what the others contribute and what one connection does. -/
theorem report_eq (c : ConnectionId) (s : Sending) :
    s.report = (s.without c).report + s.share c := by
  obtain ⟨e, answers⟩ := s
  unfold report without share answersOf
  induction answers with
  | nil => rfl
  | cons a answers ih =>
    by_cases hac : a.1 = c
    · simp only [List.foldr_cons, List.filter_cons, hac, decide_true, ne_eq, not_true_eq_false,
        decide_false, Bool.false_eq_true, if_false, if_true, List.map_cons]
      rw [ih, Report.add_count]
    · simp only [List.foldr_cons, List.filter_cons, hac, decide_false, ne_eq,
        not_false_eq_true, decide_true, Bool.false_eq_true, if_false, if_true]
      rw [ih, Report.count_add]

/-- The reports on several sendings, added up. -/
def total (log : List Sending) : Report := (log.map report).foldr (· + ·) .zero

/-- What one connection contributes to several reports, added up. -/
def totalShare (c : ConnectionId) (log : List Sending) : Report :=
  (log.map (share c)).foldr (· + ·) .zero

/-- The total of a log is that without the connection and the share of the connection. -/
theorem total_eq (c : ConnectionId) (log : List Sending) :
    total log = total (log.map (without c)) + totalShare c log := by
  unfold total totalShare
  induction log with
  | nil => rfl
  | cons s log ih =>
    simp only [List.map_cons, List.foldr_cons]
    rw [ih, report_eq c s, Report.add_add_add_comm]

end Sending

namespace Hub

variable {c d : ConnectionId} {h h' h'' : Hub} {e : Event} {a : Step}

/-! ## Hubs that differ in one outbox -/

/-- Two hubs differ in the outbox of one connection at most. -/
structure Alike (c : ConnectionId) (h h' : Hub) : Prop where
  registry : h.registry = h'.registry
  calls : h.calls = h'.calls
  others : ∀ d, d ≠ c → h.outboxes[d]? = h'.outboxes[d]?

theorem Alike.refl (c : ConnectionId) (h : Hub) : Alike c h h := ⟨rfl, rfl, fun _ _ => rfl⟩

theorem Alike.symm (ha : Alike c h h') : Alike c h' h where
  registry := ha.registry.symm
  calls := ha.calls.symm
  others d hd := (ha.others d hd).symm

theorem Alike.trans (ha : Alike c h h') (ha' : Alike c h' h'') : Alike c h h'' where
  registry := ha.registry.trans ha'.registry
  calls := ha.calls.trans ha'.calls
  others d hd := (ha.others d hd).trans (ha'.others d hd)

/-! ### Sending -/

/-- Hubs that are alike but for one outbox dispatch the same at every step. -/
theorem Alike.dispatches (ha : Alike c h h') (a : Step) : h.dispatches a = h'.dispatches a :=
  dispatches_congr ha.registry ha.calls a

/-- A connection answers by its own outbox only. -/
theorem deliver_congr (hsame : h.outboxes[d]? = h'.outboxes[d]?) :
    (h.deliver d e).1 = (h'.deliver d e).1 := by
  unfold deliver
  rw [hsame]
  split <;> rfl

/-- One more offer keeps hubs alike. -/
theorem Alike.deliver (ha : Alike c h h') (d : ConnectionId) (e : Event) :
    Alike c (h.deliver d e).2 (h'.deliver d e).2 where
  registry := by rw [deliver_registry, deliver_registry, ha.registry]
  calls := by rw [deliver_calls, deliver_calls, ha.calls]
  others d' hd' := by
    rw [outboxes_deliver, outboxes_deliver, ha.others d' hd']
    by_cases hdd : d = d'
    · rw [if_pos hdd, if_pos hdd, hdd, ha.others d' hd']
    · rw [if_neg hdd, if_neg hdd]

/-- The others answer alike, wherever the one connection stands among them. -/
theorem Alike.offerEach (ha : Alike c h h') (e : Event) (cs : List ConnectionId) :
    Sending.without c ⟨e, (Hub.offerEach e cs h).1⟩
        = Sending.without c ⟨e, (Hub.offerEach e cs h').1⟩ ∧
      Alike c (Hub.offerEach e cs h).2 (Hub.offerEach e cs h').2 := by
  induction cs generalizing h h' with
  | nil => exact ⟨rfl, ha⟩
  | cons d cs ih =>
    obtain ⟨hanswers, hlast⟩ := ih (ha.deliver d e)
    refine ⟨?_, hlast⟩
    have hrest : (Hub.offerEach e cs (h.deliver d e).2).1.filter (·.1 ≠ c)
        = (Hub.offerEach e cs (h'.deliver d e).2).1.filter (·.1 ≠ c) :=
      congrArg Sending.answers hanswers
    have hall : ((d, (h.deliver d e).1) :: (Hub.offerEach e cs (h.deliver d e).2).1).filter
          (·.1 ≠ c)
        = ((d, (h'.deliver d e).1) :: (Hub.offerEach e cs (h'.deliver d e).2).1).filter
          (·.1 ≠ c) := by
      rw [List.filter_cons, List.filter_cons, hrest]
      by_cases hdc : d = c
      · -- the answer of the one connection is left out on both sides
        rw [if_neg (by simpa using hdc), if_neg (by simpa using hdc)]
      · rw [deliver_congr (ha.others d hdc)]
    exact congrArg (Sending.mk e) hall

/-- Dispatches keep hubs alike, and all but one connection answer the same. -/
theorem Alike.dispatch (ha : Alike c h h') (ds : List Dispatch) :
    (Hub.dispatch ds h).1.map (Sending.without c)
        = (Hub.dispatch ds h').1.map (Sending.without c) ∧
      Alike c (Hub.dispatch ds h).2 (Hub.dispatch ds h').2 := by
  induction ds generalizing h h' with
  | nil => exact ⟨rfl, ha⟩
  | cons d ds ih =>
    obtain ⟨e, cs⟩ := d
    obtain ⟨hfirst, hnext⟩ := ha.offerEach e cs
    obtain ⟨hrest, hlast⟩ := ih hnext
    refine ⟨?_, hlast⟩
    show Sending.without c _ :: _ = Sending.without c _ :: _
    rw [hfirst, hrest]

/-- A step sends the same from both hubs, less what the one connection answers. -/
theorem Alike.sends (ha : Alike c h h') (a : Step) :
    (Hub.sends a h).map (Sending.without c) = (Hub.sends a h').map (Sending.without c) := by
  unfold Hub.sends
  rw [ha.dispatches a]
  exact (ha.dispatch _).1

/-! ### Coming, going and the call flag -/

/-- Joining is answered alike, whatever the one outbox holds. -/
theorem Alike.attach (ha : Alike c h h') (handle : Handle) :
    (h.attach handle).1 = (h'.attach handle).1 ∧
      Alike c (h.attach handle).2 (h'.attach handle).2 := by
  unfold Hub.attach
  rw [ha.registry]
  exact ⟨rfl, rfl, ha.calls, ha.others⟩

/-- Leaving is answered alike, whatever the one outbox holds. -/
theorem Alike.detach (ha : Alike c h h') (d : ConnectionId) :
    (h.detach d).1 = (h'.detach d).1 ∧ Alike c (h.detach d).2 (h'.detach d).2 := by
  unfold Hub.detach
  rw [ha.registry, ha.calls]
  split
  next => exact ⟨rfl, rfl, rfl, ha.others⟩
  next => exact ⟨rfl, rfl, rfl, ha.others⟩

/-- A change of the call flag is answered alike, whatever the one outbox holds. -/
theorem Alike.setInCall (ha : Alike c h h') (d : ConnectionId) (on : Bool) :
    (h.setInCall d on).1 = (h'.setInCall d on).1 ∧
      Alike c (h.setInCall d on).2 (h'.setInCall d on).2 := by
  unfold Hub.setInCall
  rw [ha.registry, ha.calls]
  split
  next => exact ⟨rfl, rfl, rfl, ha.others⟩
  next => exact ⟨rfl, rfl, rfl, ha.others⟩

/-! ### One step -/

/-- Changing an outbox in both hubs keeps them alike. -/
theorem Alike.updateOutbox (ha : Alike c h h') (d : ConnectionId) (f : Outbox → Outbox) :
    Alike c (h.updateOutbox d f) (h'.updateOutbox d f) where
  registry := by rw [updateOutbox_registry, updateOutbox_registry, ha.registry]
  calls := by rw [updateOutbox_calls, updateOutbox_calls, ha.calls]
  others d' hd' := by
    rw [outboxes_updateOutbox, outboxes_updateOutbox, ha.others d' hd']
    by_cases hdd : d = d'
    · rw [if_pos hdd, if_pos hdd, hdd, ha.others d' hd']
    · rw [if_neg hdd, if_neg hdd]

/-- The outbox that is left out of account may be changed at will. -/
theorem alike_updateOutbox (c : ConnectionId) (f : Outbox → Outbox) (h : Hub) :
    Alike c (h.updateOutbox c f) h where
  registry := updateOutbox_registry c f h
  calls := updateOutbox_calls c f h
  others d hd := by
    rw [outboxes_updateOutbox, if_neg (Ne.symm hd)]

/-- The same step taken in two hubs that are alike but for `c` leaves them alike but for `c`. -/
theorem Alike.act (ha : Alike c h h') (a : Step) : Alike c (Hub.act a h) (Hub.act a h') := by
  cases hs : a.isSending with
  | true =>
    rw [act_of_isSending hs, act_of_isSending hs, ha.dispatches a]
    exact (ha.dispatch _).2
  | false =>
    cases a with
    | attach handle => exact (ha.attach handle).2
    | detach d => exact (ha.detach d).2
    | setInCall d on => exact (ha.setInCall d on).2
    | receive d n =>
      show Alike c (h.take d n).2 (h'.take d n).2
      rw [take_snd, take_snd]
      exact ha.updateOutbox d _
    | closeReceiver d | dropReceiver d | cancel d => exact ha.updateOutbox d _
    | broadcast | broadcastPresence | pushTo | pushCallParticipants | deliver => cases hs

/-- Another connection finds the same events in its queue. -/
theorem Alike.taken (ha : Alike c h h') (a : Step) (hd : d ≠ c) :
    Hub.taken a h d = Hub.taken a h' d := by
  cases a with
  | receive d' n =>
    simp only [Hub.taken]
    by_cases hdd : d' = d
    · rw [if_pos hdd, if_pos hdd, take_fst, take_fst, hdd, ha.others d hd]
    · rw [if_neg hdd, if_neg hdd]
  | _ => rfl

/-- Whether a step is what the owner of one connection's queue or close signal does. -/
def Step.isOwn (c : ConnectionId) : Step → Bool
  | .receive d _ | .closeReceiver d | .dropReceiver d | .cancel d => d = c
  | _ => false

/-- What an owner does to its outbox: takes events, closes it, drops it or trips its signal. -/
theorem Step.isOwn_cases (ha : a.isOwn c = true) :
    (∃ n, a = .receive c n) ∨ a = .closeReceiver c ∨ a = .dropReceiver c ∨ a = .cancel c := by
  cases a with
  | receive d n =>
    obtain rfl : d = c := by simpa [isOwn] using ha
    exact Or.inl ⟨n, rfl⟩
  | closeReceiver d =>
    obtain rfl : d = c := by simpa [isOwn] using ha
    exact Or.inr (Or.inl rfl)
  | dropReceiver d =>
    obtain rfl : d = c := by simpa [isOwn] using ha
    exact Or.inr (Or.inr (Or.inl rfl))
  | cancel d =>
    obtain rfl : d = c := by simpa [isOwn] using ha
    exact Or.inr (Or.inr (Or.inr rfl))
  | attach | detach | setInCall | broadcast | broadcastPresence | pushTo
  | pushCallParticipants | deliver => cases ha

/-! ## Recorded runs that differ in one connection -/

namespace Record

variable {x y z : Record}

/-- Two records differ in the outbox of one connection, in what it received, and in what it
answered. -/
structure Alike (c : ConnectionId) (x y : Record) : Prop where
  hub : Hub.Alike c x.hub y.hub
  log : x.log.map (Sending.without c) = y.log.map (Sending.without c)
  received : ∀ d, d ≠ c → x.received d = y.received d

theorem Alike.symm (ha : Alike c x y) : Alike c y x where
  hub := ha.hub.symm
  log := ha.log.symm
  received d hd := (ha.received d hd).symm

theorem Alike.trans (ha : Alike c x y) (ha' : Alike c y z) : Alike c x z where
  hub := ha.hub.trans ha'.hub
  log := ha.log.trans ha'.log
  received d hd := (ha.received d hd).trans (ha'.received d hd)

/-- A step of both runs. -/
theorem Alike.act (ha : Alike c x y) (a : Step) : Alike c (x.act a) (y.act a) where
  hub := ha.hub.act a
  log := by
    show List.map _ (x.log ++ _) = List.map _ (y.log ++ _)
    rw [List.map_append, List.map_append, ha.log, ha.hub.sends a]
  received d hd := by
    show x.received d ++ _ = y.received d ++ _
    rw [ha.received d hd, ha.hub.taken a hd]

/-- A step that the one connection takes in one of the runs. -/
theorem alike_act_of_isOwn (x : Record) (ha : a.isOwn c = true) : Alike c (x.act a) x := by
  have hcases := Step.isOwn_cases ha
  have hhub : Hub.Alike c (Hub.act a x.hub) x.hub := by
    rcases hcases with ⟨n, rfl⟩ | rfl | rfl | rfl
    · show Hub.Alike c (x.hub.take c n).2 x.hub
      rw [take_snd]
      exact alike_updateOutbox c _ x.hub
    · exact alike_updateOutbox c _ x.hub
    · exact alike_updateOutbox c _ x.hub
    · exact alike_updateOutbox c _ x.hub
  have hsends : sends a x.hub = [] := by
    rcases hcases with ⟨n, rfl⟩ | rfl | rfl | rfl <;> rfl
  have htaken : ∀ d, d ≠ c → taken a x.hub d = [] := by
    intro d hd
    rcases hcases with ⟨n, rfl⟩ | rfl | rfl | rfl
    · exact if_neg (Ne.symm hd)
    · rfl
    · rfl
    · rfl
  refine ⟨hhub, ?_, fun d hd => ?_⟩
  · show List.map _ (x.log ++ sends a x.hub) = _
    rw [hsends, List.append_nil]
  · show x.received d ++ taken a x.hub d = _
    rw [htaken d hd, List.append_nil]

/-- A run is like the run of its common steps. -/
theorem Alike.run (ha : Alike c x y) (steps : List Step) :
    Alike c (x.run steps) (y.run (steps.filter fun a => !a.isOwn c)) := by
  induction steps generalizing x y with
  | nil => exact ha
  | cons a steps ih =>
    cases hown : a.isOwn c with
    | true =>
      rw [List.filter_cons, if_neg (by simp [hown])]
      exact ih ((alike_act_of_isOwn x hown).trans ha)
    | false =>
      rw [List.filter_cons, if_pos (by simp [hown])]
      exact ih (ha.act a)

end Record

/-! ## Whatever one connection does -/

/-- The report on a broadcast is that of its one sending. -/
theorem total_broadcast (r : RoomId) (e : Event) (h : Hub) :
    Sending.total (sends (.broadcast r e) h) = (h.broadcast r e).1 := by
  unfold Sending.total
  rw [broadcast_fst]
  exact Report.add_zero _

/-- A broadcast of presence reports the total of what it sent. -/
theorem total_broadcastPresence (r : RoomId) (s : Scope) (h : Hub) :
    Sending.total (sends (.broadcastPresence r s) h) = (h.broadcastPresence r s).1 :=
  broadcastPresence_fst r s h

/-- Alike hubs report alike, up to the share of the one connection. -/
theorem Alike.total (ha : Alike c h h') (a : Step) :
    ∃ others, Sending.total (Hub.sends a h) = others + Sending.totalShare c (Hub.sends a h) ∧
      Sending.total (Hub.sends a h') = others + Sending.totalShare c (Hub.sends a h') := by
  refine ⟨Sending.total ((Hub.sends a h).map (Sending.without c)), Sending.total_eq c _, ?_⟩
  rw [ha.sends a]
  exact Sending.total_eq c _

/-- A push to another connection has the same result. -/
theorem Alike.pushTo (ha : Alike c h h') (hd : d ≠ c) (e : Event) :
    (h.pushTo d e).1 = (h'.pushTo d e).1 := by
  have hanswer := deliver_congr (e := e) (ha.others d hd)
  unfold Hub.pushTo
  rw [ha.registry]
  cases h'.registry.connection? d with
  | none => rfl
  | some handle =>
    dsimp only
    cases hleft : h.deliver d e with
    | mk answer left =>
      cases hright : h'.deliver d e with
      | mk answer' right =>
        rw [hleft, hright] at hanswer
        obtain rfl : answer = answer' := hanswer
        cases answer <;> rfl

/-- So has a push of the snapshot of the call. -/
theorem Alike.pushCallParticipants (ha : Alike c h h') (hd : d ≠ c) :
    (h.pushCallParticipants d).1 = (h'.pushCallParticipants d).1 := by
  unfold Hub.pushCallParticipants Hub.callParticipants
  rw [ha.registry, ha.calls]
  cases h'.registry.connection? d with
  | none => rfl
  | some handle => exact ha.pushTo hd _

/-- Two runs from idle hubs whose steps are the same but for what the owner of one
connection's queue and close signal does, and whose outboxes are the same but for that
connection's. Then the same people are registered and in calls; every other connection has
the same outbox and has received the same; and the sendings so far are the same, with the
same answers of all others. At every such pair of moments, attaching, detaching, the call
flag, the snapshots and pushes to other connections answer the same in both, and reports
differ by the share of the one connection only. -/
theorem slow_consumer_disturbs_nobody (c : ConnectionId)
    {outboxes outboxes' : ExtTreeMap ConnectionId Outbox}
    (houtboxes : ∀ d, d ≠ c → outboxes[d]? = outboxes'[d]?) {steps steps' : List Step}
    (hsteps : steps.filter (fun a => !a.isOwn c) = steps'.filter fun a => !a.isOwn c) :
    let x := recorded outboxes steps
    let y := recorded outboxes' steps'
    x.hub.registry = y.hub.registry ∧ x.hub.calls = y.hub.calls ∧
    (∀ d, d ≠ c → x.hub.outboxes[d]? = y.hub.outboxes[d]? ∧ x.received d = y.received d) ∧
    x.log.map (Sending.without c) = y.log.map (Sending.without c) ∧
    (∀ handle, (x.hub.attach handle).1 = (y.hub.attach handle).1) ∧
    (∀ d, (x.hub.detach d).1 = (y.hub.detach d).1) ∧
    (∀ d on, (x.hub.setInCall d on).1 = (y.hub.setInCall d on).1) ∧
    (∀ r, x.hub.participants r = y.hub.participants r ∧
      x.hub.callParticipants r = y.hub.callParticipants r) ∧
    (∀ d e, d ≠ c → (x.hub.pushTo d e).1 = (y.hub.pushTo d e).1) ∧
    (∀ d, d ≠ c → (x.hub.pushCallParticipants d).1 = (y.hub.pushCallParticipants d).1) ∧
    (∀ r e, ∃ others,
      (x.hub.broadcast r e).1
          = others + Sending.totalShare c (sends (.broadcast r e) x.hub) ∧
        (y.hub.broadcast r e).1
          = others + Sending.totalShare c (sends (.broadcast r e) y.hub)) ∧
    (∀ r s, ∃ others,
      (x.hub.broadcastPresence r s).1
          = others + Sending.totalShare c (sends (.broadcastPresence r s) x.hub) ∧
        (y.hub.broadcastPresence r s).1
          = others + Sending.totalShare c (sends (.broadcastPresence r s) y.hub)) := by
  intro x y
  have hstart : Record.Alike c (.start (idle outboxes)) (.start (idle outboxes')) :=
    ⟨⟨rfl, rfl, houtboxes⟩, rfl, fun _ _ => rfl⟩
  -- both runs are like the run of their common steps
  have hleft : Record.Alike c x (recorded outboxes' (steps'.filter fun a => !a.isOwn c)) := by
    rw [← hsteps]
    exact hstart.run steps
  have hright : Record.Alike c y (recorded outboxes' (steps'.filter fun a => !a.isOwn c)) :=
    Record.Alike.run ⟨Alike.refl c _, rfl, fun _ _ => rfl⟩ steps'
  have hxy : Record.Alike c x y := hleft.trans hright.symm
  have hhub : Alike c x.hub y.hub := hxy.hub
  refine ⟨hhub.registry, hhub.calls, fun d hd => ⟨hhub.others d hd, hxy.received d hd⟩, hxy.log,
    fun handle => (hhub.attach handle).1, fun d => (hhub.detach d).1,
    fun d on => (hhub.setInCall d on).1, fun r => ⟨?_, ?_⟩, fun d e hd => hhub.pushTo hd e,
    fun d hd => hhub.pushCallParticipants hd, fun r e => ?_, fun r s => ?_⟩
  · exact congrArg (·.participants r) hhub.registry
  · exact congrArg (·.snapshot r) hhub.calls
  · have hreports := hhub.total (.broadcast r e)
    rw [total_broadcast, total_broadcast] at hreports
    exact hreports
  · have hreports := hhub.total (.broadcastPresence r s)
    rw [total_broadcastPresence, total_broadcastPresence] at hreports
    exact hreports

/-- The outboxes of two connections, the second with room for so many events. -/
def outboxesOfTwo (capacity : Nat) (h : 0 < capacity) : ExtTreeMap ConnectionId Outbox :=
  (ExtTreeMap.insert ∅ ⟨⟨1⟩⟩ ⟨6, [], .listening, false, by decide⟩).insert ⟨⟨2⟩⟩
    ⟨capacity, [], .listening, false, h⟩

/-- Ann and bob are told who is there and who is in the call; bob reads what he is told. -/
def readInTime : List Step :=
  [.attach ⟨⟨⟨1⟩⟩, ⟨⟨7⟩⟩, ⟨⟨⟨1⟩⟩, "ann"⟩⟩, .attach ⟨⟨⟨2⟩⟩, ⟨⟨7⟩⟩, ⟨⟨⟨2⟩⟩, "bob"⟩⟩,
    .broadcastPresence ⟨⟨7⟩⟩ .room, .receive ⟨⟨2⟩⟩ 2, .setInCall ⟨⟨1⟩⟩ true,
    .broadcastPresence ⟨⟨7⟩⟩ .call]

/-- The same, but bob never reads, and is gone in the end. -/
def neverRead : List Step :=
  [.attach ⟨⟨⟨1⟩⟩, ⟨⟨7⟩⟩, ⟨⟨⟨1⟩⟩, "ann"⟩⟩, .attach ⟨⟨⟨2⟩⟩, ⟨⟨7⟩⟩, ⟨⟨⟨2⟩⟩, "bob"⟩⟩,
    .broadcastPresence ⟨⟨7⟩⟩ .room, .setInCall ⟨⟨1⟩⟩ true, .broadcastPresence ⟨⟨7⟩⟩ .call,
    .dropReceiver ⟨⟨2⟩⟩]

/-- With room for one event bob is evicted when he does not read. Ann does not notice. -/
theorem slow_consumer_disturbs_nobody_eviction :
    let x := recorded (outboxesOfTwo 8 (by decide)) readInTime
    let y := recorded (outboxesOfTwo 1 (by decide)) neverRead
    x.hub.isCancelled ⟨⟨2⟩⟩ = false ∧ y.hub.isCancelled ⟨⟨2⟩⟩ = true ∧
      x.hub.registry = y.hub.registry ∧
      x.hub.outboxes[(⟨⟨1⟩⟩ : ConnectionId)]? = y.hub.outboxes[(⟨⟨1⟩⟩ : ConnectionId)]? ∧
      x.log.map (Sending.without ⟨⟨2⟩⟩) = y.log.map (Sending.without ⟨⟨2⟩⟩) ∧
      (x.hub.broadcast ⟨⟨7⟩⟩ (.history [])).1 = ⟨2, 0⟩ ∧
      (y.hub.broadcast ⟨⟨7⟩⟩ (.history [])).1 = ⟨1, 0⟩ := by
  intro x y
  have houtboxes : ∀ d : ConnectionId, d ≠ ⟨⟨2⟩⟩ →
      (outboxesOfTwo 8 (by decide))[d]? = (outboxesOfTwo 1 (by decide))[d]? := by
    intro d hd
    have hne : ¬compare (⟨⟨2⟩⟩ : ConnectionId) d = .eq := by
      rw [Std.compare_eq_iff_eq]
      exact Ne.symm hd
    simp only [outboxesOfTwo, ExtTreeMap.getElem?_insert, if_neg hne]
  obtain ⟨hregistry, -, hothers, hlog, -⟩ :=
    @slow_consumer_disturbs_nobody ⟨⟨2⟩⟩ _ _ houtboxes readInTime neverRead (by decide)
  exact ⟨by decide +kernel, by decide +kernel, hregistry, (hothers ⟨⟨1⟩⟩ (by decide)).1, hlog,
    by decide +kernel, by decide +kernel⟩

end Hub

end RoomHub
