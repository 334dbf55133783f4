import RoomHub.Proofs.Hub.Step
import RoomHub.Session

/-!
# What a session hands to its socket

A `Courier` is a session that writes, seen by itself: an `Intake` stands for its end of the queue
and for the close signal. Events are queued, the queue may be deserted by all who could add to it,
the signal may be tripped, the socket may change in any way between two steps, and time passes.
The log keeps what was queued, what was handed to the socket, how each write ended and when the
signal was tripped.

> `Sound.write`: what a step of the writing side does to the log;
> `hands_over_a_prefix`: what can be said of the log after any course of incidents.

A session in a hub is a courier: its steps are those of a courier whose intake is its outbox
(`step_write_aboard`), and whatever others do to the hub queues events or trips the signal
(`drifts_act`).
-/

namespace RoomHub

/-! ## The end of a queue, and what is chosen -/

/-- The end of a queue at which events are taken: what waits, whether everyone is gone who could
queue more, and whether the close signal is tripped. -/
structure Intake where
  waiting : List Event
  deserted : Bool
  tripped : Bool
  deriving DecidableEq, Repr

/-- A deserted queue comes to its end when nothing waits any more. -/
def Intake.offer (i : Intake) : QueueOffer :=
  match i.waiting with
  | e :: _ => .event e
  | [] => if i.deserted then .finished else .nothing

/-- The event on offer is the first one that waits. -/
theorem Intake.of_offer_eq_event {i : Intake} {e : Event} (h : i.offer = .event e) :
    i.waiting = e :: i.waiting.tail := by
  unfold offer at h
  split at h
  next heq =>
    cases h
    rw [heq]
    rfl
  next => split at h <;> cases h

/-- The end of an outbox at which events are taken. The hub is always there to queue more. -/
def Outbox.intake (o : Outbox) : Intake := ⟨o.queue, false, o.cancelled⟩

/-- Closing the receiver refuses further events but leaves those that wait. -/
theorem Outbox.intake_closeReceiver (o : Outbox) : o.closeReceiver.intake = o.intake := by
  unfold closeReceiver
  split <;> rfl

namespace Session

variable {s : Session} {w : World}

/-- The outbox of a session's connection, as the session sees it. -/
def intake (s : Session) (w : World) : Intake :=
  match w.hub.outboxes[s.handle.id]? with
  | some o => o.intake
  | none => ⟨[], true, true⟩

/-- A session reads the close signal off its intake. -/
theorem isCancelled_eq (s : Session) (w : World) : s.isCancelled w = (s.intake w).tripped := by
  unfold isCancelled Hub.isCancelled intake
  cases w.hub.outboxes[s.handle.id]? <;> rfl

/-- A session is offered what its intake offers. -/
theorem offer_eq (s : Session) (w : World) : s.offer w = (s.intake w).offer := by
  unfold offer intake Intake.offer
  cases w.hub.outboxes[s.handle.id]? with
  | none => rfl
  | some o => cases o.queue <;> rfl

/-- Goes on with the frame that is being sent. -/
def resume (now : Time) (s : Session) : Session :=
  let (flushed, socket) := s.socket.flush
  match s.writing.phase with
  | .sending limit => { s with socket := socket, writing := s.writing.afterSend limit now flushed }
  | .closing limit reason =>
    { s with socket := socket, writing := s.writing.afterClose limit reason now flushed }
  | .ready | .ended _ => s

end Session

namespace WriteSide

variable {tripped due : Bool} {offer : QueueOffer} {reason : Ending} {e : Event}

/-- A session closes for two reasons only: the signal, or a queue that has come to its end. -/
theorem of_choose_eq_close (h : choose tripped offer due = .close reason) :
    reason = .cancelled ∨ reason = .queueClosed := by
  unfold choose at h
  split at h
  next => exact Or.inl (WriteChoice.close.inj h).symm
  next =>
    split at h
    next => cases h
    next => exact Or.inr (WriteChoice.close.inj h).symm
    next => split at h <;> cases h

/-- An event is taken only before the signal, and only the one on offer. -/
theorem of_choose_eq_event (h : choose tripped offer due = .event e) :
    tripped = false ∧ offer = .event e := by
  unfold choose at h
  split at h
  next => cases h
  next hun =>
    split at h
    next => exact ⟨Bool.eq_false_iff.mpr hun, congrArg QueueOffer.event (WriteChoice.event.inj h)⟩
    next => cases h
    next => split at h <;> cases h

/-- A ping is sent only before the signal. -/
theorem of_choose_eq_ping (h : choose tripped offer due = .ping) : tripped = false := by
  unfold choose at h
  split at h
  next => cases h
  next hun => exact Bool.eq_false_iff.mpr hun

end WriteSide

/-! ## Notes -/

/-- Something that is noted while a session writes. -/
inductive Note where
  | queued (e : Event)
  | tripped
  | handed (f : WebSocket.Outgoing)
  | written
  | failed
  | timedOut
  deriving DecidableEq, Repr

namespace Note

/-- The event that was queued. -/
def event? : Note → Option Event
  | queued e => some e
  | _ => none

/-- The frame that was handed to the socket. -/
def frame? : Note → Option WebSocket.Outgoing
  | handed f => some f
  | _ => none

/-- The text that was handed to the socket. -/
def text? : Note → Option String
  | handed (.text s) => some s
  | _ => none

/-- The events that were queued. -/
def events (log : List Note) : List Event := log.filterMap event?

/-- The texts that were handed to the socket. -/
def texts (log : List Note) : List String := log.filterMap text?

/-- How a write that may last until a time has ended, if it has. -/
def outcome (limit now : Time) : WebSocket.Flushed → List Note
  | .done | .closed => [written]
  | .failed => [failed]
  | .blocked => if limit ≤ now then [timedOut] else []

/-- What one note means for a later one: nothing is handed over after a failure, after a write
that took too long or after a close frame, and only a close frame after the signal. -/
def Permits (earlier later : Note) : Prop :=
  ∀ f, later = handed f → earlier ≠ failed ∧ earlier ≠ timedOut ∧ earlier ≠ handed (.close none) ∧
    (earlier = tripped → f = .close none)

variable {log ns : List Note} {n m : Note} {f : WebSocket.Outgoing} {limit now : Time}
  {flushed : WebSocket.Flushed}

/-- Where no frame was handed over, no text was. -/
theorem text?_of_frame?_eq_none (h : n.frame? = none) : n.text? = none := by
  cases n <;> first | rfl | cases h

theorem events_append (log ns : List Note) : events (log ++ ns) = events log ++ events ns :=
  List.filterMap_append

theorem texts_append (log ns : List Note) : texts (log ++ ns) = texts log ++ texts ns :=
  List.filterMap_append

theorem texts_of_frame?_eq_none (h : ∀ n ∈ ns, n.frame? = none) : texts ns = [] :=
  List.filterMap_eq_nil_iff.mpr fun n hn => text?_of_frame?_eq_none (h n hn)

theorem permits_of_frame?_eq_none (h : m.frame? = none) : Permits n m := by
  rintro f rfl
  cases h

/-- The outcome of a write hands nothing over. -/
theorem frame?_of_mem_outcome (h : n ∈ outcome limit now flushed) : n.frame? = none := by
  unfold outcome at h
  split at h
  next => exact List.mem_singleton.mp h ▸ rfl
  next => exact List.mem_singleton.mp h ▸ rfl
  next => exact List.mem_singleton.mp h ▸ rfl
  next =>
    split at h
    next => exact List.mem_singleton.mp h ▸ rfl
    next => cases h

theorem events_outcome : events (outcome limit now flushed) = [] := by
  unfold outcome
  split
  next => rfl
  next => rfl
  next => rfl
  next => split <;> rfl

theorem tripped_notMem_outcome : tripped ∉ outcome limit now flushed := by
  unfold outcome
  split
  next => decide
  next => decide
  next => decide
  next => split <;> decide

/-- Notes that hand nothing over can always be added. -/
theorem pairwise_append (h : log.Pairwise Permits) (hns : ∀ n ∈ ns, n.frame? = none) :
    (log ++ ns).Pairwise Permits := by
  refine List.pairwise_append.mpr ⟨h, ?_, fun n _ m hm => permits_of_frame?_eq_none (hns m hm)⟩
  exact List.pairwise_of_forall_mem_list fun n _ m hm => permits_of_frame?_eq_none (hns m hm)

end Note

/-! ## The courier -/

/-- A session that writes, with its end of the queue, the time, and what was noted so far. -/
structure Courier where
  session : Session
  intake : Intake
  now : Time
  log : List Note

namespace Courier

/-- Something that may happen to a courier. -/
inductive Incident where
  /-- An event is queued, if the queue is not deserted. -/
  | queue (e : Event)
  /-- Everyone is gone who could queue an event. -/
  | desert
  /-- The close signal is tripped. -/
  | trip
  /-- The socket changes: the link, what the client sent, what was answered. -/
  | socket (k : WebSocket.Socket)
  /-- Time passes. -/
  | pass (duration : Nat)
  /-- The writing side takes a step. -/
  | write

variable (cfg : HubSettings)

/-- A session that has just begun, with nothing in its queue. -/
def start (now : Time) (k : Handle) : Courier :=
  ⟨Session.begin cfg now k, ⟨[], false, false⟩, now, []⟩

/-- The courier with more in its log. -/
def note (ns : List Note) (c : Courier) : Courier := { c with log := c.log ++ ns }

/-- Trips the close signal. -/
def trip (c : Courier) : Courier :=
  if c.intake.tripped then c
  else { c with intake := { c.intake with tripped := true } }.note [.tripped]

/-- Notes that a frame is handed to the socket, and how the write has ended, if it has. -/
def hand (f : WebSocket.Outgoing) (c : Courier) : Courier :=
  c.note (.handed f ::
    Note.outcome (c.now + cfg.writeTimeout.toNanos) c.now (c.session.socket.send f).1)

/-- Takes one step of the writing side. -/
def write (c : Courier) : Courier :=
  match c.session.writing.phase with
  | .ended _ => c
  | .sending limit | .closing limit _ =>
    { c.note (Note.outcome limit c.now c.session.socket.flush.1) with
      session := c.session.resume c.now }
  | .ready =>
    match WriteSide.choose c.intake.tripped c.intake.offer
        (c.session.writing.nextPing ≤ c.now) with
    | .close reason =>
      { c.hand cfg (.close none) with session := c.session.beginClose cfg c.now reason }
    | .event e =>
      { c.hand cfg (.text (Wire.encodeEvent e)) with
        session := c.session.beginSend cfg c.now (.text (Wire.encodeEvent e))
        intake := { c.intake with waiting := c.intake.waiting.tail } }
    | .ping =>
      let next := WriteSide.pingAfter cfg.pingInterval c.now c.session.writing.nextPing
      { c.hand cfg .ping with
        session := Session.beginSend cfg c.now .ping
          { c.session with writing := { c.session.writing with nextPing := next } } }
    | .wait => c

/-- Trips the close signal once the writing side has ended. -/
def settle (c : Courier) : Courier :=
  match c.session.writing.phase with
  | .ended _ => c.trip
  | _ => c

/-- The courier after an incident. -/
def step : Incident → Courier → Courier
  | .queue e, c =>
    if c.intake.deserted then c
    else { c with intake := { c.intake with waiting := c.intake.waiting ++ [e] } }.note [.queued e]
  | .desert, c => { c with intake := { c.intake with deserted := true } }
  | .trip, c => c.trip
  | .socket k, c => { c with session := { c.session with socket := k } }
  | .pass d, c => { c with now := c.now + d }
  | .write, c => (c.write cfg).settle

/-- The courier after all that happened. -/
def run (is : List Incident) (c : Courier) : Courier := is.foldl (fun c i => c.step cfg i) c

/-! ## What the log tells -/

/-- A log without a failure, a write that took too long, or a close frame. -/
structure Clean (log : List Note) : Prop where
  failed : .failed ∉ log
  timedOut : .timedOut ∉ log
  close : .handed (.close none) ∉ log

/-- What the log tells of a phase: it is clean as long as frames are sent; a close frame was handed
over when the side closes, for one of two reasons; and when the side has ended, one was exactly if
it ended for one of these. -/
def Tells (log : List Note) : WritePhase → Prop
  | .ready | .sending _ => Clean log
  | .closing _ reason =>
    .handed (.close none) ∈ log ∧ (reason = .cancelled ∨ reason = .queueClosed)
  | .ended reason =>
    .handed (.close none) ∈ log ↔ reason = .cancelled ∨ reason = .queueClosed

variable {log ns : List Note} {limit now : Time} {reason : Ending}

theorem Clean.append (h : Clean log) (h' : Clean ns) : Clean (log ++ ns) where
  failed hin := (List.mem_append.mp hin).elim h.failed h'.failed
  timedOut hin := (List.mem_append.mp hin).elim h.timedOut h'.timedOut
  close hin := (List.mem_append.mp hin).elim h.close h'.close

theorem clean_written : Clean [.written] := ⟨by decide, by decide, by decide⟩

/-- No write was begun with the close frame, so the reason for an end is none of those two. -/
theorem Clean.tells_ended (h : Clean log) (hns : ∀ n ∈ ns, n.frame? = none)
    (hreason : ¬(reason = .cancelled ∨ reason = .queueClosed)) :
    Tells (log ++ ns) (.ended reason) := by
  refine iff_of_false (fun hin => ?_) hreason
  rcases List.mem_append.mp hin with hin | hin
  · exact h.close hin
  · cases hns _ hin

/-- The log tells how a send stands. -/
theorem Clean.tells_afterSend (h : Clean log) (side : WriteSide)
    (flushed : WebSocket.Flushed) :
    Tells (log ++ Note.outcome limit now flushed) (side.afterSend limit now flushed).phase := by
  have hquiet : ∀ n ∈ Note.outcome limit now flushed, n.frame? = none :=
    fun n => Note.frame?_of_mem_outcome
  cases flushed with
  | done | closed => exact h.append clean_written
  | failed => exact h.tells_ended hquiet (by decide)
  | blocked =>
    unfold WriteSide.afterSend
    by_cases hlate : limit ≤ now
    · simp only [if_pos hlate]
      exact h.tells_ended hquiet (by decide)
    · simp only [Note.outcome, if_neg hlate, List.append_nil]
      exact h

/-- The log tells how the sending of the close frame stands. -/
theorem tells_afterClose (hclose : .handed (.close none) ∈ log)
    (hreason : reason = .cancelled ∨ reason = .queueClosed) (side : WriteSide)
    (flushed : WebSocket.Flushed) :
    Tells (log ++ Note.outcome limit now flushed)
      (side.afterClose limit reason now flushed).phase := by
  have hin : .handed (.close none) ∈ log ++ Note.outcome limit now flushed :=
    List.mem_append_left _ hclose
  cases flushed with
  | done | closed | failed => exact iff_of_true hin hreason
  | blocked =>
    unfold WriteSide.afterClose
    by_cases hlate : limit ≤ now
    · simp only [if_pos hlate]
      exact iff_of_true hin hreason
    · simp only [if_neg hlate]
      exact ⟨hin, hreason⟩

/-! ## Every moment -/

/-- What the log and the queue have in common: the texts that were handed over are those of the
events that were queued, up to the first one that waits. -/
structure Accounts (log : List Note) (i : Intake) : Prop where
  taken : ∃ taken, Note.events log = taken ++ i.waiting ∧
    Note.texts log = taken.map Wire.encodeEvent
  kinds : ∀ f, .handed f ∈ log → f = .ping ∨ f = .close none ∨ ∃ t, f = .text t
  order : log.Pairwise Note.Permits
  signal : .tripped ∈ log → i.tripped = true

variable {i i' : Intake} {f : WebSocket.Outgoing}

/-- Notes about no frame are accounted for, if their events wait and their signal is tripped. -/
theorem Accounts.quiet (h : Accounts log i) (hquiet : ∀ n ∈ ns, n.frame? = none)
    (hwaiting : i'.waiting = i.waiting ++ Note.events ns)
    (hsignal : i.tripped = true ∨ .tripped ∈ ns → i'.tripped = true) :
    Accounts (log ++ ns) i' where
  taken := by
    obtain ⟨taken, hevents, htexts⟩ := h.taken
    refine ⟨taken, ?_, ?_⟩
    · rw [Note.events_append, hevents, hwaiting, List.append_assoc]
    · rw [Note.texts_append, Note.texts_of_frame?_eq_none hquiet, List.append_nil, htexts]
  kinds f hf := by
    rcases List.mem_append.mp hf with hf | hf
    · exact h.kinds f hf
    · cases hquiet _ hf
  order := Note.pairwise_append h.order hquiet
  signal hin := hsignal ((List.mem_append.mp hin).imp_left h.signal)

/-- A frame that the log permits is accounted for, if its text is that of what was taken. -/
theorem Accounts.hand (h : Accounts log i)
    (hkind : f = .ping ∨ f = .close none ∨ ∃ t, f = .text t)
    (hpermits : ∀ n ∈ log, n.Permits (.handed f))
    (htaken : ∃ taken, i.waiting = taken ++ i'.waiting ∧
      Note.texts [.handed f] = taken.map Wire.encodeEvent)
    (htripped : i'.tripped = i.tripped) : Accounts (log ++ [.handed f]) i' where
  taken := by
    obtain ⟨before, hevents, htexts⟩ := h.taken
    obtain ⟨taken, hwaiting, htext⟩ := htaken
    refine ⟨before ++ taken, ?_, ?_⟩
    · have hnone : Note.events [.handed f] = [] := rfl
      rw [Note.events_append, hnone, List.append_nil, hevents, hwaiting, List.append_assoc]
    · rw [Note.texts_append, htexts, htext, List.map_append]
  kinds g hg := by
    rcases List.mem_append.mp hg with hg | hg
    · exact h.kinds g hg
    · cases List.mem_singleton.mp hg
      exact hkind
  order := List.pairwise_append.mpr ⟨h.order, List.pairwise_singleton _ _, fun n hn m hm =>
    List.mem_singleton.mp hm ▸ hpermits n hn⟩
  signal hin := by
    rcases List.mem_append.mp hin with hin | hin
    · exact htripped.trans (h.signal hin)
    · cases List.mem_singleton.mp hin

/-- Noting how a write ended leaves the account right. -/
theorem Accounts.outcome {flushed : WebSocket.Flushed} (h : Accounts log i) :
    Accounts (log ++ Note.outcome limit now flushed) i := by
  refine h.quiet (fun n => Note.frame?_of_mem_outcome) ?_ fun hsignal => ?_
  · rw [Note.events_outcome, List.append_nil]
  · exact hsignal.resolve_right Note.tripped_notMem_outcome

/-- Noting the signal together with tripping it leaves the account right. -/
theorem Accounts.tripped (h : Accounts log i) :
    Accounts (log ++ [.tripped]) { i with tripped := true } := by
  refine h.quiet (fun n hn => ?_) (List.append_nil _).symm fun _ => rfl
  exact List.mem_singleton.mp hn ▸ rfl

/-- What holds of a courier at every moment. -/
structure Sound (c : Courier) : Prop where
  accounts : Accounts c.log c.intake
  phase : Tells c.log c.session.writing.phase
  signal : ∀ reason, c.session.writing.phase = .ended reason → c.intake.tripped = true

variable {cfg : HubSettings} {c : Courier}

theorem sound_start (now : Time) (k : Handle) : Sound (start cfg now k) where
  accounts := ⟨⟨[], rfl, rfl⟩, nofun, .nil, nofun⟩
  phase := ⟨nofun, nofun, nofun⟩
  signal := nofun

/-- A clean log permits every frame, as long as the signal was not tripped; after that it permits
the close frame. -/
theorem Clean.permits (h : Clean log) (hsignal : .tripped ∈ log → f = .close none) :
    ∀ n ∈ log, n.Permits (.handed f) := by
  intro n hn g hg
  cases hg
  refine ⟨?_, ?_, ?_, ?_⟩
  · rintro rfl
    exact h.failed hn
  · rintro rfl
    exact h.timedOut hn
  · rintro rfl
    exact h.close hn
  · rintro rfl
    exact hsignal hn

/-- Handing over any frame but the close frame leaves a log clean. -/
theorem Clean.hand (h : Clean log) (hf : f ≠ .close none) : Clean (log ++ [.handed f]) := by
  refine h.append ⟨?_, ?_, ?_⟩
  · exact fun hin => (nomatch List.mem_singleton.mp hin)
  · exact fun hin => (nomatch List.mem_singleton.mp hin)
  · exact fun hin => hf (Note.handed.inj (List.mem_singleton.mp hin)).symm

/-- A side that is ready and begins to send a text or a ping: the log accounts for it and tells how
it stands. -/
theorem Clean.beginSend (h : Clean log) (ha : Accounts log i) (hun : i.tripped = false)
    (hkind : f = .ping ∨ ∃ t, f = .text t)
    (htaken : ∃ taken, i.waiting = taken ++ i'.waiting ∧
      Note.texts [.handed f] = taken.map Wire.encodeEvent)
    (htripped : i'.tripped = i.tripped) (side : WriteSide) (flushed : WebSocket.Flushed) :
    Accounts (log ++ .handed f :: Note.outcome limit now flushed) i' ∧
      Tells (log ++ .handed f :: Note.outcome limit now flushed)
        (side.afterSend limit now flushed).phase := by
  have hclose : f ≠ .close none := by
    rcases hkind with rfl | ⟨t, rfl⟩
    · exact nofun
    · exact nofun
  have hpermits : ∀ n ∈ log, n.Permits (.handed f) := by
    refine h.permits fun hin => ?_
    rw [ha.signal hin] at hun
    cases hun
  rw [List.append_cons]
  exact ⟨(ha.hand (hkind.imp_right Or.inr) hpermits htaken htripped).outcome,
    (h.hand hclose).tells_afterSend side flushed⟩

/-- A side that is ready and begins to close. -/
theorem Clean.beginClose (h : Clean log) (ha : Accounts log i)
    (hreason : reason = .cancelled ∨ reason = .queueClosed) (side : WriteSide)
    (flushed : WebSocket.Flushed) :
    Accounts (log ++ .handed (.close none) :: Note.outcome limit now flushed) i ∧
      Tells (log ++ .handed (.close none) :: Note.outcome limit now flushed)
        (side.afterClose limit reason now flushed).phase := by
  have hpermits : ∀ n ∈ log, n.Permits (.handed (.close none)) := h.permits fun _ => rfl
  rw [List.append_cons]
  exact ⟨(ha.hand (Or.inr (Or.inl rfl)) hpermits ⟨[], rfl, rfl⟩ rfl).outcome,
    tells_afterClose (List.mem_append_right _ List.mem_cons_self) hreason side flushed⟩

/-- A step of the writing side, whatever becomes of its write: it goes on with what it does, or
takes the first event that waits, or sends a ping, or closes. -/
theorem Sound.write (cfg : HubSettings) (h : Sound c) :
    Accounts (c.write cfg).log (c.write cfg).intake ∧
      Tells (c.write cfg).log (c.write cfg).session.writing.phase := by
  have hphase := h.phase
  unfold Courier.write
  split
  next => exact ⟨h.accounts, h.phase⟩
  next limit hsending =>
    rw [hsending] at hphase
    refine ⟨h.accounts.outcome, ?_⟩
    unfold Session.resume
    rw [hsending]
    exact hphase.tells_afterSend c.session.writing _
  next limit reason hclosing =>
    rw [hclosing] at hphase
    refine ⟨h.accounts.outcome, ?_⟩
    unfold Session.resume
    rw [hclosing]
    exact tells_afterClose hphase.1 hphase.2 c.session.writing _
  next hready =>
    rw [hready] at hphase
    split
    next reason hchoice =>
      exact hphase.beginClose h.accounts (WriteSide.of_choose_eq_close hchoice) _ _
    next e hchoice =>
      obtain ⟨hun, hoffer⟩ := WriteSide.of_choose_eq_event hchoice
      have hwaiting : c.intake.waiting = [e] ++ (Intake.mk c.intake.waiting.tail
          c.intake.deserted c.intake.tripped).waiting := Intake.of_offer_eq_event hoffer
      exact hphase.beginSend h.accounts hun (Or.inr ⟨_, rfl⟩) ⟨[e], hwaiting, rfl⟩ rfl _ _
    next hchoice =>
      exact hphase.beginSend h.accounts (WriteSide.of_choose_eq_ping hchoice) (Or.inl rfl)
        ⟨[], rfl, rfl⟩ rfl _ _
    next => exact ⟨h.accounts, h.phase⟩

/-- Clean notes change nothing about what the log tells of a phase. -/
theorem Tells.append {phase : WritePhase} (h : Tells log phase) (hns : Clean ns) :
    Tells (log ++ ns) phase := by
  have hclose : .handed (.close none) ∈ log ++ ns ↔ .handed (.close none) ∈ log :=
    List.mem_append.trans (or_iff_left hns.close)
  cases phase with
  | ready | sending => exact Clean.append h hns
  | closing => exact h.imp_left hclose.mpr
  | ended => exact hclose.trans h

theorem tripped_trip (c : Courier) : c.trip.intake.tripped = true := by
  unfold trip
  split
  next h => exact h
  next => rfl

/-- Tripping the signal is accounted for, and makes a side that has ended sound. -/
theorem sound_trip (ha : Accounts c.log c.intake) (hphase : Tells c.log c.session.writing.phase) :
    Sound c.trip := by
  have hboth : Accounts c.trip.log c.trip.intake ∧ Tells c.trip.log c.session.writing.phase := by
    unfold trip
    split
    next => exact ⟨ha, hphase⟩
    next => exact ⟨ha.tripped, hphase.append ⟨by decide, by decide, by decide⟩⟩
  have hsession : c.trip.session = c.session := by
    unfold trip
    split <;> rfl
  exact ⟨hboth.1, hsession ▸ hboth.2, fun _ _ => c.tripped_trip⟩

/-- Whatever happens to a courier, it stays sound. -/
theorem Sound.step (h : Sound c) (i : Incident) : Sound (c.step cfg i) := by
  cases i with
  | queue e =>
    show Sound (if c.intake.deserted then c else _)
    split
    next => exact h
    next =>
      have hclean : Clean [.queued e] := ⟨by simp, by simp, by simp⟩
      refine ⟨h.accounts.quiet (fun n hn => ?_) rfl fun hsignal => ?_, h.phase.append hclean,
        h.signal⟩
      · exact List.mem_singleton.mp hn ▸ rfl
      · exact hsignal.resolve_right (by simp)
  | desert => exact ⟨⟨h.accounts.1, h.accounts.2, h.accounts.3, h.accounts.4⟩, h.phase, h.signal⟩
  | trip => exact sound_trip h.accounts h.phase
  | socket k => exact ⟨h.accounts, h.phase, h.signal⟩
  | pass d => exact ⟨h.accounts, h.phase, h.signal⟩
  | write =>
    obtain ⟨haccounts, hphase⟩ := h.write cfg
    show Sound (c.write cfg).settle
    unfold settle
    split
    next => exact sound_trip haccounts hphase
    next hgoes => exact ⟨haccounts, hphase, fun reason hended => absurd hended (hgoes reason)⟩

/-- A courier stays sound along any run. -/
theorem Sound.run (h : Sound c) (is : List Incident) : Sound (c.run cfg is) := by
  induction is generalizing c with
  | nil => exact h
  | cons i is ih => exact ih (h.step i)

/-! ## Sessions in a hub -/

/-- A session in a hub as a courier. -/
def aboard (s : Session) (w : World) (now : Time) (log : List Note) : Courier :=
  ⟨s, s.intake w, now, log⟩

end Courier

namespace Session

theorem intake_takeEvent (s : Session) (w : World) :
    s.intake (s.takeEvent w) = { s.intake w with waiting := (s.intake w).waiting.tail } := by
  unfold intake takeEvent
  rw [Hub.take_snd, Hub.outboxes_updateOutbox, if_pos rfl]
  cases w.hub.outboxes[s.handle.id]? with
  | none => rfl
  | some o => simp [Outbox.take, Outbox.intake, List.drop_one]

theorem intake_cancel (s : Session) (w : World) :
    s.intake (s.cancel w) = { s.intake w with tripped := true } := by
  unfold intake cancel Hub.cancel
  rw [Hub.outboxes_updateOutbox, if_pos rfl]
  cases w.hub.outboxes[s.handle.id]? <;> rfl

end Session

namespace Courier

variable {cfg : HubSettings} {now : Time}

/-- Tripping the signal does nothing else, twice or once. -/
theorem trip_eq (c : Courier) :
    ∃ log', c.trip = ⟨c.session, { c.intake with tripped := true }, c.now, log'⟩ := by
  unfold trip
  split
  next h =>
    refine ⟨c.log, ?_⟩
    rw [← h]
  next => exact ⟨_, rfl⟩

/-- A step of the writing side of a session in a hub is one of the courier. -/
theorem write_aboard (cfg : HubSettings) (now : Time) (s : Session) (w : World)
    (log : List Note) :
    ∃ log', (aboard s w now log).write cfg
      = aboard (s.writeStep cfg now w).2.1 (s.writeStep cfg now w).2.2 now log' := by
  unfold write Session.writeStep aboard
  rw [s.isCancelled_eq, s.offer_eq]
  cases hphase : s.writing.phase with
  | ended => exact ⟨log, rfl⟩
  | sending limit =>
    simp only []
    unfold Session.resume
    rw [hphase]
    exact ⟨_, rfl⟩
  | closing limit reason =>
    simp only []
    unfold Session.resume
    rw [hphase]
    exact ⟨_, rfl⟩
  | ready =>
    cases hchoice : WriteSide.choose (s.intake w).tripped (s.intake w).offer
        (decide (s.writing.nextPing ≤ now)) with
    | close => exact ⟨_, rfl⟩
    | event e =>
      refine ⟨((aboard s w now log).hand cfg (.text (Wire.encodeEvent e))).log, ?_⟩
      exact (congrArg (fun i => Courier.mk _ i now _) (s.intake_takeEvent w)).symm
    | ping => exact ⟨_, rfl⟩
    | wait => exact ⟨log, rfl⟩

/-- What a session in a hub does once its writing side has ended, the courier does. -/
theorem settle_aboard (s : Session) (w : World) (log : List Note) :
    ∃ log', (aboard s w now log).settle = aboard s (s.afterWriting w) now log' := by
  unfold settle Session.afterWriting
  cases hphase : s.writing.phase with
  | ended =>
    obtain ⟨log', htrip⟩ := (aboard s w now log).trip_eq
    simp only [aboard, hphase] at htrip ⊢
    exact ⟨log', by rw [htrip, s.intake_cancel]⟩
  | ready | sending | closing => exact ⟨log, by simp only [aboard, hphase]⟩

/-- The writing side of a session in a hub takes the steps of a courier. -/
theorem step_write_aboard (s : Session) (w : World) (log : List Note) :
    ∃ log', (aboard s w now log).step cfg .write
      = aboard (s.writeStep cfg now w).2.1
          ((s.writeStep cfg now w).2.1.afterWriting (s.writeStep cfg now w).2.2) now log' := by
  obtain ⟨log₁, hwrite⟩ := write_aboard cfg now s w log
  show ∃ log', ((aboard s w now log).write cfg).settle = _
  rw [hwrite]
  exact settle_aboard _ _ log₁

/-! ## What others do to a hub -/

/-- Whether an incident is one that others bring about who use the hub. -/
def Incident.isRemote : Incident → Bool
  | .queue _ | .trip => true
  | _ => false

/-- One intake becomes another by what others do. -/
def Drifts (cfg : HubSettings) (i i' : Intake) : Prop :=
  ∀ s now log, ∃ is : List Incident, (∀ x ∈ is, x.isRemote = true) ∧
    ∃ log', run cfg is ⟨s, i, now, log⟩ = ⟨s, i', now, log'⟩

theorem Drifts.refl (i : Intake) : Drifts cfg i i :=
  fun _ _ log => ⟨[], nofun, log, rfl⟩

theorem Drifts.trans {i i' i'' : Intake} (h : Drifts cfg i i') (h' : Drifts cfg i' i'') :
    Drifts cfg i i'' := by
  intro s now log
  obtain ⟨is, his, log', hrun⟩ := h s now log
  obtain ⟨is', his', log'', hrun'⟩ := h' s now log'
  refine ⟨is ++ is', fun x hx => (List.mem_append.mp hx).elim (his x) (his' x), log'', ?_⟩
  rw [← hrun', ← hrun]
  exact List.foldl_append

theorem drifts_tripped (i : Intake) : Drifts cfg i { i with tripped := true } :=
  fun _ _ _ => ⟨[.trip], fun _ hx => List.mem_singleton.mp hx ▸ rfl, trip_eq _⟩

/-- An offer queues the event, or trips the signal, or is ignored. -/
theorem drifts_offer (e : Event) (o : Outbox) : Drifts cfg o.intake (o.offer e).2.intake := by
  unfold Outbox.offer
  split
  next => exact .refl _
  next =>
    split
    next => exact drifts_tripped _
    next => exact fun s now log =>
      ⟨[.queue e], fun _ hx => List.mem_singleton.mp hx ▸ rfl, _, rfl⟩

/-- A series of offers to an outbox is made by others. -/
theorem drifts_offerAll (es : List Event) (o : Outbox) :
    Drifts cfg o.intake (o.offerAll es).2.intake := by
  induction es generalizing o with
  | nil => exact .refl _
  | cons e es ih => exact (drifts_offer e o).trans (ih _)

/-- Whether a step takes events from the queue of a connection. -/
def takesFrom (c : ConnectionId) : Hub.Step → Bool
  | .receive d _ | .dropReceiver d => d == c
  | _ => false

/-- Whatever is done to a hub, it queues events for a session or trips its signal, as long as
nobody else takes from its queue. -/
theorem drifts_act {a : Hub.Step} (s : Session) (w : World)
    (ha : takesFrom s.handle.id a = false) :
    Drifts cfg (s.intake w) (s.intake { w with hub := Hub.act a w.hub }) := by
  have hsame : (Hub.act a w.hub).outboxes[s.handle.id]? = w.hub.outboxes[s.handle.id]? →
      Drifts cfg (s.intake w) (s.intake { w with hub := Hub.act a w.hub }) := by
    intro h
    unfold Session.intake
    rw [h]
    exact .refl _
  have hother {c : ConnectionId} {f : Outbox → Outbox} (hc : c ≠ s.handle.id) :
      (w.hub.updateOutbox c f).outboxes[s.handle.id]? = w.hub.outboxes[s.handle.id]? := by
    rw [Hub.outboxes_updateOutbox, if_neg hc]
  cases hs : a.isSending with
  | true =>
    unfold Session.intake
    rw [Hub.act_of_isSending hs, Hub.outboxes_dispatch]
    cases w.hub.outboxes[s.handle.id]? with
    | none => exact .refl _
    | some o => exact drifts_offerAll _ o
  | false =>
    cases a with
    | attach | detach | setInCall =>
      exact hsame (congrArg (·[s.handle.id]?) (Hub.outboxes_act_of_isMembership rfl _))
    | receive c n =>
      refine hsame ?_
      show (w.hub.take c n).2.outboxes[s.handle.id]? = _
      rw [Hub.take_snd]
      exact hother (ne_of_beq_false ha)
    | dropReceiver c => exact hsame (hother (ne_of_beq_false ha))
    | cancel c =>
      by_cases hc : c = s.handle.id
      · subst hc
        exact (s.intake_cancel w) ▸ drifts_tripped _
      · exact hsame (hother hc)
    | closeReceiver c =>
      by_cases hc : c = s.handle.id
      · subst hc
        unfold Session.intake Hub.act
        rw [Hub.outboxes_updateOutbox, if_pos rfl]
        cases w.hub.outboxes[s.handle.id]? with
        | none => exact .refl _
        | some o =>
          show Drifts cfg o.intake o.closeReceiver.intake
          rw [o.intake_closeReceiver]
          exact .refl _
      · exact hsame (hother hc)
    | broadcast | broadcastPresence | pushTo | pushCallParticipants | deliver => cases hs

/-! ## Every course of incidents -/

/-- Whatever happens to a courier from its start: the texts handed to the socket are those of the
first events queued, each once and in their order, with nothing but pings between them and a close
frame behind; nothing is handed over after a write that failed or took too long, nothing after a
close frame, and nothing but a close frame once the signal is tripped. When the writing side has
ended the signal is tripped, and a close frame was handed over exactly if the side ended since the
signal was tripped or the queue had come to its end.

The writing side of a session in a hub takes the same steps, and others can do nothing to it but
queue events and trip its signal. -/
theorem hands_over_a_prefix (cfg : HubSettings) (now : Time) (k : Handle) (is : List Incident) :
    let c := (start cfg now k).run cfg is
    (∃ taken, Note.events c.log = taken ++ c.intake.waiting ∧
      Note.texts c.log = taken.map Wire.encodeEvent) ∧
    (∀ f, .handed f ∈ c.log → f = .ping ∨ f = .close none ∨ ∃ t, f = .text t) ∧
    c.log.Pairwise (fun earlier later => ∀ f, later = .handed f →
      earlier ≠ .failed ∧ earlier ≠ .timedOut ∧ earlier ≠ .handed (.close none) ∧
      (earlier = .tripped → f = .close none)) ∧
    (∀ reason, c.session.writing.phase = .ended reason → c.intake.tripped = true ∧
      (.handed (.close none) ∈ c.log ↔ reason = .cancelled ∨ reason = .queueClosed)) ∧
    (∀ s w t log, ∃ log', (aboard s w t log).step cfg .write
      = aboard (s.writeStep cfg t w).2.1
          ((s.writeStep cfg t w).2.1.afterWriting (s.writeStep cfg t w).2.2) t log') ∧
    (∀ a s w t log, takesFrom s.handle.id a = false →
      ∃ others : List Incident, (∀ x ∈ others, x.isRemote = true) ∧
        ∃ log', (aboard s w t log).run cfg others
          = aboard s { w with hub := Hub.act a w.hub } t log') := by
  intro c
  have hsound : Sound c := (sound_start now k).run is
  refine ⟨hsound.accounts.taken, hsound.accounts.kinds, hsound.accounts.order, ?_, ?_, ?_⟩
  · intro reason hended
    have hphase := hsound.phase
    rw [hended] at hphase
    exact ⟨hsound.signal reason hended, hphase⟩
  · exact fun s w t log => step_write_aboard s w log
  · exact fun a s w t log ha => drifts_act s w ha s t log

/-- The first event is sent; the second is held back when the signal is tripped, and its write takes
too long. -/
def heldBack : List Incident :=
  [.queue (.participants []), .queue (.callParticipants []), .write,
    .socket { WebSocket.Socket.opened with link := .stalled }, .write, .trip, .write,
    .pass (Duration.ofSeconds 10).toNanos, .write, .write]

/-- The signal was tripped, but the side did not end for that, so no close frame follows. -/
theorem hands_over_a_prefix_held_back :
    ((start .default 0 ⟨⟨⟨1⟩⟩, ⟨⟨1⟩⟩, ⟨⟨⟨1⟩⟩, "alice"⟩⟩).run
      .default heldBack).session.writing.phase = .ended .writeTimeout ∧
    ((start .default 0 ⟨⟨⟨1⟩⟩, ⟨⟨1⟩⟩, ⟨⟨⟨1⟩⟩, "alice"⟩⟩).run
      .default heldBack).intake.tripped = true ∧
    .handed (.close none) ∉ ((start .default 0 ⟨⟨⟨1⟩⟩, ⟨⟨1⟩⟩, ⟨⟨⟨1⟩⟩, "alice"⟩⟩).run
      .default heldBack).log := by
  have hphase : ((start .default 0 ⟨⟨⟨1⟩⟩, ⟨⟨1⟩⟩, ⟨⟨⟨1⟩⟩, "alice"⟩⟩).run
      .default heldBack).session.writing.phase = .ended .writeTimeout := by decide +kernel
  obtain ⟨-, -, -, hended, -⟩ :=
    hands_over_a_prefix .default 0 ⟨⟨⟨1⟩⟩, ⟨⟨1⟩⟩, ⟨⟨⟨1⟩⟩, "alice"⟩⟩ heldBack
  obtain ⟨htripped, hclose⟩ := hended _ hphase
  exact ⟨hphase, htripped, fun hin => absurd (hclose.mp hin) (by decide)⟩

example :
    ((start .default 0 ⟨⟨⟨1⟩⟩, ⟨⟨1⟩⟩, ⟨⟨⟨1⟩⟩, "alice"⟩⟩).run .default heldBack).log
      = [.queued (.participants []), .queued (.callParticipants []),
        .handed (.text (Wire.encodeEvent (.participants []))), .written,
        .handed (.text (Wire.encodeEvent (.callParticipants []))), .tripped, .timedOut] := by
  decide +kernel

end Courier
end RoomHub
