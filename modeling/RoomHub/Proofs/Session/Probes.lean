import RoomHub.Proofs.Settings
import RoomHub.Session

/-!
# Is a responsive client ever dropped as idle?

A client is kept for the idle timeout after its last pong, and is pinged before that: the
ping interval is shorter than the idle timeout. But a ping that is due waits until the frame
that is being sent is gone and until the queue is empty, and then takes its own time.

A `Vigil` is one session under watch: the world around it does what it likes, the link holds
frames back and lets them go, the client sends what it likes and answers every ping at the
moment at which it is written, and time passes from timer to timer. The close signal is not
tripped, and no write runs into its timeout.

> `idle_although_responsive`: under the default settings the client may be dropped without
> ever having been pinged;
> `responsive_client_is_kept`: it is not, as long as the ping interval, the longest wait of a
> ping and the longest time that a frame takes stay below the idle timeout together.
-/

namespace RoomHub

/-! ## Pings in a socket -/

namespace WebSocket.Socket

variable {s : Socket}

/-- How many pings have left over the link. -/
def pings (s : Socket) : Nat := s.sent.count .ping

/-- A flush hands everything to the link, or holds everything back. -/
theorem flush_cases (s : Socket) :
    ((s.flush.1 = .done ∨ s.flush.1 = .closed) ∧ s.flush.2.outgoing = [] ∧
      s.flush.2.sent = s.sent ++ (s.outgoing ++ s.answer.toList) ∧ s.flush.2.answer = none) ∨
    ((s.flush.1 = .blocked ∨ s.flush.1 = .failed) ∧
      s.flush.2.outgoing = s.outgoing ++ s.answer.toList ∧ s.flush.2.sent = s.sent ∧
      s.flush.2.answer = none) := by
  unfold flush transmit
  cases hlink : s.link with
  | clear =>
    left
    simp only []
    split
    next => exact ⟨Or.inl rfl, rfl, rfl, rfl⟩
    next => exact ⟨Or.inr rfl, rfl, rfl, rfl⟩
  | stalled =>
    simp only []
    by_cases hempty : (s.outgoing ++ s.answer.toList).isEmpty = true
    · left
      rw [if_pos hempty]
      have hnil := List.isEmpty_iff.mp hempty
      simp only [hnil]
      split
      next => exact ⟨Or.inl rfl, rfl, (List.append_nil _).symm, rfl⟩
      next => exact ⟨Or.inr rfl, rfl, (List.append_nil _).symm, rfl⟩
    · right
      rw [if_neg hempty]
      exact ⟨Or.inl rfl, rfl, rfl, rfl⟩
  | broken => exact Or.inr ⟨Or.inr rfl, rfl, rfl, rfl⟩

/-- What a flush does about a ping that waits, when no answer is one: it leaves, or it waits
on. Nothing else makes pings leave or wait. -/
structure Flushes (s s' : Socket) (flushed : Flushed) : Prop where
  answer : s'.answer ≠ some .ping
  pings : .ping ∉ s.outgoing → .ping ∉ s'.outgoing ∧ s'.pings = s.pings
  ping : .ping ∈ s.outgoing →
    (.ping ∉ s'.outgoing ∧ s.pings < s'.pings) ∨
      (.ping ∈ s'.outgoing ∧ s'.pings = s.pings ∧ (flushed = .blocked ∨ flushed = .failed))

/-- A flush treats a ping that waits as `Flushes` says. -/
theorem flushes_flush (hanswer : s.answer ≠ some .ping) : Flushes s s.flush.2 s.flush.1 := by
  have hnone : .ping ∉ s.answer.toList := fun hmem => hanswer (Option.mem_toList.mp hmem)
  have hcount : s.answer.toList.count .ping = 0 := List.count_eq_zero.mpr hnone
  rcases s.flush_cases with ⟨-, hout, hsent, hno⟩ | ⟨hheld, hout, hsent, hno⟩
  · have hpings : s.flush.2.pings = s.pings + s.outgoing.count .ping := by
      unfold pings
      rw [hsent, List.count_append, List.count_append, hcount, Nat.add_zero]
    refine ⟨by rw [hno]; exact fun h => (nomatch h), fun hfree => ?_, fun hwaits => Or.inl ?_⟩
    · rw [hpings, List.count_eq_zero.mpr hfree, hout]
      exact ⟨List.not_mem_nil, rfl⟩
    · rw [hpings, hout]
      have hpos := List.count_pos_iff.mpr hwaits
      exact ⟨List.not_mem_nil, by omega⟩
  · have hpings : s.flush.2.pings = s.pings := by
      unfold pings
      rw [hsent]
    refine ⟨by rw [hno]; exact fun h => (nomatch h), fun hfree => ?_, fun hwaits => Or.inr ?_⟩
    · rw [hout]
      exact ⟨fun hmem => (List.mem_append.mp hmem).elim hfree hnone, hpings⟩
    · rw [hout]
      exact ⟨List.mem_append_left _ hwaits, hpings, hheld⟩

/-- Sending the answers that are due treats a ping that waits as a flush does. -/
theorem flushes_flushAnswers (hanswer : s.answer ≠ some .ping) :
    Flushes s s.flushAnswers.2 .blocked := by
  have hflush := flushes_flush hanswer
  have hany : ∀ {s' : Socket} {flushed : Flushed}, Flushes s s' flushed →
      Flushes s s' .blocked := fun h =>
    ⟨h.answer, h.pings, fun hwaits => (h.ping hwaits).imp id fun h => ⟨h.1, h.2.1, Or.inl rfl⟩⟩
  have hsame : ∀ s' : Socket, s'.answer = s.answer → s'.outgoing = s.outgoing →
      s'.sent = s.sent → Flushes s s' .blocked := by
    intro s' ha ho hs
    have hpings : s'.pings = s.pings := by
      unfold pings
      rw [hs]
    refine ⟨ha ▸ hanswer, fun hfree => ⟨ho ▸ hfree, hpings⟩, fun hwaits => Or.inr ?_⟩
    exact ⟨ho ▸ hwaits, hpings, Or.inl rfl⟩
  unfold flushAnswers
  split
  next =>
    split
    next s' heq =>
      rw [heq] at hflush
      exact ⟨hflush.answer, hflush.pings, hflush.ping⟩
    next => exact hany hflush
  next =>
    split
    next => exact hsame s rfl rfl rfl
    next => exact hsame _ rfl rfl rfl

end WebSocket.Socket

/-! ## A session under watch -/

/-- A session, the world around it, and the time. -/
structure Vigil where
  session : Session
  world : World
  now : Time

/-- Something that may happen to a session under watch. -/
inductive Happening where
  /-- The world changes around the session: events are queued, others come and go. -/
  | around (world : World)
  /-- The link begins to hold frames back, or lets them go. -/
  | link (l : WebSocket.Link)
  /-- The reading side takes something that came from the client. -/
  | arrive (arrival : Arrival)
  /-- The reading side sends the answers that wait. -/
  | flush
  /-- The writing side takes a step. -/
  | write
  /-- The reading side looks at its deadline. -/
  | expire
  /-- Time passes. -/
  | pass (later : Time)

namespace Vigil

variable (cfg : HubSettings)

/-- A session that has just begun. -/
def start (now : Time) (k : Handle) (w : World) : Vigil := ⟨Session.begin cfg now k, w, now⟩

/-- The vigil with the socket changed. -/
def onSocket (f : WebSocket.Socket → WebSocket.Socket) (v : Vigil) : Vigil :=
  { v with session := { v.session with socket := f v.session.socket } }

/-- Lets the reading side take what came from the client, if it waits. -/
def hear (arrival : Arrival) (v : Vigil) : Vigil :=
  match v.session.reading with
  | .error _ => v
  | .ok side =>
    let (reading, w) :=
      (side.take v.session.handle cfg.idleTimeout v.now arrival).run v.world
    { v with session := { v.session with reading := reading }, world := w }

/-- The vigil after something happened. -/
def happen : Happening → Vigil → Vigil
  | .around w, v => { v with world := w }
  | .link l, v => v.onSocket (.setLink l)
  | .arrive (.item i), v => (v.hear cfg (.item i)).onSocket (.notice i)
  | .arrive arrival, v => v.hear cfg arrival
  | .flush, v => v.onSocket fun s => s.flushAnswers.2
  | .write, v =>
    let (_, s, w) := v.session.writeStep cfg v.now v.world
    { v with session := s, world := w }
  | .expire, v =>
    match v.session.reading with
    | .error _ => v
    | .ok side => { v with session := { v.session with reading := side.wait v.now } }
  | .pass t, v => { v with now := t }

/-- The link does not break. Time passes when the writing side has nothing to do, and not
beyond the next timer. -/
def permits (v : Vigil) : Happening → Bool
  | .link l => l ≠ .broken
  | .pass t =>
    v.now ≤ t && (v.session.timers v.world).all (t ≤ ·) &&
      !(v.session.writeStep cfg v.now v.world).1
  | _ => true

/-- The close signal is not tripped, and the writing side has not failed or given up. -/
def isSound (v : Vigil) : Bool :=
  !v.session.isCancelled v.world &&
    match v.session.writing.phase with
    | .ready | .sending _ => true
    | .closing .. | .ended _ => false

/-- How the reading side ended, if it has. -/
def ending? (v : Vigil) : Option Ending :=
  match v.session.reading with
  | .error e => some e
  | .ok _ => none

/-- The vigil with the client's answer, if a ping has left meanwhile. -/
def echoed (before : Vigil) (v : Vigil) : Vigil :=
  if before.session.socket.pings < v.session.socket.pings then v.hear cfg (.item (.pong []))
  else v

/-- The vigil after something happened and the client has answered, unless it is not what
may happen. -/
def step? (h : Happening) (v : Vigil) : Option Vigil :=
  let v' := v.echoed cfg (v.happen cfg h)
  if v.permits cfg h && v'.isSound then some v' else none

/-- The vigil after all that happened. -/
def run? : List Happening → Vigil → Option Vigil
  | [], v => some v
  | h :: hs, v => (v.step? cfg h).bind (run? hs)

/-! ## What the writing side does -/

end Vigil

namespace Session

variable {cfg : HubSettings} {now : Time} {s : Session} {w : World}

/-- A step of the writing side while a frame is being sent is a flush. -/
theorem writeStep_of_sending {limit : Time} (h : s.writing.phase = .sending limit) :
    (s.writeStep cfg now w).2
      = ({ s with
            socket := s.socket.flush.2
            writing := s.writing.afterSend limit now s.socket.flush.1 }, w) := by
  unfold writeStep
  rw [h]

/-- A writing side that is ready begins to close, or begins to send an event or a ping that is
due, or waits. -/
theorem writeStep_of_ready (cfg : HubSettings) (now : Time) (w : World)
    (h : s.writing.phase = .ready) :
    (∃ reason, (s.writeStep cfg now w).2 = (s.beginClose cfg now reason, w)) ∨
    (∃ e, (s.writeStep cfg now w).2
      = (s.beginSend cfg now (.text (Wire.encodeEvent e)), s.takeEvent w)) ∨
    (s.writing.nextPing ≤ now ∧ (s.writeStep cfg now w).2
      = (beginSend cfg now .ping { s with
          writing := { s.writing with
            nextPing := WriteSide.pingAfter cfg.pingInterval now s.writing.nextPing } }, w)) ∨
    (s.writeStep cfg now w).2 = (s, w) := by
  unfold writeStep
  rw [h]
  simp only []
  split
  next reason _ => exact Or.inl ⟨reason, rfl⟩
  next e _ => exact Or.inr (Or.inl ⟨e, rfl⟩)
  next hping =>
    refine Or.inr (Or.inr (Or.inl ⟨?_, rfl⟩))
    unfold WriteSide.choose at hping
    split at hping
    next => cases hping
    next =>
      split at hping
      next => cases hping
      next => cases hping
      next =>
        split at hping
        next hdue => exact of_decide_eq_true hdue
        next => cases hping
  next => exact Or.inr (Or.inr (Or.inr rfl))

end Session

/-- The next ping is due one interval after this one at the latest. -/
theorem WriteSide.pingAfter_le {ping : Duration} {now due : Time} (h : due ≤ now) :
    pingAfter ping now due ≤ now + ping.toNanos := by
  unfold pingAfter
  split
  next => exact Nat.le_refl _
  next => exact Nat.add_le_add_right h _

namespace WebSocket.Socket

variable {s : Socket} {f : Outgoing}

/-- What a send does about pings: it is a flush with one frame more, unless it fails. -/
theorem send_cases (s : Socket) (f : Outgoing) :
    (s.send f).1 = .failed ∨ ∃ s₁ : Socket, s₁.outgoing = s.outgoing ++ [f] ∧ s₁.sent = s.sent ∧
      s₁.answer = s.answer ∧ s.send f = s₁.flush := by
  unfold send
  split
  next =>
    refine Or.inr ⟨_, ?_, ?_, ?_, rfl⟩
    all_goals rfl
  next => exact Or.inl rfl

end WebSocket.Socket

/-- Whatever comes from a client, it ends the reading side for another reason than its
deadline, or moves the deadline to a whole idle timeout from now, or leaves it. -/
theorem ReadSide.run_take (k : Handle) (idle : Duration) (now : Time) (side : ReadSide)
    (arrival : Arrival) (w : World) :
    (∃ side', ((side.take k idle now arrival).run w).1 = .ok side' ∧
      (side'.deadline = side.deadline ∨ side'.deadline = now + idle.toNanos)) ∨
    ∃ e, ((side.take k idle now arrival).run w).1 = .error e ∧ e ≠ .idleTimeout := by
  cases arrival with
  | failed => exact Or.inr ⟨_, rfl, fun h => (nomatch h)⟩
  | ended => exact Or.inr ⟨_, rfl, fun h => (nomatch h)⟩
  | item i =>
    cases i with
    | text text =>
      refine Or.inl ⟨{ side with inCall := ((actOnText k side.inCall text).run w).1 }, ?_,
        Or.inl rfl⟩
      exact congrArg Prod.fst (Program.run_bind (actOnText k side.inCall text) _ w)
    | pong => exact Or.inl ⟨_, rfl, Or.inr rfl⟩
    | ping => exact Or.inl ⟨_, rfl, Or.inl rfl⟩
    | binary => exact Or.inl ⟨_, rfl, Or.inl rfl⟩
    | close => exact Or.inr ⟨_, rfl, fun h => (nomatch h)⟩

/-- A socket never answers with a ping. -/
theorem WebSocket.Socket.notice_pings (i : Item) (s : Socket) :
    (s.notice i).outgoing = s.outgoing ∧ (s.notice i).pings = s.pings ∧
      (s.answer ≠ some .ping → (s.notice i).answer ≠ some .ping) := by
  unfold notice
  split
  next => exact ⟨rfl, rfl, fun _ h => (nomatch h)⟩
  next => exact ⟨rfl, rfl, fun _ h => (nomatch h)⟩
  next => exact ⟨rfl, rfl, id⟩

/-- A side that neither closes nor has ended. -/
def WriteSide.IsOpen (side : WriteSide) : Prop :=
  side.phase = .ready ∨ ∃ limit, side.phase = .sending limit

/-- A side that is still open after a send has come to its end with it, or goes on. -/
theorem WriteSide.afterSend_of_isOpen {limit : Time} {side : WriteSide} {now : Time}
    {flushed : WebSocket.Flushed} (h : (side.afterSend limit now flushed).IsOpen) :
    (flushed = .blocked → (side.afterSend limit now flushed).phase = .sending limit) ∧
      flushed ≠ .failed := by
  cases flushed with
  | done | closed => exact ⟨fun h => (nomatch h), fun h => (nomatch h)⟩
  | failed =>
    rcases h with h | ⟨_, h⟩
    · cases h
    · cases h
  | blocked =>
    refine ⟨fun _ => ?_, fun h => (nomatch h)⟩
    unfold afterSend at h ⊢
    by_cases hlate : limit ≤ now
    · rw [if_pos hlate] at h
      rcases h with h | ⟨_, h⟩
      · cases h
      · cases h
    · rw [if_neg hlate]

theorem WriteSide.nextPing_afterSend (limit : Time) (side : WriteSide) (now : Time)
    (flushed : WebSocket.Flushed) :
    (side.afterSend limit now flushed).nextPing = side.nextPing := by
  cases flushed <;> rfl

/-- Once the close frame is on its way the side is never open again. -/
theorem WriteSide.not_isOpen_afterClose {limit : Time} {reason : Ending} {side : WriteSide}
    {now : Time} {flushed : WebSocket.Flushed} :
    ¬(side.afterClose limit reason now flushed).IsOpen := by
  intro h
  unfold afterClose at h
  split at h
  next =>
    split at h
    all_goals rcases h with h | ⟨_, h⟩ <;> cases h
  next => rcases h with h | ⟨_, h⟩ <;> cases h

/-! ## The deadline lies ahead -/

namespace Vigil

/-- No ping that was due has been kept waiting for longer than `lag`, and no frame has been on
its way for longer than `delay`. -/
structure Brisk (cfg : HubSettings) (lag delay : Nat) (v : Vigil) : Prop where
  ping : v.now ≤ v.session.writing.nextPing + lag
  frame : ∀ limit, v.session.writing.phase = .sending limit →
    v.now + cfg.writeTimeout.toNanos ≤ limit + delay

instance (cfg : HubSettings) (lag delay : Nat) (v : Vigil) : Decidable (v.Brisk cfg lag delay) :=
  match hphase : v.session.writing.phase with
  | .sending limit =>
    decidable_of_iff (v.now ≤ v.session.writing.nextPing + lag ∧
        v.now + cfg.writeTimeout.toNanos ≤ limit + delay)
      ⟨fun h => ⟨h.1, fun _ heq => WritePhase.sending.inj (hphase.symm.trans heq) ▸ h.2⟩,
        fun h => ⟨h.ping, h.frame limit hphase⟩⟩
  | .ready | .closing .. | .ended _ =>
    decidable_of_iff (v.now ≤ v.session.writing.nextPing + lag)
      ⟨fun h => ⟨h, fun _ heq => nomatch hphase.symm.trans heq⟩, fun h => h.ping⟩

/-- How the deadline of the reading side and the pings stand to each other. When no ping is on
its way, the next one is due a ping interval after the pong that moved the deadline, at the
latest. When one is, it will have left before the deadline, even if it takes the longest
time that a frame takes. -/
structure Ahead (cfg : HubSettings) (delay : Nat) (now : Time)
    (outgoing : List WebSocket.Outgoing) (writing : WriteSide) (side : ReadSide) : Prop where
  recent : side.deadline ≤ now + cfg.idleTimeout.toNanos
  probed : .ping ∉ outgoing →
    writing.nextPing + cfg.idleTimeout.toNanos ≤ side.deadline + cfg.pingInterval.toNanos
  probing : .ping ∈ outgoing → ∃ limit, writing.phase = .sending limit ∧
    limit + delay < side.deadline + cfg.writeTimeout.toNanos ∧
    writing.nextPing + cfg.writeTimeout.toNanos ≤ limit + cfg.pingInterval.toNanos ∧
    limit ≤ now + cfg.writeTimeout.toNanos

/-- The session is under way, and if it reads, its deadline lies ahead. -/
structure Timely (cfg : HubSettings) (delay : Nat) (v : Vigil) : Prop where
  isOpen : v.session.writing.IsOpen
  answer : v.session.socket.answer ≠ some .ping
  notIdle : v.session.reading ≠ .error .idleTimeout
  pinging : .ping ∈ v.session.socket.outgoing → ∃ limit, v.session.writing.phase = .sending limit
  ahead : ∀ side, v.session.reading = .ok side →
    Ahead cfg delay v.now v.session.socket.outgoing v.session.writing side

variable {cfg : HubSettings} {lag delay : Nat} {v v' : Vigil} {side side' : ReadSide}
  {now : Time} {outgoing : List WebSocket.Outgoing} {writing : WriteSide}

/-- The deadline lies ahead as long as pings and frames are kept waiting for no longer than the
margin allows. -/
theorem Ahead.lt_deadline
    (hmargin : cfg.pingInterval.toNanos + lag + delay < cfg.idleTimeout.toNanos)
    (hb : v.Brisk cfg lag delay)
    (ha : Ahead cfg delay v.now v.session.socket.outgoing v.session.writing side) :
    v.now < side.deadline := by
  by_cases hping : .ping ∈ v.session.socket.outgoing
  · obtain ⟨limit, hphase, hlimit, -⟩ := ha.probing hping
    have hframe := hb.frame limit hphase
    unfold Time at *
    omega
  · have hprobed := ha.probed hping
    have hlag := hb.ping
    unfold Time at *
    omega

/-- A later deadline is ahead all the more. -/
theorem Ahead.later (ha : Ahead cfg delay now outgoing writing side)
    (hlater : side.deadline ≤ side'.deadline)
    (hrecent : side'.deadline ≤ now + cfg.idleTimeout.toNanos) :
    Ahead cfg delay now outgoing writing side' where
  recent := hrecent
  probed hnone := Nat.le_trans (ha.probed hnone) (Nat.add_le_add_right hlater _)
  probing hping := by
    obtain ⟨limit, hphase, hlimit, hrest⟩ := ha.probing hping
    exact ⟨limit, hphase, Nat.lt_of_lt_of_le hlimit (Nat.add_le_add_right hlater _), hrest⟩

/-- A ping has left just now, and the client's answer is about to come. -/
structure Answerable (cfg : HubSettings) (v : Vigil) : Prop where
  isOpen : v.session.writing.IsOpen
  answer : v.session.socket.answer ≠ some .ping
  notIdle : v.session.reading ≠ .error .idleTimeout
  noPing : .ping ∉ v.session.socket.outgoing
  nextPing : ∀ side, v.session.reading = .ok side →
    v.session.writing.nextPing ≤ v.now + cfg.pingInterval.toNanos

theorem hear_of_error {e : Ending} (h : v.session.reading = .error e) (arrival : Arrival) :
    v.hear cfg arrival = v := by
  unfold hear
  rw [h]

/-- What the client sends is heard by the reading side, and by nothing else. -/
theorem hear_cases (cfg : HubSettings) (arrival : Arrival) (v : Vigil) :
    ∃ reading w, v.hear cfg arrival
        = { v with session := { v.session with reading := reading }, world := w } ∧
      (v.session.reading ≠ .error .idleTimeout → reading ≠ .error .idleTimeout) ∧
      ∀ side', reading = .ok side' → ∃ side, v.session.reading = .ok side ∧
        (side'.deadline = side.deadline ∨
          side'.deadline = v.now + cfg.idleTimeout.toNanos) := by
  cases hreading : v.session.reading with
  | error e =>
    refine ⟨v.session.reading, v.world, hear_of_error hreading arrival, ?_, ?_⟩
    · rw [hreading]
      exact id
    · rw [hreading]
      exact fun side' h => (nomatch h)
  | ok side =>
    unfold hear
    rw [hreading]
    refine ⟨_, _, rfl, fun _ => ?_, fun side' hside' => ⟨side, rfl, ?_⟩⟩
    all_goals
      rcases side.run_take v.session.handle cfg.idleTimeout v.now arrival v.world with
        ⟨side'', heq, hdeadline⟩ | ⟨e, heq, hne⟩
    · rw [heq]
      exact fun h => (nomatch h)
    · rw [heq]
      exact fun h => hne (Except.error.inj h)
    · rw [heq] at hside'
      cases hside'
      exact hdeadline
    · rw [heq] at hside'
      cases hside'

/-- The client's answer moves the deadline far enough. -/
theorem Answerable.hear (h : Answerable cfg v) :
    Timely cfg delay (v.hear cfg (.item (.pong []))) := by
  cases hreading : v.session.reading with
  | error e =>
    rw [hear_of_error hreading]
    refine ⟨h.isOpen, h.answer, h.notIdle, fun hping => absurd hping h.noPing,
      fun side hside => ?_⟩
    rw [hreading] at hside
    cases hside
  | ok side =>
    have hheard : v.hear cfg (.item (.pong []))
        = { v with session := { v.session with
              reading := .ok { side with deadline := v.now + cfg.idleTimeout.toNanos } } } := by
      unfold Vigil.hear
      rw [hreading]
      rfl
    rw [hheard]
    refine ⟨h.isOpen, h.answer, fun hidle => (nomatch hidle), fun hping => absurd hping h.noPing,
      fun side' hside' => ?_⟩
    cases hside'
    refine ⟨Nat.le_refl _, fun _ => ?_, fun hping => absurd hping h.noPing⟩
    have hnext := h.nextPing side hreading
    show v.session.writing.nextPing + _ ≤ v.now + _ + _
    unfold Time at *
    omega

/-- A session that is timely after something happened, when the client has answered the ping
that has left, if one has. -/
def Outcome (cfg : HubSettings) (delay : Nat) (v v' : Vigil) : Prop :=
  (Timely cfg delay v' ∧ v'.session.socket.pings = v.session.socket.pings) ∨
    (Answerable cfg v' ∧ v.session.socket.pings < v'.session.socket.pings)

/-- Once the client has answered the ping that left, if one did, the session is timely. -/
theorem Outcome.echoed (h : Outcome cfg delay v v') : Timely cfg delay (v.echoed cfg v') := by
  unfold Vigil.echoed
  rcases h with ⟨htimely, hsame⟩ | ⟨hanswerable, hless⟩
  · rw [if_neg (by omega)]
    exact htimely
  · rw [if_pos hless]
    exact hanswerable.hear

/-- What leaves the pings, the writing side and the time alone, and moves the deadline as the
client does, keeps a session timely. -/
theorem Timely.of_reading (h : Timely cfg delay v) (hnow : v'.now = v.now)
    (hanswer : v'.session.socket.answer ≠ some .ping)
    (hout : v'.session.socket.outgoing = v.session.socket.outgoing)
    (hwriting : v'.session.writing = v.session.writing)
    (hidle : v'.session.reading ≠ .error .idleTimeout)
    (hreading : ∀ side', v'.session.reading = .ok side' →
      ∃ side, v.session.reading = .ok side ∧ (side'.deadline = side.deadline ∨
        side'.deadline = v.now + cfg.idleTimeout.toNanos)) : Timely cfg delay v' := by
  refine ⟨hwriting ▸ h.isOpen, hanswer, hidle, hout ▸ hwriting ▸ h.pinging,
    fun side' hside' => ?_⟩
  obtain ⟨side, hside, hdeadline⟩ := hreading side' hside'
  have ha := h.ahead side hside
  rw [hnow, hout, hwriting]
  rcases hdeadline with hsame | hmoved
  · exact ha.later (Nat.le_of_eq hsame.symm) (hsame ▸ ha.recent)
  · exact ha.later (hmoved ▸ ha.recent) (Nat.le_of_eq hmoved)

/-- A flush keeps a session timely, or makes the ping leave that was on its way. -/
theorem Timely.flush {flushed : WebSocket.Flushed} (h : Timely cfg delay v)
    (hf : v.session.socket.Flushes v'.session.socket flushed) (hnow : v'.now = v.now)
    (hreading : v'.session.reading = v.session.reading) (hopen : v'.session.writing.IsOpen)
    (hnext : v'.session.writing.nextPing = v.session.writing.nextPing)
    (hphase : .ping ∈ v'.session.socket.outgoing →
      v'.session.writing.phase = v.session.writing.phase) : Outcome cfg delay v v' := by
  have hidle : v'.session.reading ≠ .error .idleTimeout := by
    rw [hreading]
    exact h.notIdle
  by_cases hping : .ping ∈ v.session.socket.outgoing
  · rcases hf.ping hping with ⟨hgone, hless⟩ | ⟨hheld, hsame, -⟩
    · refine Or.inr ⟨⟨hopen, hf.answer, hidle, hgone, fun side hside => ?_⟩, hless⟩
      rw [hreading] at hside
      obtain ⟨limit, -, -, hnextPing, hlimit⟩ := (h.ahead side hside).probing hping
      rw [hnext, hnow]
      unfold Time at *
      omega
    · refine Or.inl ⟨⟨hopen, hf.answer, hidle, fun _ => hphase hheld ▸ h.pinging hping,
        fun side hside => ?_⟩, hsame⟩
      rw [hreading] at hside
      have ha := h.ahead side hside
      refine ⟨hnow ▸ ha.recent, fun hnone => absurd hheld hnone, fun _ => ?_⟩
      rw [hphase hheld, hnext, hnow]
      exact ha.probing hping
  · obtain ⟨hnone, hsame⟩ := hf.pings hping
    refine Or.inl ⟨⟨hopen, hf.answer, hidle, fun hheld => absurd hheld hnone,
      fun side hside => ?_⟩, hsame⟩
    rw [hreading] at hside
    have ha := h.ahead side hside
    refine ⟨hnow ▸ ha.recent, fun _ => ?_, fun hheld => absurd hheld hnone⟩
    rw [hnext]
    exact ha.probed hping

/-- A ping that is due is written in time: it may take as long as a frame takes. -/
theorem Timely.ping (socket : WebSocket.Socket)
    (hmargin : cfg.pingInterval.toNanos + lag + delay < cfg.idleTimeout.toNanos)
    (h : Timely cfg delay v) (hb : v.Brisk cfg lag delay)
    (hnone : .ping ∉ v.session.socket.outgoing) (hwaits : .ping ∈ socket.outgoing)
    (hpings : socket.pings = v.session.socket.pings)
    {flushed : WebSocket.Flushed} (hf : socket.Flushes v'.session.socket flushed)
    (hnow : v'.now = v.now) (hreading : v'.session.reading = v.session.reading)
    (hopen : v'.session.writing.IsOpen)
    (hnext : v'.session.writing.nextPing ≤ v.now + cfg.pingInterval.toNanos)
    (hphase : .ping ∈ v'.session.socket.outgoing →
      v'.session.writing.phase = .sending (v.now + cfg.writeTimeout.toNanos)) :
    Outcome cfg delay v v' := by
  have hidle : v'.session.reading ≠ .error .idleTimeout := by
    rw [hreading]
    exact h.notIdle
  rcases hf.ping hwaits with ⟨hgone, hless⟩ | ⟨hheld, hsame, -⟩
  · refine Or.inr ⟨⟨hopen, hf.answer, hidle, hgone, fun side hside => ?_⟩, hpings ▸ hless⟩
    rw [hnow]
    exact hnext
  · refine Or.inl ⟨⟨hopen, hf.answer, hidle, fun _ => ⟨_, hphase hheld⟩,
      fun side hside => ?_⟩, hsame.trans hpings⟩
    rw [hreading] at hside
    have ha := h.ahead side hside
    refine ⟨hnow ▸ ha.recent, fun hno => absurd hheld hno, fun _ => ?_⟩
    refine ⟨_, hphase hheld, ?_, ?_, Nat.le_of_eq (by rw [hnow])⟩
    · -- it was due a ping interval after the last pong, and has waited for `lag` at most
      have hprobed := ha.probed hnone
      have hlag := hb.ping
      unfold Time at *
      omega
    · unfold Time at *
      omega

/-- The session after a write, in a vigil. -/
def wrote (v : Vigil) (s : Session) (w : World) : Vigil := { v with session := s, world := w }

/-- Sending an event keeps a session timely. -/
theorem Timely.beginSend_text {text : String} {w : World} (h : Timely cfg delay v)
    (hnone : .ping ∉ v.session.socket.outgoing)
    (hopen : (v.session.beginSend cfg v.now (.text text)).writing.IsOpen) :
    Outcome cfg delay v (v.wrote (v.session.beginSend cfg v.now (.text text)) w) := by
  replace hopen : (v.session.writing.afterSend _ v.now
    (v.session.socket.send (.text text)).1).IsOpen := hopen
  obtain ⟨-, hnotFailed⟩ := WriteSide.afterSend_of_isOpen hopen
  rcases v.session.socket.send_cases (.text text) with hfailed | ⟨s₁, hout, hsent, hanswer, heq⟩
  · exact absurd hfailed hnotFailed
  · have hf := WebSocket.Socket.flushes_flush (s := s₁) (hanswer ▸ h.answer)
    have hnone₁ : .ping ∉ s₁.outgoing := by
      rw [hout]
      simpa using hnone
    have hpings₁ : s₁.pings = v.session.socket.pings := by
      unfold WebSocket.Socket.pings
      rw [hsent]
    rw [← heq] at hf
    -- the text is no ping, so the flush is one of the socket without it, as far as pings go
    have hf' : v.session.socket.Flushes (v.session.socket.send (.text text)).2
        (v.session.socket.send (.text text)).1 :=
      ⟨hf.answer, fun _ => hpings₁ ▸ hf.pings hnone₁, fun hping => absurd hping hnone⟩
    refine h.flush hf' rfl rfl hopen (WriteSide.nextPing_afterSend ..) fun hping => ?_
    exact absurd hping (hf'.pings hnone).1

/-- Sending a ping keeps a session timely: it leaves at once, or it is on its way. -/
theorem Timely.beginSend_ping {w : World} {next : Time}
    (hmargin : cfg.pingInterval.toNanos + lag + delay < cfg.idleTimeout.toNanos)
    (h : Timely cfg delay v) (hb : v.Brisk cfg lag delay)
    (hnone : .ping ∉ v.session.socket.outgoing)
    (hnext : next ≤ v.now + cfg.pingInterval.toNanos) :
    let s : Session := { v.session with writing := { v.session.writing with nextPing := next } }
    (s.beginSend cfg v.now .ping).writing.IsOpen →
      Outcome cfg delay v (v.wrote (s.beginSend cfg v.now .ping) w) := by
  intro s hopen
  replace hopen : (s.writing.afterSend (v.now + cfg.writeTimeout.toNanos) v.now
    (v.session.socket.send .ping).1).IsOpen := hopen
  obtain ⟨hblocked, hnotFailed⟩ := WriteSide.afterSend_of_isOpen hopen
  rcases v.session.socket.send_cases .ping with hfailed | ⟨s₁, hout, hsent, hanswer, heq⟩
  · exact absurd hfailed hnotFailed
  · have hf := WebSocket.Socket.flushes_flush (s := s₁) (hanswer ▸ h.answer)
    have hwaits : .ping ∈ s₁.outgoing := by
      rw [hout]
      exact List.mem_append_right _ List.mem_cons_self
    have hpings : s₁.pings = v.session.socket.pings := by
      unfold WebSocket.Socket.pings
      rw [hsent]
    rw [← heq] at hf
    refine Timely.ping s₁ hmargin h hb hnone hwaits hpings hf rfl rfl hopen ?_ fun hping => ?_
    · refine Nat.le_trans (Nat.le_of_eq ?_) hnext
      exact WriteSide.nextPing_afterSend ..
    · rcases hf.ping hwaits with ⟨hgone, -⟩ | ⟨-, -, hheld | hfailed⟩
      · exact absurd hping hgone
      · exact hblocked hheld
      · exact absurd hfailed hnotFailed

/-- A step of the writing side keeps a session timely, while it stays open. -/
theorem Timely.write
    (hmargin : cfg.pingInterval.toNanos + lag + delay < cfg.idleTimeout.toNanos)
    (h : Timely cfg delay v) (hb : v.Brisk cfg lag delay)
    (hopen : (v.happen cfg .write).session.writing.IsOpen) :
    Outcome cfg delay v (v.happen cfg .write) := by
  have hhappen : v.happen cfg .write = v.wrote (v.session.writeStep cfg v.now v.world).2.1
      (v.session.writeStep cfg v.now v.world).2.2 := rfl
  rw [hhappen] at hopen ⊢
  rcases h.isOpen with hready | ⟨limit, hsending⟩
  · -- nothing is on its way when the side is ready
    have hnone : .ping ∉ v.session.socket.outgoing := by
      intro hping
      obtain ⟨limit, hphase⟩ := h.pinging hping
      rw [hready] at hphase
      cases hphase
    rcases Session.writeStep_of_ready cfg v.now v.world hready with
      ⟨reason, hstep⟩ | ⟨e, hstep⟩ | ⟨hdue, hstep⟩ | hstep
    all_goals rw [hstep] at hopen ⊢
    · exact absurd hopen WriteSide.not_isOpen_afterClose
    · exact h.beginSend_text hnone hopen
    · exact Timely.beginSend_ping hmargin h hb hnone (WriteSide.pingAfter_le hdue) hopen
    · exact Or.inl ⟨⟨h.isOpen, h.answer, h.notIdle, h.pinging, h.ahead⟩, rfl⟩
  · rw [Session.writeStep_of_sending hsending] at hopen ⊢
    replace hopen : (v.session.writing.afterSend limit v.now v.session.socket.flush.1).IsOpen :=
      hopen
    obtain ⟨hblocked, hnotFailed⟩ := WriteSide.afterSend_of_isOpen hopen
    have hf := WebSocket.Socket.flushes_flush h.answer
    refine h.flush hf rfl rfl hopen (WriteSide.nextPing_afterSend ..) fun hping => ?_
    have hwaits : .ping ∈ v.session.socket.outgoing := by
      refine Classical.byContradiction fun hno => ?_
      exact (hf.pings hno).1 hping
    rcases hf.ping hwaits with ⟨hgone, -⟩ | ⟨-, -, hheld | hfailed⟩
    · exact absurd hping hgone
    · rw [hsending]
      exact hblocked hheld
    · exact absurd hfailed hnotFailed

/-- Time that passes keeps a session timely. -/
theorem Timely.pass {t : Time} (h : Timely cfg delay v) (hle : v.now ≤ t) :
    Timely cfg delay { v with now := t } := by
  refine ⟨h.isOpen, h.answer, h.notIdle, h.pinging, fun side hside => ?_⟩
  have ha := h.ahead side hside
  refine ⟨Nat.le_trans ha.recent (Nat.add_le_add_right hle _), ha.probed, fun hping => ?_⟩
  obtain ⟨limit, hphase, hlimit, hnext, hrecent⟩ := ha.probing hping
  exact ⟨limit, hphase, hlimit, hnext, Nat.le_trans hrecent (Nat.add_le_add_right hle _)⟩

/-- The reading side finds its deadline ahead whenever it looks. -/
theorem Timely.expire
    (hmargin : cfg.pingInterval.toNanos + lag + delay < cfg.idleTimeout.toNanos)
    (h : Timely cfg delay v) (hb : v.Brisk cfg lag delay) : v.happen cfg .expire = v := by
  obtain ⟨⟨k, stage, socket, reading, writing, left⟩, w, now⟩ := v
  cases reading with
  | error e => rfl
  | ok side =>
    have hwait : side.wait now = .ok side :=
      if_neg (Nat.not_le.mpr ((h.ahead side rfl).lt_deadline hmargin hb))
    simp only [happen, hwait]

/-- Whatever happens, a session stays timely while it stays open. -/
theorem Timely.happen
    (hmargin : cfg.pingInterval.toNanos + lag + delay < cfg.idleTimeout.toNanos)
    (h : Timely cfg delay v) (hb : v.Brisk cfg lag delay) (x : Happening)
    (hpermits : v.permits cfg x = true) (hopen : (v.happen cfg x).session.writing.IsOpen) :
    Outcome cfg delay v (v.happen cfg x) := by
  cases x with
  | around w => exact Or.inl ⟨⟨h.isOpen, h.answer, h.notIdle, h.pinging, h.ahead⟩, rfl⟩
  | link l =>
    have hlink : ∀ s : WebSocket.Socket, (s.setLink l).answer = s.answer ∧
        (s.setLink l).outgoing = s.outgoing ∧ (s.setLink l).pings = s.pings := by
      intro s
      unfold WebSocket.Socket.setLink
      split
      all_goals exact ⟨rfl, rfl, rfl⟩
    obtain ⟨hanswer, hout, hpings⟩ := hlink v.session.socket
    refine Or.inl ⟨h.of_reading rfl ?_ hout rfl h.notIdle fun side hside => ?_, hpings⟩
    · exact hanswer ▸ h.answer
    · exact ⟨side, hside, Or.inl rfl⟩
  | arrive arrival =>
    obtain ⟨reading, w, hheard, hidle, hreading⟩ := hear_cases cfg arrival v
    have htimely : Timely cfg delay (v.hear cfg arrival) := by
      rw [hheard]
      exact h.of_reading rfl h.answer rfl rfl (hidle h.notIdle) hreading
    have hpings : (v.hear cfg arrival).session.socket.pings = v.session.socket.pings := by
      rw [hheard]
    cases arrival with
    | failed => exact Or.inl ⟨htimely, hpings⟩
    | ended => exact Or.inl ⟨htimely, hpings⟩
    | item i =>
      obtain ⟨hout, hcount, hanswer⟩ := (v.hear cfg (.item i)).session.socket.notice_pings i
      refine Or.inl ⟨htimely.of_reading rfl (hanswer htimely.answer) hout rfl htimely.notIdle
        fun side hside => ⟨side, hside, Or.inl rfl⟩, hcount.trans hpings⟩
  | flush =>
    exact h.flush (WebSocket.Socket.flushes_flushAnswers h.answer) rfl rfl h.isOpen rfl
      fun _ => rfl
  | write => exact h.write hmargin hb hopen
  | expire =>
    rw [h.expire hmargin hb]
    exact Or.inl ⟨h, rfl⟩
  | pass t =>
    have hle : v.now ≤ t := by
      have hguard := hpermits
      simp only [permits, Bool.and_eq_true] at hguard
      exact of_decide_eq_true hguard.1.1
    exact Or.inl ⟨h.pass hle, rfl⟩

/-- A sound vigil has an open writing side. -/
theorem isOpen_of_isSound (h : v.isSound = true) : v.session.writing.IsOpen := by
  have hphase := (Bool.and_eq_true_iff.mp h).2
  unfold WriteSide.IsOpen
  split at hphase
  next hready => exact Or.inl hready
  next limit hsending => exact Or.inr ⟨limit, hsending⟩
  next => cases hphase
  next => cases hphase

/-- The client's answer is no business of the writing side. -/
theorem writing_echoed (cfg : HubSettings) (v v' : Vigil) :
    (v.echoed cfg v').session.writing = v'.session.writing := by
  unfold echoed
  split
  next =>
    obtain ⟨reading, w, hheard, -⟩ := hear_cases cfg (.item (.pong [])) v'
    rw [hheard]
  next => rfl

/-- Whatever may happen to a brisk session keeps it timely. -/
theorem Timely.step {x : Happening}
    (hmargin : cfg.pingInterval.toNanos + lag + delay < cfg.idleTimeout.toNanos)
    (h : Timely cfg delay v) (hb : v.Brisk cfg lag delay) (hstep : v.step? cfg x = some v') :
    Timely cfg delay v' := by
  obtain ⟨hguard, heq⟩ : (v.permits cfg x && (v.echoed cfg (v.happen cfg x)).isSound) = true ∧
      some (v.echoed cfg (v.happen cfg x)) = some v' := Option.ite_none_right_eq_some.mp hstep
  obtain ⟨hpermits, hsound⟩ := Bool.and_eq_true_iff.mp hguard
  have hopen := isOpen_of_isSound hsound
  rw [writing_echoed] at hopen
  exact Option.some.inj heq ▸ (h.happen hmargin hb x hpermits hopen).echoed

theorem timely_start (now : Time) (k : Handle) (w : World) :
    Timely cfg delay (start cfg now k w) where
  isOpen := Or.inl rfl
  answer := nofun
  notIdle := nofun
  pinging := nofun
  ahead side hside := by
    cases hside
    refine ⟨Nat.le_refl _, fun _ => Nat.le_of_eq ?_, nofun⟩
    exact Nat.add_right_comm ..

/-- A session stays timely through all that happens, if it is brisk before each of it. -/
theorem Timely.run
    (hmargin : cfg.pingInterval.toNanos + lag + delay < cfg.idleTimeout.toNanos) :
    ∀ {xs : List Happening} {v : Vigil}, Timely cfg delay v → v.run? cfg xs = some v' →
      (∀ before, before <+: xs → ∀ u, v.run? cfg before = some u → u.Brisk cfg lag delay) →
      Timely cfg delay v'
  | [], v, h, hrun, _ => by
    cases hrun
    exact h
  | x :: xs, v, h, hrun, hbrisk => by
    obtain ⟨u, hstep, hrest⟩ := Option.bind_eq_some_iff.mp hrun
    have hb := hbrisk [] List.nil_prefix v rfl
    refine Timely.run hmargin (h.step hmargin hb hstep) hrest fun before hbefore u' hu' => ?_
    refine hbrisk (x :: before) (List.prefix_cons_inj x |>.mpr hbefore) u' ?_
    exact Option.bind_eq_some_iff.mpr ⟨u, hstep, hu'⟩

/-- A client that answers every ping when it is written is not dropped as idle, and its
deadline lies ahead at every moment, as long as the ping interval, the longest wait of a ping
that is due and the longest time that a frame takes stay below the idle timeout together. -/
theorem responsive_client_is_kept (cfg : HubSettings) (lag delay : Nat)
    (hmargin : cfg.pingInterval.toNanos + lag + delay < cfg.idleTimeout.toNanos)
    (now : Time) (k : Handle) (w : World) (xs : List Happening) (v : Vigil)
    (hrun : (start cfg now k w).run? cfg xs = some v)
    (hbrisk : ∀ before, before <+: xs → ∀ u, (start cfg now k w).run? cfg before = some u →
      u.Brisk cfg lag delay) :
    v.session.reading ≠ .error .idleTimeout ∧
      ∀ side, v.session.reading = .ok side → v.now < side.deadline := by
  have htimely := Timely.run hmargin (timely_start now k w) hrun hbrisk
  have hb := hbrisk xs List.prefix_rfl v hrun
  exact ⟨htimely.notIdle, fun side hside => (htimely.ahead side hside).lt_deadline hmargin hb⟩

/-! ## Two clients -/

/-- The connection of a client who is alone in her room. -/
def annsHandle : Handle := ⟨⟨⟨1⟩⟩, ⟨⟨7⟩⟩, ⟨⟨⟨5⟩⟩, "ann"⟩⟩

/-- Her world, while these events wait for her. -/
def annsWorld (queue : List Event) : World :=
  { World.ofStore .empty .epoch with
    hub := Hub.empty.addOutbox ⟨⟨1⟩⟩ ⟨64, queue, .listening, false, by decide⟩ }

/-- An event comes while the link holds frames back: a frame is on its way from one time to
another, and then the reading side looks at its deadline. -/
def heldBack (since till : Duration) : List Happening :=
  [.pass since.toNanos, .link .stalled,
    .around (annsWorld [.participants [annsHandle.participant]]), .write, .pass till.toNanos,
    .expire]

/-- Under the default settings the deadline may pass while a frame is on its way that is sent
well within the write timeout. No ping has left, so there was none to answer. -/
theorem idle_although_responsive :
    HubSettings.default.validate = .ok .default ∧
    ((start .default 0 annsHandle (annsWorld [])).run? .default
        (heldBack (.ofSeconds 53) (.ofSeconds 60))).map
      (fun v => (v.ending?, v.session.socket.pings)) = some (some .idleTimeout, 0) ∧
    ((start .default 0 annsHandle (annsWorld [])).run? .default
        (heldBack (.ofSeconds 53) (.ofSeconds 60) ++ [.link .clear, .write])).map
      (fun v => (v.session.writing.phase, v.session.socket.sent.length))
      = some (.ready, 1) :=
  ⟨HubSettings.validate_eq_ok.mpr (by decide +kernel), by decide +kernel, by decide +kernel⟩

/-- Settings that leave more time between a ping and the deadline. -/
def patient : HubSettings := { HubSettings.default with pingInterval := .ofSeconds 20 }

/-- A frame is held back while a ping comes due, and then both leave. -/
def released : List Happening :=
  heldBack (.ofSeconds 19) (.ofSeconds 25) ++ [.link .clear, .write, .write]

/-- With these settings a frame may be held back just so: the ping that came due meanwhile
leaves after it, and its answer moves the deadline. -/
theorem responsive_client_is_kept_patient :
    ∃ v, (start patient 0 annsHandle (annsWorld [])).run? patient released = some v ∧
      v.session.socket.pings = 1 ∧ v.session.reading ≠ .error .idleTimeout := by
  have hrun : ((start patient 0 annsHandle (annsWorld [])).run? patient released).map
      (·.session.socket.pings) = some 1 := by decide +kernel
  have hbrisk : ∀ n ≤ released.length,
      ∀ u ∈ (start patient 0 annsHandle (annsWorld [])).run? patient (released.take n),
      u.Brisk patient (Duration.ofSeconds 10).toNanos (Duration.ofSeconds 10).toNanos := by
    decide +kernel
  obtain ⟨v, hv, hpings⟩ := Option.map_eq_some_iff.mp hrun
  refine ⟨v, hv, hpings, ?_⟩
  refine (responsive_client_is_kept patient (Duration.ofSeconds 10).toNanos
    (Duration.ofSeconds 10).toNanos (by decide +kernel) 0 annsHandle (annsWorld []) released v hv
    fun before hbefore u hu => ?_).1
  rw [List.prefix_iff_eq_take.mp hbefore] at hu
  exact hbrisk before.length hbefore.length_le u hu

end Vigil

end RoomHub
