import RoomHub.Proofs.Event
import RoomHub.Proofs.Venue.Guests

/-!
# What a connection does besides coming and going

Answering a request only reads. Apart from the one attach and the one detach of its
connection, all that the server does for a guest later is harmless: it lets nobody in or
out, and the messages that it sends are sent to the room that they name. `Reads` and `Obeys`
say this of a program, step by step. A program that reads messages and passes them on obeys
because the store hands out messages of the room that was asked for only, so the answers
are taken to be those of a store (`IsHonest`).

> `Http.reads_answer`: answering a request changes nothing;
> `ReadSide.obeys_take`: acting upon what a client sends obeys;
> `Membership.obeys_join`: so does what follows the attach of a join.
-/

namespace RoomHub

/-! ## The rule -/

/-- An operation that the server may take for a connection at any time: it lets nobody in
or out, and sends messages to nobody but their room or, if they are of its room, to the
connection. -/
def Operation.IsHarmless (k : Handle) : Operation → Prop
  | .attach _ | .detach _ => False
  | .broadcast r e => e.IsAbout r
  | .pushTo c e => c = k.id ∧ e.IsAbout k.room
  | _ => True

/-- Whether an operation changes nothing. -/
def Operation.isReading : Operation → Bool
  | .roomExists _ | .isMember .. | .listMembers _ | .recentMessages .. | .participants _
  | .callParticipants _ => true
  | _ => false

/-- An operation that changes nothing is harmless for every connection. -/
theorem Operation.isHarmless_of_isReading {op : Operation} (h : op.isReading = true)
    (k : Handle) : op.IsHarmless k := by
  cases op <;> first | exact trivial | cases h

/-- An operation that changes nothing leaves the world as it is. -/
theorem World.perform_of_isReading {op : Operation} (h : op.isReading = true) (w : World) :
    (w.perform op).2 = w := by
  cases op <;> first | rfl | cases h

/-- An answer that a store can give: asked for the messages of a room, it hands out no
others. -/
def Operation.IsHonest : (op : Operation) → op.Answer → Prop
  | .recentMessages r _, .ok ms => ∀ m ∈ ms, m.room = r
  | _, _ => True

namespace Program

variable {α β : Type} {k : Handle} {P : α → Prop} {Q : β → Prop}

/-- Every operation of a program is harmless, and it ends as it should. -/
def Obeys (k : Handle) (ends : α → Prop) : Program α → Prop
  | .done a => ends a
  | .step op next =>
    op.IsHarmless k ∧ ∀ answer, op.IsHonest answer → (next answer).Obeys k ends

/-- Two programs in a row obey if the first does, and the second does for whatever the first ends
in. -/
theorem Obeys.bind {p : Program α} {f : α → Program β} (hp : p.Obeys k P)
    (hf : ∀ a, P a → (f a).Obeys k Q) : (p >>= f).Obeys k Q := by
  induction p with
  | done a => exact hf a hp
  | step op next ih => exact ⟨hp.1, fun answer hanswer => ih answer (hp.2 answer hanswer)⟩

/-- Every operation of a program changes nothing. -/
def Reads : Program α → Prop
  | .done _ => True
  | .step op next => op.isReading = true ∧ ∀ answer, (next answer).Reads

/-- Two programs in a row change nothing if neither does. -/
theorem Reads.bind {p : Program α} {f : α → Program β} (hp : p.Reads)
    (hf : ∀ a, (f a).Reads) : (p >>= f).Reads := by
  induction p with
  | done a => exact hf a
  | step op next ih => exact ⟨hp.1, fun answer => ih answer (hp.2 answer)⟩

/-- A program that only reads leaves the world as it is. -/
theorem Reads.run_snd {p : Program α} (hp : p.Reads) (w : World) : (p.run w).2 = w := by
  induction p generalizing w with
  | done a => rfl
  | step op next ih =>
    rw [run_step, ih _ (hp.2 _)]
    exact World.perform_of_isReading hp.1 w

end Program

/-! ## The use cases -/

section UseCases

variable {k : Handle}

/-- Sending a text is harmless: the message goes to the room that it is stored in. -/
theorem Posting.obeys_send (r : RoomId) (u : UserId) (content : String) :
    (send r u content).Obeys k fun _ => True := by
  unfold send
  split
  next => exact trivial
  next =>
    rw [post_eq]
    refine ⟨trivial, fun stored _ => ?_⟩
    cases stored with
    | error e => exact trivial
    | ok m => exact ⟨Event.isAbout_chat m, fun _ _ => trivial⟩

/-- Entering or leaving a call is harmless: no message is sent. -/
theorem Membership.obeys_setCall (c : ConnectionId) (r : RoomId) (on : Bool) :
    (setCall c r on).Obeys k fun _ => True := by
  rw [setCall_eq]
  refine ⟨trivial, fun changed _ => ?_⟩
  cases changed with
  | false => exact trivial
  | true => exact ⟨trivial, fun _ _ => trivial⟩

/-- What follows the attach of a join: it is harmless, and says that the connection is in. -/
theorem Membership.obeys_join (limit : Nat) (k : Handle) :
    ∃ next, join limit k = .step (.attach k) next ∧ (next true).Obeys k (· = true) := by
  refine ⟨_, join_eq limit k, trivial, fun _ _ => ⟨trivial, fun recent hrecent => ?_⟩⟩
  cases recent with
  | error e => exact ⟨trivial, fun _ _ => rfl⟩
  | ok ms =>
    -- the history that is pushed was read for this room
    refine ⟨⟨rfl, ?_⟩, fun _ _ => ⟨trivial, fun _ _ => rfl⟩⟩
    intro m hm
    exact hrecent m hm

/-- Acting upon what came from a client is harmless. -/
theorem ReadSide.obeys_take (c : Handle) (idle : Duration) (now : Time) (side : ReadSide)
    (arrival : Arrival) : (side.take c idle now arrival).Obeys k fun _ => True := by
  have hact : ∀ frame, (actOn c side.inCall frame).Obeys k fun _ => True := by
    intro frame
    cases frame with
    | chat content =>
      exact (Posting.obeys_send c.room c.participant.user content).bind fun _ _ => trivial
    | joinCall =>
      show (if side.inCall then _ else _ : Program Bool).Obeys k _
      split
      next => exact trivial
      next => exact (Membership.obeys_setCall c.id c.room true).bind fun _ _ => trivial
    | leaveCall =>
      show (if side.inCall then _ else _ : Program Bool).Obeys k _
      split
      next => exact (Membership.obeys_setCall c.id c.room false).bind fun _ _ => trivial
      next => exact trivial
  cases arrival with
  | failed => exact trivial
  | ended => exact trivial
  | item i =>
    cases i with
    | text s =>
      have htext : (actOnText c side.inCall s).Obeys k fun _ => True := by
        unfold actOnText
        split
        next frame _ => exact hact frame
        next => exact trivial
      exact htext.bind fun _ _ => trivial
    | binary | ping | pong | close => exact trivial

end UseCases

/-! ## Requests -/

/-- Authorizing changes nothing. -/
theorem Access.reads_authorize (who : Participant) (r : RoomId) : (authorize who r).Reads := by
  rw [authorize_eq]
  refine ⟨rfl, fun there => ?_⟩
  rcases there with _ | _ | _
  · exact trivial
  · exact trivial
  · refine ⟨rfl, fun member => ?_⟩
    rcases member with _ | _ | _ <;> exact trivial

/-- Reading the presence of a room changes nothing. -/
theorem Presence.reads_ofRoom (r : RoomId) : (ofRoom r).Reads := by
  rw [ofRoom_eq]
  refine ⟨rfl, fun listed => ?_⟩
  cases listed with
  | error e => exact trivial
  | ok members => exact ⟨rfl, fun _ => ⟨rfl, fun _ => trivial⟩⟩

namespace Http

variable (verify : Verifier)

/-- Authorizing a request changes nothing, whatever token it shows. -/
theorem reads_authorizeRequest (token : Option String) (room : String) :
    (authorizeRequest verify token room).Reads := by
  unfold authorizeRequest
  split
  next => exact trivial
  next who _ =>
    split
    next => exact trivial
    next r _ =>
      refine (Access.reads_authorize who r).bind fun granted => ?_
      cases granted <;> exact trivial

/-- A route of a room changes nothing if what it does for the room changes nothing. -/
theorem reads_withRoom (room : String) {f : String → Program Reply} (hf : ∀ r, (f r).Reads) :
    (withRoom room f).Reads := by
  unfold withRoom
  split
  next r _ => exact hf r
  next => exact trivial

theorem reads_presence (req : Request) (room : String) : (presence verify req room).Reads := by
  refine (reads_authorizeRequest verify _ room).bind fun granted => ?_
  cases granted with
  | error e => exact trivial
  | ok found =>
    refine (Presence.reads_ofRoom found.2).bind fun people => ?_
    cases people <;> exact trivial

theorem reads_callParticipants (req : Request) (room : String) :
    (callParticipants verify req room).Reads := by
  refine (reads_authorizeRequest verify _ room).bind fun granted => ?_
  cases granted with
  | error e => exact trivial
  | ok found =>
    have hasks : (Presence.ofCall found.2).Reads := ⟨rfl, fun _ => trivial⟩
    exact hasks.bind fun _ => trivial

/-- Whether a socket is granted is decided without a change. -/
theorem reads_socket (upgradable : Bool) (req : Request) (room : String) :
    (socket verify upgradable req room).Reads := by
  unfold socket
  split
  next => exact trivial
  next =>
    refine reads_withRoom room fun r => ?_
    split
    next => exact trivial
    next token _ =>
      refine (reads_authorizeRequest verify token r).bind fun granted => ?_
      cases granted <;> exact trivial

/-- No route changes anything. -/
theorem reads_route (upgradable : Bool) (req : Request) (route : Route) :
    (route.answer verify upgradable req).Reads := by
  cases route with
  | socket room => exact reads_socket verify upgradable req room
  | health => exact trivial
  | presence room => exact reads_withRoom room (reads_presence verify req)
  | callParticipants room => exact reads_withRoom room (reads_callParticipants verify req)

/-- Answering a request only reads. -/
theorem reads_answer (site : Site) (upgradable : Bool) (req : Request) :
    (answer site upgradable req).Reads := by
  have hplain : (answerPlain site upgradable req).Reads := by
    unfold answerPlain
    split
    next => exact trivial
    next route _ =>
      have hroute := reads_route site.verify upgradable req route
      split
      next => exact hroute
      next =>
        split
        next =>
          refine hroute.bind fun reply => ?_
          cases reply <;> exact trivial
        next => exact trivial
  unfold answer
  split
  next => exact trivial
  next =>
    refine hplain.bind fun reply => ?_
    cases reply <;> exact trivial

end Http

end RoomHub
