import RoomHub.Access
import RoomHub.Membership
import RoomHub.Posting
import RoomHub.Presence

/-!
# Programs as trees

The use cases are written with `do`; here each is the tree of its operations. A `Path`
follows the answers through such a tree, and the inversion lemmas read the tree off: they
say what was done, in which order, when a use case has come to its end.

> `Path.join_done`: a join that got in has attached, told the room, read the messages and
> pushed what it read;
> `Path.send_done`: a text that was sent was stored first and then broadcast.
-/

namespace RoomHub

open Program (step done)

/-! ## The trees -/

/-- Joining as its operations; all but the first are asked for only if the connection got in. -/
theorem Membership.join_eq (limit : Nat) (h : Handle) :
    join limit h = step (.attach h) fun
      | false => done false
      | true => step (.broadcastPresence h.room .room) fun _ =>
        step (.recentMessages h.room limit) fun
          | .ok ms => step (.pushTo h.id (.history ms)) fun _ =>
            step (.pushCallParticipants h.id) fun _ => done true
          | .error _ => step (.pushCallParticipants h.id) fun _ => done true := by
  unfold join
  refine congrArg (step _) (funext fun attached => ?_)
  cases attached with
  | false => rfl
  | true =>
    refine congrArg (step _) (funext fun _ => congrArg (step _) (funext fun recent => ?_))
    cases recent <;> rfl

/-- Leaving as its operations: the room is told only if somebody was there to leave it. -/
theorem Membership.leave_eq (c : ConnectionId) :
    leave c = step (.detach c) fun
      | none => done false
      | some m => step (.broadcastPresence m.handle.room .room) fun _ => done true := by
  refine congrArg (step _) (funext fun gone => ?_)
  cases gone <;> rfl

/-- Entering or leaving a call as its operations: the room is told only of a change. -/
theorem Membership.setCall_eq (c : ConnectionId) (r : RoomId) (on : Bool) :
    setCall c r on = step (.setInCall c on) fun
      | false => done false
      | true => step (.broadcastPresence r .call) fun _ => done true := by
  refine congrArg (step _) (funext fun changed => ?_)
  cases changed <;> rfl

/-- Posting as its operations: the store first, then the broadcast of what it has stored. -/
theorem Posting.post_eq (r : RoomId) (u : UserId) (d : Draft) :
    post r u d = step (.persist r u d) fun
      | .error e => done (.error (.persist e))
      | .ok m => step (.broadcast m.room (.chat m)) fun _ => done (.ok m) := by
  refine congrArg (step _) (funext fun stored => ?_)
  cases stored <;> rfl

/-- Authorizing as its operations: whether the room exists is asked before whether the user is a
member of it. -/
theorem Access.authorize_eq (who : Participant) (r : RoomId) :
    authorize who r = step (.roomExists r) fun
      | .error e => done (.error (.store e))
      | .ok false => done (.error (.roomNotFound r))
      | .ok true => step (.isMember r who.user) fun
        | .error e => done (.error (.store e))
        | .ok false => done (.error (.forbidden r who.user))
        | .ok true => done (.ok ()) := by
  refine congrArg (step _) (funext fun there => ?_)
  rcases there with _ | _ | _
  · rfl
  · rfl
  · refine congrArg (step _) (funext fun member => ?_)
    rcases member with _ | _ | _ <;> rfl

/-- Reading the presence of a room as its operations: the two snapshots are taken one after the
other, each by an operation of its own. -/
theorem Presence.ofRoom_eq (r : RoomId) :
    ofRoom r = step (.listMembers r) fun
      | .error e => done (.error e)
      | .ok members => step (.participants r) fun people =>
        step (.callParticipants r) fun callers => done (.ok ⟨r, members, people, callers⟩) := by
  refine congrArg (step _) (funext fun listed => ?_)
  cases listed <;> rfl

/-! ## Paths -/

/-- One operation that was carried out, and its answer. -/
structure Turn where
  op : Operation
  answer : op.Answer

namespace Program

variable {α : Type} {p q : Program α} {turns : List Turn} {op : Operation}
  {next : op.Answer → Program α}

/-- `p.Path turns q`: after the turns, `q` is what is left of the program `p`. -/
inductive Path : Program α → List Turn → Program α → Prop where
  | nil {p : Program α} : Path p [] p
  | cons {op : Operation} {next : op.Answer → Program α} {q : Program α} {turns : List Turn}
      (answer : op.Answer) (rest : Path (next answer) turns q) :
      Path (.step op next) (⟨op, answer⟩ :: turns) q

/-- A path goes on with any answer to the next operation. -/
theorem Path.snoc (hp : p.Path turns q) (hq : q = .step op next) (answer : op.Answer) :
    p.Path (turns ++ [⟨op, answer⟩]) (next answer) := by
  induction hp with
  | nil =>
    subst hq
    exact .cons answer .nil
  | cons first _ ih => exact .cons first (ih hq)

theorem Path.done_inv {a b : α} (hp : (done a).Path turns (done b)) : turns = [] ∧ a = b := by
  cases hp
  exact ⟨rfl, rfl⟩

/-- A program that has ended but began with an operation has had it answered. -/
theorem Path.step_inv {b : α} (hp : (step op next).Path turns (done b)) :
    ∃ answer rest, turns = ⟨op, answer⟩ :: rest ∧ (next answer).Path rest (done b) := by
  cases hp with
  | cons answer rest => exact ⟨answer, _, rfl, rest⟩

/-- When two programs in a row have ended, the first has, and then the second. -/
theorem Path.bind_inv {β : Type} {f : α → Program β} {b : β}
    (hp : (p >>= f).Path turns (done b)) :
    ∃ first second a, turns = first ++ second ∧ p.Path first (done a) ∧
      (f a).Path second (done b) := by
  induction p generalizing turns with
  | done a => exact ⟨[], turns, a, rfl, .nil, hp⟩
  | step op next ih =>
    obtain ⟨answer, rest, rfl, hrest⟩ := Path.step_inv hp
    obtain ⟨first, second, a, rfl, hfirst, hsecond⟩ := ih answer hrest
    exact ⟨_, second, a, rfl, .cons answer hfirst, hsecond⟩

/-- A run without interruption follows a path to its result. -/
theorem exists_path_run (p : Program α) (w : World) :
    ∃ turns, p.Path turns (done (p.run w).1) := by
  induction p generalizing w with
  | done a => exact ⟨[], .nil⟩
  | step op next ih =>
    obtain ⟨turns, hturns⟩ := ih (w.perform op).1 (w.perform op).2
    exact ⟨_, .cons _ hturns⟩

/-- Whatever the answers are, the result has a property. -/
def Ensures (p : Program α) (Q : α → Prop) : Prop := ∀ turns a, p.Path turns (done a) → Q a

theorem ensures_done {Q : α → Prop} {a : α} (h : Q a) : (done a).Ensures Q := by
  intro turns b hp
  obtain ⟨-, rfl⟩ := hp.done_inv
  exact h

theorem ensures_true : p.Ensures fun _ => True := fun _ _ _ => trivial

/-- What two programs in a row come to, the second comes to from what the first ensures. -/
theorem Ensures.bind {β : Type} {Q : α → Prop} {R : β → Prop} {f : α → Program β}
    (hp : p.Ensures Q) (hf : ∀ a, Q a → (f a).Ensures R) : (p >>= f).Ensures R := by
  intro turns b hpath
  obtain ⟨first, second, a, -, hfirst, hsecond⟩ := hpath.bind_inv
  exact hf a (hp first a hfirst) second b hsecond

end Program

/-- A join that got in has attached, told the room and read the messages, in this order,
and then pushed what it could read. -/
theorem Program.Path.join_done {limit : Nat} {h : Handle} {turns : List Turn}
    (hp : (Membership.join limit h).Path turns (done true)) :
    (∃ told ms pushed last, turns =
      [⟨.attach h, true⟩, ⟨.broadcastPresence h.room .room, told⟩,
        ⟨.recentMessages h.room limit, .ok ms⟩, ⟨.pushTo h.id (.history ms), pushed⟩,
        ⟨.pushCallParticipants h.id, last⟩]) ∨
    (∃ told e last, turns =
      [⟨.attach h, true⟩, ⟨.broadcastPresence h.room .room, told⟩,
        ⟨.recentMessages h.room limit, .error e⟩, ⟨.pushCallParticipants h.id, last⟩]) := by
  rw [Membership.join_eq] at hp
  obtain ⟨attached, rest, rfl, hp₁⟩ := hp.step_inv
  cases attached with
  | false => exact absurd hp₁.done_inv.2 Bool.false_ne_true
  | true =>
    obtain ⟨told, rest, rfl, hp₂⟩ := hp₁.step_inv
    obtain ⟨recent, rest, rfl, hp₃⟩ := hp₂.step_inv
    cases recent with
    | ok ms =>
      obtain ⟨pushed, rest, rfl, hp₄⟩ := hp₃.step_inv
      obtain ⟨last, rest, rfl, hp₅⟩ := hp₄.step_inv
      obtain ⟨rfl, -⟩ := hp₅.done_inv
      exact Or.inl ⟨told, ms, pushed, last, rfl⟩
    | error e =>
      obtain ⟨last, rest, rfl, hp₄⟩ := hp₃.step_inv
      obtain ⟨rfl, -⟩ := hp₄.done_inv
      exact Or.inr ⟨told, e, last, rfl⟩

/-- A message that was posted was stored and then broadcast to the room it names. -/
theorem Program.Path.post_done {r : RoomId} {u : UserId} {d : Draft} {m : Message}
    {turns : List Turn} (hp : (Posting.post r u d).Path turns (done (.ok m))) :
    ∃ report, turns = [⟨.persist r u d, .ok m⟩, ⟨.broadcast m.room (.chat m), report⟩] := by
  rw [Posting.post_eq] at hp
  obtain ⟨stored, rest, rfl, hp₁⟩ := hp.step_inv
  cases stored with
  | error e => cases hp₁.done_inv.2
  | ok m' =>
    obtain ⟨report, rest, rfl, hp₂⟩ := hp₁.step_inv
    obtain ⟨rfl, heq⟩ := hp₂.done_inv
    cases heq
    exact ⟨report, rfl⟩

/-- So it is with a text that was sent. -/
theorem Program.Path.send_done {r : RoomId} {u : UserId} {content : String} {m : Message}
    {turns : List Turn} (hp : (Posting.send r u content).Path turns (done (.ok m))) :
    ∃ d report, turns = [⟨.persist r u d, .ok m⟩, ⟨.broadcast m.room (.chat m), report⟩] := by
  unfold Posting.send at hp
  split at hp
  next => cases hp.done_inv.2
  next c hc =>
    obtain ⟨report, hturns⟩ := hp.post_done
    exact ⟨_, report, hturns⟩

/-- A reading that succeeded has asked three questions, and the lists are the answers. -/
theorem Program.Path.ofRoom_done {r : RoomId} {turns : List Turn} {p : Presence}
    (hp : (Presence.ofRoom r).Path turns (done (.ok p))) :
    p.room = r ∧ turns = [⟨.listMembers r, .ok p.members⟩, ⟨.participants r, p.participants⟩,
      ⟨.callParticipants r, p.callParticipants⟩] := by
  rw [Presence.ofRoom_eq] at hp
  obtain ⟨listed, rest, rfl, hp₁⟩ := hp.step_inv
  cases listed with
  | error e => cases hp₁.done_inv.2
  | ok members =>
    obtain ⟨people, rest, rfl, hp₂⟩ := hp₁.step_inv
    obtain ⟨callers, rest, rfl, hp₃⟩ := hp₂.step_inv
    obtain ⟨rfl, heq⟩ := hp₃.done_inv
    cases heq
    exact ⟨rfl, rfl⟩

end RoomHub
