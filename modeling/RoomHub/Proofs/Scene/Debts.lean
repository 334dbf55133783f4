import RoomHub.Proofs.Hub.Snapshots
import RoomHub.Proofs.Scene.Moves

/-!
# Every change of presence is followed by a broadcast

A turn that changed who is connected to a room, or who is in its call, opens a debt: the
room is to be told. `PaysUp` is a discipline on programs: a debt is paid by the very next
operation, with the scope that the change asks for, and until then nothing else is done.
All the use cases keep it, and so does what is left of them at any point:

> `paysUp_program`: every call pays up;
> `owes_of_debt`: a task that is in debt stands between a change and its broadcast.

The discipline also lists what a program may tell a connection by other means: nothing that
is a snapshot.
-/

namespace RoomHub

/-- A room that is to be told of a change, and the scope of the change. -/
abbrev Debt := RoomId × Scope

variable {k : Clients} {d : Option Debt} {r : RoomId} {s : Scope}

/-! ## Opening and settling debts -/

/-- The change of presence that a turn made, if it made one. -/
def Turn.opens (k : Clients) : Turn → Option Debt
  | ⟨.attach h, ok⟩ => if ok then some (h.room, .room) else none
  | ⟨.detach _, gone⟩ => gone.map fun m => (m.handle.room, .room)
  | ⟨.setInCall c _, ok⟩ => if ok then some ((k c).room, .call) else none
  | _ => none

/-- The debt after a turn. -/
def Turn.settle (k : Clients) (d : Option Debt) : Turn → Option Debt
  | ⟨.broadcastPresence r _, _⟩ => d.filter (·.1 ≠ r)
  | turn => (turn.opens k).or d

/-- The debt of a task after all that it has done. -/
def Task.debt (k : Clients) (t : Task) : Option Debt := t.turns.foldl (Turn.settle k) none

/-- A task stands between a change of presence in a room and its own next broadcast of
presence to that room. -/
def Task.Owes (k : Clients) (r : RoomId) (t : Task) : Prop :=
  ∃ before turn after, t.turns = before ++ turn :: after ∧
    (∃ s, turn.opens k = some (r, s)) ∧
    ∀ later ∈ after, ∀ s, later.op ≠ .broadcastPresence r s

/-- A debt after a turn was made by that turn, or was there before and not paid by it. -/
theorem Turn.settle_eq_some {turn : Turn} (h : turn.settle k d = some (r, s)) :
    turn.opens k = some (r, s) ∨
      (d = some (r, s) ∧ ∀ s', turn.op ≠ .broadcastPresence r s') := by
  obtain ⟨op, answer⟩ := turn
  cases op with
  | broadcastPresence r' s' =>
    replace h : d.filter (fun debt => decide (debt.1 ≠ r')) = some (r, s) := h
    obtain ⟨hd, hne⟩ := Option.filter_eq_some_iff.mp h
    refine Or.inr ⟨hd, fun s'' heq => ?_⟩
    cases heq
    simp at hne
  | _ =>
    replace h : (Turn.opens k ⟨_, answer⟩).or d = some (r, s) := h
    rcases Option.or_eq_some_iff.mp h with hopens | ⟨-, hd⟩
    · exact Or.inl hopens
    · exact Or.inr ⟨hd, fun s' heq => by cases heq⟩

/-- A change of presence is no broadcast of it. -/
theorem Turn.ne_broadcastPresence {turn : Turn} {debt : Debt} {r' : RoomId} {s' : Scope}
    (h : turn.opens k = some debt) : turn.op ≠ .broadcastPresence r' s' := by
  obtain ⟨op, answer⟩ := turn
  intro heq
  subst heq
  cases h

/-- A change opens a debt, whatever was owed before. -/
theorem Turn.settle_of_opens {turn : Turn} (h : turn.opens k = some (r, s)) :
    turn.settle k d = some (r, s) := by
  obtain ⟨op, answer⟩ := turn
  cases op with
  | broadcastPresence r' s' => cases h
  | _ => exact Option.or_eq_some_iff.mpr (Or.inl h)

/-! Whether a task owes a broadcast can be computed by going through its turns. -/

/-- Whether a room waits for a broadcast after a turn. -/
def Turn.awaits (k : Clients) (r : RoomId) (waiting : Bool) (turn : Turn) : Bool :=
  match turn.op with
  | .broadcastPresence r' _ => waiting && r' ≠ r
  | _ => waiting || (turn.opens k).any (·.1 = r)

/-- A room waits after a turn that is no broadcast to it, if it waited before or the turn changed
who is there. -/
theorem Turn.awaits_iff {waiting : Bool} {turn : Turn} :
    turn.awaits k r waiting = true ↔ (∀ s, turn.op ≠ .broadcastPresence r s) ∧
      (waiting = true ∨ ∃ s, turn.opens k = some (r, s)) := by
  obtain ⟨op, answer⟩ := turn
  have hopens : ((Turn.opens k ⟨op, answer⟩).any (·.1 = r)) = true ↔
      ∃ s, Turn.opens k ⟨op, answer⟩ = some (r, s) := by
    cases Turn.opens k ⟨op, answer⟩ with
    | none => simp
    | some debt =>
      obtain ⟨r', s⟩ := debt
      simp
  cases op with
  | broadcastPresence r' s' =>
    show (waiting && decide (r' ≠ r)) = true ↔ _
    have hnone : ¬∃ s, Turn.opens k ⟨.broadcastPresence r' s', answer⟩ = some (r, s) := by
      intro hopened
      obtain ⟨s, hs⟩ := hopened
      cases hs
    simp only [hnone, or_false, Bool.and_eq_true, decide_eq_true_eq, ne_eq,
      Operation.broadcastPresence.injEq, not_and]
    constructor
    · intro hboth
      obtain ⟨hw, hne⟩ := hboth
      exact ⟨fun s heq => absurd heq hne, hw⟩
    · intro hboth
      obtain ⟨hne, hw⟩ := hboth
      exact ⟨hw, fun heq => hne s' heq rfl⟩
  | _ =>
    show (waiting || (Turn.opens k ⟨_, answer⟩).any (·.1 = r)) = true ↔ _
    rw [Bool.or_eq_true, hopens]
    constructor
    · exact fun h => ⟨fun s heq => (by cases heq), h⟩
    · exact fun h => h.2

/-- A room waits after some turns if it did so before and none was a broadcast to it, or if one of
them changed who is there and no later one was a broadcast to it. -/
theorem Turn.foldl_awaits_iff {waiting : Bool} (turns : List Turn) :
    turns.foldl (Turn.awaits k r) waiting = true ↔
      (waiting = true ∧ ∀ turn ∈ turns, ∀ s, turn.op ≠ .broadcastPresence r s) ∨
      ∃ before turn after, turns = before ++ turn :: after ∧
        (∃ s, turn.opens k = some (r, s)) ∧
        ∀ later ∈ after, ∀ s, later.op ≠ .broadcastPresence r s := by
  induction turns generalizing waiting with
  | nil => simp
  | cons turn turns ih =>
    rw [List.foldl_cons, ih, Turn.awaits_iff]
    -- the turn that opened the debt is the first one, or one of the rest
    constructor
    · intro hwaits
      rcases hwaits with ⟨⟨hne, hw | hopens⟩, hnone⟩ |
        ⟨before, opening, after, rfl, hopens, hnone⟩
      · exact Or.inl ⟨hw, List.forall_mem_cons.mpr ⟨hne, hnone⟩⟩
      · exact Or.inr ⟨[], turn, turns, rfl, hopens, hnone⟩
      · exact Or.inr ⟨turn :: before, opening, after, rfl, hopens, hnone⟩
    · intro hwaits
      rcases hwaits with ⟨hw, hnone⟩ | ⟨before, opening, after, heq, hopens, hnone⟩
      · obtain ⟨hne, hnone⟩ := List.forall_mem_cons.mp hnone
        exact Or.inl ⟨⟨hne, Or.inl hw⟩, hnone⟩
      · cases before with
        | nil =>
          obtain ⟨s, hs⟩ := hopens
          cases heq
          exact Or.inl ⟨⟨fun _ => Turn.ne_broadcastPresence hs, Or.inr ⟨s, hs⟩⟩, hnone⟩
        | cons first before =>
          cases heq
          exact Or.inr ⟨before, opening, after, rfl, hopens, hnone⟩

/-- Whether a task owes a room a broadcast is found by going once through what it has done. -/
theorem Task.owes_iff {t : Task} :
    t.Owes k r ↔ t.turns.foldl (Turn.awaits k r) false = true := by
  rw [Turn.foldl_awaits_iff]
  simp only [Bool.false_eq_true, false_and, false_or]
  rfl

instance (t : Task) : Decidable (t.Owes k r) := decidable_of_iff _ Task.owes_iff.symm

/-- A debt for a room is only there while the room waits. -/
theorem Turn.foldl_awaits_of_settle {waiting : Bool} {turns : List Turn}
    (hwaits : ∀ s, d = some (r, s) → waiting = true)
    (hdebt : turns.foldl (Turn.settle k) d = some (r, s)) :
    turns.foldl (Turn.awaits k r) waiting = true := by
  induction turns generalizing d waiting with
  | nil => exact hwaits s hdebt
  | cons turn turns ih =>
    refine ih (fun s' hs' => ?_) hdebt
    rw [Turn.awaits_iff]
    rcases Turn.settle_eq_some hs' with hopens | ⟨hd, hne⟩
    · exact ⟨fun _ => Turn.ne_broadcastPresence hopens, Or.inr ⟨s', hopens⟩⟩
    · exact ⟨hne, Or.inl (hwaits s' hd)⟩

/-- Whoever is in debt has not told the room yet. -/
theorem Task.owes_of_debt {t : Task} (h : t.debt k = some (r, s)) : t.Owes k r := by
  rw [Task.owes_iff]
  exact Turn.foldl_awaits_of_settle (fun s hs => by cases hs) h

theorem Task.debt_took {t : Task} {op : Operation} {next : op.Answer → Program t.call.Answer}
    {answer : op.Answer} :
    (t.took op next answer).debt k = Turn.settle k (t.debt k) ⟨op, answer⟩ := by
  unfold Task.debt Task.took
  rw [List.foldl_append]
  rfl

/-! ## The discipline -/

/-- What a program may do next when it is in debt, or when it is not. -/
def Clients.Permits (k : Clients) : Option Debt → Operation → Prop
  | some (r, s), op => op = .broadcastPresence r s
  | none, .attach h => h = k.handle h.id
  | none, .broadcast _ e => ∀ s, Scope.snapshot? s e = none
  | none, .pushTo _ e => ∀ s, Scope.snapshot? s e = none
  | none, _ => True

/-- A program that pays every debt with its next operation, and ends without one. -/
def Program.PaysUp {α : Type} (k : Clients) : Option Debt → Program α → Prop
  | d, .done _ => d = none
  | d, .step op next =>
    k.Permits d op ∧ ∀ answer, PaysUp k (Turn.settle k d ⟨op, answer⟩) (next answer)

section UseCases

variable {α : Type}

/-- A broadcast of presence pays the debt for its room. -/
theorem Program.PaysUp.settle {next : Report → Program α}
    (h : ∀ report, (next report).PaysUp k none) :
    (Program.step (.broadcastPresence r s) next).PaysUp k (some (r, s)) := by
  refine ⟨rfl, fun report => ?_⟩
  have hpaid : Turn.settle k (some (r, s)) ⟨.broadcastPresence r s, report⟩ = none := by
    simp [Turn.settle]
  rw [hpaid]
  exact h report

/-- A join announces the arrival at once. -/
theorem Membership.paysUp_join (limit : Nat) (c : ConnectionId) :
    (join limit (k.handle c)).PaysUp k none := by
  rw [join_eq]
  refine ⟨rfl, fun attached => ?_⟩
  cases attached with
  | false => exact rfl
  | true =>
    -- the debt of the attach is paid at once; what comes after it opens none
    refine Program.PaysUp.settle fun _ => ⟨trivial, fun recent => ?_⟩
    cases recent with
    | ok ms => exact ⟨fun _ => Scope.snapshot?_history ms, fun _ => ⟨trivial, fun _ => rfl⟩⟩
    | error e => exact ⟨trivial, fun _ => rfl⟩

/-- A leave announces the departure at once. -/
theorem Membership.paysUp_leave (c : ConnectionId) : (leave c).PaysUp k none := by
  rw [leave_eq]
  refine ⟨trivial, fun gone => ?_⟩
  cases gone with
  | none => exact rfl
  | some m => exact Program.PaysUp.settle fun _ => rfl

/-- A change of the call is announced at once. -/
theorem Membership.paysUp_setCall (c : ConnectionId) (on : Bool) :
    (setCall c (k c).room on).PaysUp k none := by
  rw [setCall_eq]
  refine ⟨trivial, fun changed => ?_⟩
  cases changed with
  | false => exact rfl
  | true => exact Program.PaysUp.settle fun _ => rfl

/-- Posting changes nobody's presence. -/
theorem Posting.paysUp_post (r : RoomId) (u : UserId) (d : Draft) :
    (post r u d).PaysUp k none := by
  rw [post_eq]
  refine ⟨trivial, fun stored => ?_⟩
  cases stored with
  | error e => exact rfl
  | ok m => exact ⟨fun _ => Scope.snapshot?_chat m, fun _ => rfl⟩

theorem Posting.paysUp_send (r : RoomId) (u : UserId) (content : String) :
    (send r u content).PaysUp k none := by
  unfold send
  split
  next => exact rfl
  next => exact paysUp_post r u _

theorem Access.paysUp_authorize (who : Participant) (r : RoomId) :
    (authorize who r).PaysUp k none := by
  rw [authorize_eq]
  refine ⟨trivial, fun there => ?_⟩
  rcases there with e | _ | _
  · exact rfl
  · exact rfl
  · refine ⟨trivial, fun member => ?_⟩
    rcases member with e | _ | _
    · exact rfl
    · exact rfl
    · exact rfl

theorem Presence.paysUp_ofRoom (r : RoomId) : (ofRoom r).PaysUp k none := by
  rw [ofRoom_eq]
  refine ⟨trivial, fun listed => ?_⟩
  cases listed with
  | error e => exact rfl
  | ok members => exact ⟨trivial, fun _ => ⟨trivial, fun _ => rfl⟩⟩

/-- Every use case pays up. -/
theorem Call.paysUp_program (call : Call) : (call.program k).PaysUp k none := by
  cases call with
  | join limit c => exact Membership.paysUp_join limit c
  | leave c => exact Membership.paysUp_leave c
  | joinCall c => exact Membership.paysUp_setCall c true
  | leaveCall c => exact Membership.paysUp_setCall c false
  | send r u content => exact Posting.paysUp_send r u content
  | post r u d => exact Posting.paysUp_post r u d
  | announce m => exact ⟨fun _ => Scope.snapshot?_chat m, fun _ => rfl⟩
  | authorize who r => exact Access.paysUp_authorize who r
  | presence r => exact Presence.paysUp_ofRoom r
  | callPresence r => exact ⟨trivial, fun _ => rfl⟩

end UseCases

/-! ## Every task, at any time -/

namespace Scene

/-- What is left of each task pays the debt that the task is in. -/
def Disciplined (k : Clients) (s : Scene) : Prop :=
  ∀ t ∈ s.tasks, t.rest.PaysUp k (t.debt k)

/-- Every task goes on paying its debts, whatever a move does. -/
theorem disciplined_change {s s' : Scene} (hs : Disciplined k s) (hc : Change k s s') :
    Disciplined k s' := by
  intro u hu
  cases hc with
  | start call =>
    rcases List.mem_append.mp hu with hu | hu
    · exact hs u hu
    · rw [List.mem_singleton.mp hu]
      exact call.paysUp_program
  | advance ht hrest =>
    rcases mem_tasks_advanced hu with hu | rfl
    · exact hs u hu
    · have hpays := hs _ (List.mem_of_getElem? ht)
      rw [hrest] at hpays
      rw [Task.debt_took]
      exact hpays.2 _
  | outside a ha => exact hs u hu
  | around w => exact hs u hu

/-- A task that advances does what its debt permits. -/
theorem Disciplined.permits {s : Scene} {i : Nat} {t : Task} {op : Operation}
    {next : op.Answer → Program t.call.Answer} (hs : Disciplined k s)
    (ht : s.tasks[i]? = some t) (hrest : t.rest = .step op next) : k.Permits (t.debt k) op := by
  have hpays := hs t (List.mem_of_getElem? ht)
  rw [hrest] at hpays
  exact hpays.1

end Scene

end RoomHub
