import RoomHub.Proofs.Scene.Announcements

/-!
# What a text asks for

A text that is a chat frame with something in it asks to be posted, and the task that reads
it goes on an errand: it stores the content for the person and the room of its connection,
and then tells the room the message that became of it. An `Errand` is what is still to be
done of that. `Runs` says of a program that it does its errand with its very next operations
and nothing of the kind besides.

> `ReadSide.runs_take`: reading a text is the errand that the text asks for;
> `Guest.pursuit_act`: what an act of a guest does about the guest's errand.
-/

namespace RoomHub

/-! ## Errands -/

/-- The content that a text asks to have posted. -/
def ClientFrame.toPost? (text : String) : Option String :=
  match parse? text with
  | some (.chat content) => if content = "" then none else some content
  | _ => none

/-- The content to be stored for a text is that of a chat frame, unless it is empty. -/
theorem ClientFrame.toPost?_eq_some {text content : String} :
    toPost? text = some content ↔ parse? text = some (.chat content) ∧ content ≠ "" := by
  unfold toPost?
  split
  next said hsaid =>
    rw [hsaid]
    split
    next hempty =>
      subst hempty
      constructor
      · intro h
        cases h
      · rintro ⟨h, hne⟩
        cases h
        exact absurd rfl hne
    next hne =>
      constructor
      · intro h
        cases h
        exact ⟨rfl, hne⟩
      · rintro ⟨h, -⟩
        cases h
        rfl
  next hother =>
    constructor
    · intro h
      cases h
    · rintro ⟨h, -⟩
      exact absurd h (hother content)

/-- What a task still has to do about a text. -/
inductive Errand where
  /-- Nothing. -/
  | idle
  /-- A content is to be stored for the connection of a handle. -/
  | store (handle : Handle) (content : String)
  /-- A message was stored and is to be told. -/
  | tell (message : Message)

/-- The errand that a text asks for. -/
def Errand.ofText (k : Handle) (text : String) : Errand :=
  match ClientFrame.toPost? text with
  | some content => .store k content
  | none => .idle

/-- An operation that stores nothing and tells no message. -/
def Operation.IsSilent (op : Operation) : Prop :=
  op.Tells none ∧ ∀ answer, Turn.stored? ⟨op, answer⟩ = none

/-- What an operation, once it is answered, makes of an errand. -/
inductive Errand.Turns : Errand → (op : Operation) → op.Answer → Errand → Prop where
  | quiet {op : Operation} {answer : op.Answer} (hop : op.IsSilent) : Turns .idle op answer .idle
  | refused {k : Handle} {content : String} {e : StoreError} :
      Turns (.store k content) (.persist k.room k.participant.user ⟨content, .text, none⟩)
        (.error e) .idle
  | stored {k : Handle} {content : String} {m : Message} :
      Turns (.store k content) (.persist k.room k.participant.user ⟨content, .text, none⟩)
        (.ok m) (.tell m)
  | told {m : Message} {report : Report} :
      Turns (.tell m) (.broadcast m.room (.chat m)) report .idle

/-- Storing a message is not silent. -/
theorem Operation.not_isSilent_persist {r : RoomId} {u : UserId} {d : Draft} :
    ¬(Operation.persist r u d).IsSilent := by
  intro h
  cases h.2 (.ok default)

/-- No operation begins to store. -/
theorem Errand.Turns.ne_store {e : Errand} {op : Operation} {answer : op.Answer} {k : Handle}
    {content : String} : ¬e.Turns op answer (.store k content) := by
  intro h
  cases h

/-! ## Programs -/

namespace Program

variable {α β : Type} {e : Errand}

/-- A program does its errand with its next operations, and ends without one. -/
def Runs : Errand → Program α → Prop
  | e, .done _ => e = .idle
  | e, .step op next => ∀ answer, ∃ e', e.Turns op answer e' ∧ (next answer).Runs e'

/-- A program that does an errand may be followed by one that does none. -/
theorem Runs.bind {p : Program α} {f : α → Program β} (hp : p.Runs e)
    (hf : ∀ a, (f a).Runs .idle) : (p >>= f).Runs e := by
  induction p generalizing e with
  | done a =>
    have hidle : e = .idle := hp
    subst hidle
    exact hf a
  | step op next ih =>
    intro answer
    obtain ⟨e', hturns, hnext⟩ := hp answer
    exact ⟨e', hturns, ih answer hnext⟩

/-- A silent operation is no part of an errand. -/
theorem runs_step {op : Operation} {next : op.Answer → Program α} (hop : op.IsSilent)
    (hnext : ∀ answer, (next answer).Runs .idle) : (step op next).Runs .idle :=
  fun answer => ⟨.idle, .quiet hop, hnext answer⟩

/-- A program that only reads has no errand. -/
theorem Reads.runs {p : Program α} (hp : p.Reads) : p.Runs .idle := by
  induction p with
  | done a => exact rfl
  | step op next ih =>
    obtain ⟨hreading, hnext⟩ := hp
    have hsilent : op.IsSilent := by
      cases op <;> first | exact ⟨trivial, fun _ => rfl⟩ | cases hreading
    exact runs_step hsilent fun answer => ih answer (hnext answer)

end Program

open Program (runs_step)

/-! ## The use cases -/

/-- A join stores and tells nothing. -/
theorem Membership.runs_join (limit : Nat) (k : Handle) : (join limit k).Runs .idle := by
  rw [join_eq]
  refine runs_step ⟨trivial, fun _ => rfl⟩ fun attached => ?_
  cases attached with
  | false => exact rfl
  | true =>
    refine runs_step ⟨trivial, fun _ => rfl⟩ fun _ => ?_
    refine runs_step ⟨trivial, fun _ => rfl⟩ fun recent => ?_
    have hlast : (Program.step (.pushCallParticipants k.id) fun _ => .done true).Runs .idle :=
      runs_step ⟨trivial, fun _ => rfl⟩ fun _ => rfl
    cases recent with
    | ok ms => exact runs_step ⟨rfl, fun _ => rfl⟩ fun _ => hlast
    | error e => exact hlast

/-- A leave stores and tells nothing. -/
theorem Membership.runs_leave (c : ConnectionId) : (leave c).Runs .idle := by
  rw [leave_eq]
  refine runs_step ⟨trivial, fun _ => rfl⟩ fun gone => ?_
  cases gone with
  | none => exact rfl
  | some m => exact runs_step ⟨trivial, fun _ => rfl⟩ fun _ => rfl

/-- Entering or leaving a call stores and tells nothing. -/
theorem Membership.runs_setCall (c : ConnectionId) (r : RoomId) (on : Bool) :
    (setCall c r on).Runs .idle := by
  rw [setCall_eq]
  refine runs_step ⟨trivial, fun _ => rfl⟩ fun changed => ?_
  cases changed with
  | false => exact rfl
  | true => exact runs_step ⟨trivial, fun _ => rfl⟩ fun _ => rfl

/-- Sending a text stores it and tells the message, unless the text is empty. -/
theorem Posting.runs_send (k : Handle) {content : String} (hcontent : content ≠ "") :
    (send k.room k.participant.user content).Runs (.store k content) := by
  rw [send_of_ne hcontent, post_eq]
  intro stored
  cases stored with
  | error e => exact ⟨.idle, .refused, rfl⟩
  | ok m => exact ⟨.tell m, .stored, fun _ => ⟨.idle, .told, rfl⟩⟩

/-- An empty text asks for nothing. -/
theorem Posting.runs_send_empty (r : RoomId) (u : UserId) : (send r u "").Runs .idle := rfl

namespace ReadSide

variable {k : Handle} {inCall : Bool}

/-- Acting upon a text does the errand that the text asks for. -/
theorem runs_actOnText (text : String) :
    (actOnText k inCall text).Runs (Errand.ofText k text) := by
  unfold actOnText Errand.ofText ClientFrame.toPost?
  cases ClientFrame.parse? text with
  | none => exact rfl
  | some frame =>
    cases frame with
    | chat content =>
      by_cases hcontent : content = ""
      · subst hcontent
        exact (Posting.runs_send_empty k.room k.participant.user).bind fun _ => rfl
      · simp only [if_neg hcontent]
        exact (Posting.runs_send k hcontent).bind fun _ => rfl
    | joinCall =>
      show (if inCall then _ else _ : Program Bool).Runs .idle
      split
      next => exact rfl
      next => exact (Membership.runs_setCall k.id k.room true).bind fun _ => rfl
    | leaveCall =>
      show (if inCall then _ else _ : Program Bool).Runs .idle
      split
      next => exact (Membership.runs_setCall k.id k.room false).bind fun _ => rfl
      next => exact rfl

/-- Reading a text is the errand that the text asks for. -/
theorem runs_take (idle : Duration) (now : Time) (side : ReadSide) (text : String) :
    (side.take k idle now (.item (.text text))).Runs (Errand.ofText k text) :=
  (runs_actOnText text).bind fun _ => rfl

/-- Whatever is no text is no errand. -/
theorem runs_take_other (idle : Duration) (now : Time) (side : ReadSide) {arrival : Arrival}
    (hother : ∀ text, arrival ≠ .item (.text text)) :
    (side.take k idle now arrival).Runs .idle := by
  cases arrival with
  | failed | ended => exact rfl
  | item i =>
    cases i with
    | text s => exact absurd rfl (hother s)
    | binary | ping | pong | close => exact rfl

end ReadSide

/-! ## Guests -/

/-- The program that a phase is in the middle of does an errand. Only what acts upon a client's
texts may have one, and stores under the handle of its session. -/
def Phase.Runs (e : Errand) : Phase → Prop
  | asking rest => e = .idle ∧ rest.Runs .idle
  | joining _ rest => e = .idle ∧ rest.Runs .idle
  | acting s rest => rest.Runs e ∧ ∀ k content, e = .store k content → k = s.handle
  | leaving _ rest => e = .idle ∧ rest.Runs .idle
  | _ => e = .idle

namespace Phase

variable {p : Phase} {e : Errand}

/-- The next operation of a phase is the next of its errand. -/
theorem Runs.next (hp : p.Runs e) {op : Operation} {next : op.Answer → Phase}
    (hnext : p.next? = some ⟨op, next⟩) (answer : op.Answer) :
    ∃ e', e.Turns op answer e' ∧ (next answer).Runs e' := by
  -- three of the phases that are in the middle of a program have no errand at all
  have hidle : ∀ {α : Type} {f : op.Answer → Program α}, e = .idle →
      (Program.step op f).Runs .idle → e.Turns op answer .idle ∧ (f answer).Runs .idle := by
    rintro α f rfl hrest
    obtain ⟨e', hturns, hrest'⟩ := hrest answer
    cases hturns with
    | quiet hop => exact ⟨.quiet hop, hrest'⟩
  rcases next?_cases hnext with ⟨f, rfl, rfl⟩ | ⟨k, f, rfl, rfl⟩ | ⟨s, f, rfl, rfl⟩ |
    ⟨s, f, rfl, rfl⟩
  · obtain ⟨hturns, hrest⟩ := hidle hp.1 hp.2
    exact ⟨.idle, hturns, rfl, hrest⟩
  · obtain ⟨hturns, hrest⟩ := hidle hp.1 hp.2
    exact ⟨.idle, hturns, rfl, hrest⟩
  · obtain ⟨e', hturns, hrest⟩ := hp.1 answer
    refine ⟨e', hturns, hrest, fun k content hstore => ?_⟩
    subst hstore
    exact absurd hturns Errand.Turns.ne_store
  · obtain ⟨hturns, hrest⟩ := hidle hp.1 hp.2
    exact ⟨.idle, hturns, rfl, hrest⟩

/-- A guest that has something to store acts upon a text, and stores it next, under the handle
of its session. -/
theorem Runs.next_of_store {k : Handle} {content : String} (hp : p.Runs (.store k content)) :
    p.handle? = some k ∧
      ∃ next, p.next? = some ⟨.persist k.room k.participant.user ⟨content, .text, none⟩, next⟩ := by
  cases p with
  | acting s rest =>
    obtain ⟨hrest, hhandle⟩ := hp
    refine ⟨congrArg some (hhandle k content rfl).symm, ?_⟩
    cases rest with
    | done reading => cases hrest
    | step op next =>
      -- whatever the answer will be, it is to this operation
      obtain ⟨e', hturns, -⟩ := hrest ((World.ofStore .empty .epoch).perform op).1
      generalize ((World.ofStore .empty .epoch).perform op).1 = answer at hturns
      cases hturns <;> exact ⟨_, rfl⟩
  | asking | joining | leaving => cases hp.1
  | answered | unopened | refused | live | ended | swept => cases hp

/-- What the writing side does is no matter for the errand. -/
theorem Runs.onSession {s s' : Session} (hp : p.Runs e) (hs : p.session? = some s)
    (hhandle : s'.handle = s.handle) : (p.onSession fun _ => s').Runs e := by
  cases p with
  | live => exact hp
  | acting s rest =>
    cases hs
    refine ⟨hp.1, fun k content hstore => ?_⟩
    rw [hhandle]
    exact hp.2 k content hstore
  | leaving => exact hp
  | asking | answered | unopened | joining | refused | ended | swept => exact hp

end Phase

namespace Guest

variable {cfg : HubSettings} {now : Time} {g : Guest} {w : World} {e : Errand}

/-- The text that an act brings, if the reading side takes one. -/
def hears? (g : Guest) : Act → Option String
  | .arrive (.item (.text text)) =>
    match g.phase with
    | .live s => s.reading.toOption.map fun _ => text
    | _ => none
  | _ => none

/-- What an act does about an errand: a text is heard and asks for one, the next operation
is taken, or the errand stays as it is. -/
inductive Pursuit (g : Guest) (w : World) :
    Errand → Option String → Guest → World → List Sending → Errand → Prop where
  | heard {text : String} {s : Session} {g' : Guest} (hp : g.phase = .live s)
      (hturns : g'.turns = g.turns) :
      Pursuit g w .idle (some text) g' w [] (.ofText s.handle text)
  | took {e e' : Errand} {op : Operation} {next : op.Answer → Phase}
      (hnext : g.phase.next? = some ⟨op, next⟩) (hturns : e.Turns op (w.perform op).1 e') :
      Pursuit g w e none (g.took op next (w.perform op).1) (w.perform op).2 (op.sends w.hub) e'
  | kept {e : Errand} {g' : Guest} {w' : World} (hturns : g'.turns = g.turns)
      (hstore : w'.store = w.store) : Pursuit g w e none g' w' [] e

/-- A reading side that waits is set to work by an arrival and by nothing else. -/
theorem not_acting_of_live {a : Act} {s s' : Session} {rest : Program (Except Ending ReadSide)}
    (hp : g.phase = .live s) (ha : ∀ arrival, a ≠ .arrive arrival) :
    (g.act cfg now a w).1.phase ≠ .acting s' rest := by
  have hreading : ∀ f, (g.onReading f).phase ≠ .acting s' rest := by
    intro f
    simp only [onReading, hp]
    cases s.reading with
    | error ending =>
      rw [hp]
      exact Phase.noConfusion
    | ok side => exact Phase.noConfusion
  cases a with
  | step =>
    simp only [act, step, hp, Phase.next?]
    exact Phase.noConfusion
  | proceed =>
    simp only [act, proceed, hp]
    split
    next => exact Phase.noConfusion
    next =>
      split
      next => exact Phase.noConfusion
      next =>
        rw [hp]
        exact Phase.noConfusion
  | arrive arrival => exact absurd rfl (ha arrival)
  | notice => exact hreading _
  | idle => exact hreading _
  | write =>
    simp only [act, write, hp, Phase.session?, onSession, Phase.onSession]
    exact Phase.noConfusion
  | trip =>
    show g.phase ≠ _
    rw [hp]
    exact Phase.noConfusion
  | link socket =>
    simp only [act, onSession, hp, Phase.onSession]
    exact Phase.noConfusion
  | sweep =>
    simp only [act, sweep, hp]
    exact Phase.noConfusion

/-- What sets no reading side to work pursues the errand that there was. -/
theorem pursuit_change {g' : Guest} {w' : World} {sent : List Sending} (hr : g.phase.Runs e)
    (hc : g.Change cfg now w g' w' sent)
    (hidle : ∀ s s' rest, g.phase = .live s → g'.phase ≠ .acting s' rest) :
    ∃ e', g.Pursuit w e none g' w' sent e' ∧ g'.phase.Runs e' := by
  cases hc with
  | still => exact ⟨e, .kept rfl rfl, hr⟩
  | tripped => exact ⟨e, .kept rfl rfl, hr⟩
  | @took op next hnext =>
    obtain ⟨e', hturns, hrest⟩ := hr.next hnext (w.perform op).1
    exact ⟨e', .took hnext hturns, hrest⟩
  | arrived hp => exact absurd rfl (hidle _ _ _ hp)
  | @acted s reading hp =>
    -- a program that has come to its end has done its errand
    rw [hp] at hr
    exact ⟨e, .kept rfl rfl, hr.1⟩
  | @wrote s hs socket writing w' hw =>
    refine ⟨e, .kept rfl ?_, hr.onSession hs rfl⟩
    rcases hw with rfl | rfl <;> rfl
  | @opened room who o hp ho =>
    rw [hp] at hr
    exact ⟨e, .kept rfl rfl, hr.1, Membership.runs_join _ _⟩
  | @drained s ending hp =>
    rw [hp] at hr
    exact ⟨e, .kept rfl rfl, hr, Membership.runs_leave _⟩
  | answered hp | unopened hp | joined hp | refused hp | left hp =>
    rw [hp] at hr
    exact ⟨e, .kept rfl rfl, hr.1⟩
  | heard hp | finished hp | swept hp =>
    rw [hp] at hr
    exact ⟨e, .kept rfl rfl, hr⟩

/-- What comes while the reading side does not wait is not taken. -/
theorem arrive_of_not_waiting
    (hnot : ¬∃ s side, g.phase = .live s ∧ s.reading = .ok side) (arrival : Arrival) :
    g.arrive cfg now arrival = g ∧ g.hears? (.arrive arrival) = none := by
  constructor
  · unfold arrive
    split
    next s hp =>
      split
      next side hside => exact absurd ⟨s, side, hp, hside⟩ hnot
      next => rfl
    next => rfl
  · unfold hears?
    split
    next text heq =>
      split
      next s hp =>
        cases hreading : s.reading with
        | error ending => rfl
        | ok side => exact absurd ⟨s, side, hp, hreading⟩ hnot
      next => rfl
    next => rfl

/-- A guest hears nothing in what is no text. -/
theorem hears?_of_ne_text {arrival : Arrival} (hother : ∀ text, arrival ≠ .item (.text text)) :
    g.hears? (.arrive arrival) = none := by
  cases arrival with
  | failed | ended => rfl
  | item i =>
    cases i with
    | text s => exact absurd rfl (hother s)
    | binary | ping | pong | close => rfl

/-- What comes from the client is heard if the reading side waits, and begins the errand that it
asks for. -/
theorem pursuit_arrive (hr : g.phase.Runs e) (arrival : Arrival) :
    ∃ e', g.Pursuit w e (g.hears? (.arrive arrival)) (g.arrive cfg now arrival) w [] e' ∧
      (g.arrive cfg now arrival).phase.Runs e' := by
  by_cases htaken : ∃ s side, g.phase = .live s ∧ s.reading = .ok side
  · obtain ⟨s, side, hp, hside⟩ := htaken
    have hidle : e = .idle := by
      rw [hp] at hr
      exact hr
    subst hidle
    have harrive : g.arrive cfg now arrival
        = { g with phase := .acting s (side.take s.handle cfg.idleTimeout now arrival) } := by
      simp only [arrive, hp, hside]
    rw [harrive]
    by_cases htext : ∃ text, arrival = .item (.text text)
    · obtain ⟨text, rfl⟩ := htext
      have hhears : g.hears? (.arrive (.item (.text text))) = some text := by
        simp only [hears?, hp, hside]
        rfl
      rw [hhears]
      refine ⟨.ofText s.handle text, .heard hp rfl, ReadSide.runs_take _ _ _ _, ?_⟩
      intro k content hstore
      unfold Errand.ofText at hstore
      split at hstore
      next =>
        cases hstore
        rfl
      next => cases hstore
    · have hother : ∀ text, arrival ≠ .item (.text text) := fun text h => htext ⟨text, h⟩
      rw [hears?_of_ne_text hother]
      refine ⟨.idle, .kept rfl rfl, ReadSide.runs_take_other _ _ _ hother, ?_⟩
      intro k content hstore
      cases hstore
  · obtain ⟨harrive, hhears⟩ : g.arrive cfg now arrival = g ∧ _ :=
      arrive_of_not_waiting htaken arrival
    rw [harrive, hhears]
    exact ⟨e, .kept rfl rfl, hr⟩

/-- What an act of a guest does about the guest's errand. -/
theorem pursuit_act (cfg : HubSettings) (now : Time) (w : World) (a : Act) (hr : g.phase.Runs e) :
    ∃ e', g.Pursuit w e (g.hears? a) (g.act cfg now a w).1 (g.act cfg now a w).2
        (sends a g w) e' ∧ (g.act cfg now a w).1.phase.Runs e' := by
  by_cases ha : ∃ arrival, a = .arrive arrival
  · obtain ⟨arrival, rfl⟩ := ha
    exact pursuit_arrive hr arrival
  · have hother : ∀ arrival, a ≠ .arrive arrival := fun arrival h => ha ⟨arrival, h⟩
    have hhears : g.hears? a = none := by
      unfold hears?
      split
      next => exact absurd rfl (hother _)
      next => rfl
    rw [hhears]
    exact pursuit_change hr (change_act a g w) fun s s' rest hp => not_acting_of_live hp hother

end Guest

end RoomHub
