import Mathlib.Data.List.Forall2
import RoomHub.Proofs.Scene.Moves

/-!
# Programs that others interrupt

A program is not alone: before each of its operations others may act. A `Deed` is one thing
that others do, be it to the hub, to the store, or to the queues and close signals. What they
do while a program runs is laid down as a list of interludes, `gaps`: the first comes before
the first operation of the program, the second before the second, and so on, and what is left
when the program has ended comes then. Every way in which the operations of a program and the
deeds of others can follow each other is one choice of interludes.

`Program.amid` runs a program so. It keeps the turns of the program and what the program itself
sent; the deeds leave their traces in the world only.

> `amid_nil`: without interludes it is the run of the program alone;
> `amid_map`: a program that goes on to a mere result has the same course;
> `amid_step_of_offHub`: interludes that leave the hub alone go by beside it.
-/

namespace RoomHub

/-! ## Deeds -/

/-- One thing that others do. -/
inductive Deed where
  | onHub (step : Hub.Step)
  | persist (room : RoomId) (user : UserId) (draft : Draft)
  | createRoom (room : RoomId)
  | addMember (room : RoomId) (user : UserId) (name : String)
  | setOutage (outage : Outage)
  | setClock (clock : Instant)

namespace Deed

/-- Whether a deed is a step of the hub. -/
def isOnHub : Deed → Bool
  | .onHub _ => true
  | _ => false

/-- A deed that neither takes a connection out of its room nor touches its call flag. -/
def Spares (c : ConnectionId) : Deed → Prop
  | .onHub a => a ≠ .detach c ∧ ∀ on, a ≠ .setInCall c on
  | _ => True

instance (c : ConnectionId) (d : Deed) : Decidable (d.Spares c) :=
  match d with
  | .onHub a =>
    decidable_of_iff (a ≠ .detach c ∧ a ≠ .setInCall c true ∧ a ≠ .setInCall c false) (by
      simp only [Spares, Bool.forall_bool, ne_eq]
      exact and_congr_right fun _ => And.comm)
  | .persist .. | .createRoom .. | .addMember .. | .setOutage .. | .setClock .. =>
    isTrue trivial

end Deed

namespace World

/-- The world with its hub replaced. -/
def withHub (h : Hub) (w : World) : World := { w with hub := h }

@[simp] theorem withHub_hub (h : Hub) (w : World) : (w.withHub h).hub = h := rfl

@[simp] theorem withHub_withHub (h h' : Hub) (w : World) :
    (w.withHub h).withHub h' = w.withHub h' := rfl

@[simp] theorem withHub_self (w : World) : w.withHub w.hub = w := rfl

/-- The world after a deed. -/
def undergo (w : World) : Deed → World
  | .onHub a => { w with hub := Hub.act a w.hub }
  | .persist r u d => (w.perform (.persist r u d)).2
  | .createRoom r => { w with store := (w.store.createRoom r).2 }
  | .addMember r u name => { w with store := (w.store.addMember r u name).2 }
  | .setOutage o => { w with outage := o }
  | .setClock t => { w with clock := t }

/-- The world after some deeds. -/
def undergoAll (w : World) (ds : List Deed) : World := ds.foldl undergo w

/-- Two series of deeds one after the other are one series. -/
theorem undergoAll_append (w : World) (ds ds' : List Deed) :
    w.undergoAll (ds ++ ds') = (w.undergoAll ds).undergoAll ds' :=
  List.foldl_append

/-- A deed that is no step of the hub leaves the hub alone. -/
theorem hub_undergo {d : Deed} (hd : d.isOnHub = false) (w : World) :
    (w.undergo d).hub = w.hub := by
  cases d with
  | onHub a => cases hd
  | persist r u draft => exact World.hub_perform (.persist r u draft) w
  | createRoom | addMember | setOutage | setClock => rfl

/-- What goes on elsewhere, as in the store, leaves the hub as it is. -/
theorem hub_undergoAll {ds : List Deed} (hds : ∀ d ∈ ds, d.isOnHub = false) (w : World) :
    (w.undergoAll ds).hub = w.hub := by
  induction ds generalizing w with
  | nil => rfl
  | cons d ds ih =>
    obtain ⟨hd, hrest⟩ := List.forall_mem_cons.mp hds
    exact (ih hrest (w.undergo d)).trans (hub_undergo hd w)

end World

/-! ## The course of a program -/

namespace Program

/-- What a program did and what came of it: its result, its turns, what it sent, and the world
at the end. -/
structure Course (α : Type) where
  result : α
  turns : List Turn
  sent : List Sending
  world : World

namespace Course

variable {α β : Type}

/-- The course with the result changed. -/
def map (f : α → β) (x : Course α) : Course β := { x with result := f x.result }

/-- The course with one turn before it. -/
def cons (turn : Turn) (sent : List Sending) (x : Course α) : Course α :=
  { x with turns := turn :: x.turns, sent := sent ++ x.sent }

variable (turn : Turn) (sent : List Sending) (x : Course α)

@[simp] theorem cons_result : (x.cons turn sent).result = x.result := rfl

@[simp] theorem cons_turns : (x.cons turn sent).turns = turn :: x.turns := rfl

@[simp] theorem cons_sent : (x.cons turn sent).sent = sent ++ x.sent := rfl

@[simp] theorem cons_world : (x.cons turn sent).world = x.world := rfl

end Course

variable {α β : Type}

/-- Runs a program while others act: the first interlude comes before the first operation. -/
def amid : Program α → List (List Deed) → World → Course α
  | .done a, gaps, w => ⟨a, [], [], w.undergoAll gaps.flatten⟩
  | .step op next, gaps, w =>
    let before := w.undergoAll (gaps.headD [])
    ((next (before.perform op).1).amid gaps.tail (before.perform op).2).cons
      ⟨op, (before.perform op).1⟩ (op.sends before.hub)

@[simp] theorem amid_done (a : α) (gaps : List (List Deed)) (w : World) :
    (done a).amid gaps w = ⟨a, [], [], w.undergoAll gaps.flatten⟩ := rfl

/-- The first operation finds the world that the first interlude left. -/
theorem amid_step (op : Operation) (next : op.Answer → Program α) (gaps : List (List Deed))
    (w : World) :
    (step op next).amid gaps w =
      let before := w.undergoAll (gaps.headD [])
      ((next (before.perform op).1).amid gaps.tail (before.perform op).2).cons
        ⟨op, (before.perform op).1⟩ (op.sends before.hub) := rfl

/-- Without interludes a program runs alone. -/
theorem amid_nil (p : Program α) (w : World) :
    (p.amid [] w).result = (p.run w).1 ∧ (p.amid [] w).world = (p.run w).2 := by
  induction p generalizing w with
  | done a => exact ⟨rfl, rfl⟩
  | step op next ih => exact ih (w.perform op).1 (w.perform op).2

/-- A program that goes on to a mere result has the same course. -/
theorem amid_map (p : Program α) (f : α → β) (gaps : List (List Deed)) (w : World) :
    (p >>= fun a => pure (f a)).amid gaps w = (p.amid gaps w).map f := by
  induction p generalizing gaps w with
  | done a => rfl
  | step op next ih =>
    have hrest := ih ((w.undergoAll (gaps.headD [])).perform op).1 gaps.tail
      ((w.undergoAll (gaps.headD [])).perform op).2
    show (step op fun answer => next answer >>= fun a => pure (f a)).amid gaps w = _
    rw [amid_step, amid_step]
    simp only [hrest]
    rfl

/-- The interludes that are left over come one after the other. -/
theorem undergoAll_gaps (gaps : List (List Deed)) (w : World) :
    (w.undergoAll (gaps.headD [])).undergoAll gaps.tail.flatten = w.undergoAll gaps.flatten := by
  cases gaps with
  | nil => rfl
  | cons gap gaps => exact (World.undergoAll_append w gap gaps.flatten).symm

end Program

/-! ## What a program does -/

namespace Program

variable {α β : Type} {P Q : Operation → Prop} {p : Program α}

/-- Every operation of a program is of a kind. -/
def Only (P : Operation → Prop) {α : Type} : Program α → Prop
  | .done _ => True
  | .step op next => P op ∧ ∀ answer, Only P (next answer)

theorem Only.imp (hp : p.Only P) (himp : ∀ op, P op → Q op) : p.Only Q := by
  induction p with
  | done a => exact trivial
  | step op next ih => exact ⟨himp op hp.1, fun answer => ih answer (hp.2 answer)⟩

/-- A program that goes on to a mere result does the same. -/
theorem Only.map (hp : p.Only P) (f : α → β) : (p >>= fun a => pure (f a)).Only P := by
  induction p with
  | done a => exact trivial
  | step op next ih => exact ⟨hp.1, fun answer => ih answer (hp.2 answer)⟩

end Program

/-! ## What interludes hold -/

namespace Program

/-- Every deed in these interludes is of a kind. -/
def Interludes (P : Deed → Prop) (gaps : List (List Deed)) : Prop := ∀ gap ∈ gaps, ∀ d ∈ gap, P d

/-- Nothing in these interludes is a step of the hub. -/
def OffHub (gaps : List (List Deed)) : Prop := Interludes (·.isOnHub = false) gaps

namespace Interludes

variable {P : Deed → Prop} {gaps : List (List Deed)}

theorem nil : Interludes P [] := fun _ hgap => nomatch hgap

theorem headD (hgaps : Interludes P gaps) : ∀ d ∈ gaps.headD [], P d := by
  cases gaps with
  | nil => exact fun d hd => nomatch hd
  | cons gap gaps => exact hgaps gap List.mem_cons_self

theorem tail (hgaps : Interludes P gaps) : Interludes P gaps.tail :=
  fun gap hgap => hgaps gap (List.mem_of_mem_tail hgap)

theorem flatten (hgaps : Interludes P gaps) : ∀ d ∈ gaps.flatten, P d := by
  intro d hd
  obtain ⟨gap, hgap, hmem⟩ := List.mem_flatten.mp hd
  exact hgaps gap hgap d hmem

end Interludes

end Program

/-! ## Interludes that leave the hub alone -/

namespace World

/-- An operation that is a step of the hub does nothing but that step. -/
theorem perform_of_step? {op : Operation} {a : Hub.Step} (hop : op.step? = some a) (w : World) :
    (w.perform op).2 = w.withHub (Hub.act a w.hub) := by
  cases op with
  | attach | detach | setInCall | broadcast | broadcastPresence | pushTo
  | pushCallParticipants =>
    cases hop
    rfl
  | roomExists | isMember | listMembers | persist | recentMessages | participants
  | callParticipants => cases hop

/-- A deed that is no step of the hub does the same beside any hub. -/
theorem undergo_withHub {d : Deed} (hd : d.isOnHub = false) (w : World) (h : Hub) :
    (w.withHub h).undergo d = (w.undergo d).withHub h := by
  cases d with
  | onHub a => cases hd
  | persist r u draft =>
    simp only [undergo, perform, withHub]
    cases w.outage .persist <;> rfl
  | createRoom | addMember | setOutage | setClock => rfl

/-- Deeds elsewhere neither read nor write the hub, so it can be replaced before or after them. -/
theorem undergoAll_withHub {ds : List Deed} (hds : ∀ d ∈ ds, d.isOnHub = false) (w : World)
    (h : Hub) : (w.withHub h).undergoAll ds = (w.undergoAll ds).withHub h := by
  induction ds generalizing w with
  | nil => rfl
  | cons d ds ih =>
    obtain ⟨hd, hrest⟩ := List.forall_mem_cons.mp hds
    show ((w.withHub h).undergo d).undergoAll ds = _
    rw [undergo_withHub hd]
    exact ih hrest (w.undergo d)

end World

namespace Program

variable {α : Type}

/-- The first gap and then the next `n` are the first `n + 1` gaps. -/
theorem undergoAll_take (gaps : List (List Deed)) (n : Nat) (w : World) :
    (w.undergoAll (gaps.headD [])).undergoAll (gaps.tail.take n).flatten =
      w.undergoAll (gaps.take (n + 1)).flatten := by
  cases gaps with
  | nil => rw [List.tail_nil, List.take_nil, List.take_nil]; rfl
  | cons gap gaps => exact (World.undergoAll_append w gap (gaps.take n).flatten).symm

variable {gaps : List (List Deed)}

/-- The end of a program, beside a hub that the interludes leave alone. -/
theorem amid_done_of_offHub (hgaps : OffHub gaps) (a : α) (w : World) (h : Hub) :
    (done a).amid gaps (w.withHub h) = ⟨a, [], [], (w.undergoAll gaps.flatten).withHub h⟩ := by
  rw [amid_done, World.undergoAll_withHub hgaps.flatten]

/-- An operation that is a step of the hub, after an interlude that leaves the hub alone. -/
theorem amid_step_of_offHub (hgaps : OffHub gaps) {op : Operation} {a : Hub.Step}
    (hop : op.step? = some a) (next : op.Answer → Program α) (w : World) (h : Hub) :
    (step op next).amid gaps (w.withHub h) =
      let before := w.undergoAll (gaps.headD [])
      ((next ((before.withHub h).perform op).1).amid gaps.tail (before.withHub (Hub.act a h))).cons
        ⟨op, ((before.withHub h).perform op).1⟩ (Hub.sends a h) := by
  have hsends : op.sends h = Hub.sends a h := by
    unfold Operation.sends
    rw [hop]
  rw [amid_step, World.undergoAll_withHub hgaps.headD]
  simp only [World.perform_of_step? hop, World.withHub_hub, World.withHub_withHub, hsends]

/-- The program of some operations whose answers do not matter. -/
def inTurn : List Operation → α → Program α
  | [], a => done a
  | op :: ops, a => step op fun _ => inTurn ops a

/-- Operations that are steps of the hub, among interludes that leave the hub alone, are a run
of the hub. -/
theorem amid_inTurn {ops : List Operation} {steps : List Hub.Step}
    (hops : List.Forall₂ (fun op a => op.step? = some a) ops steps) (hgaps : OffHub gaps) (a : α)
    (w : World) (h : Hub) :
    let course := (inTurn ops a).amid gaps (w.withHub h)
    course.result = a ∧ course.sent = Hub.sendsAll steps h ∧
      course.world = (w.undergoAll gaps.flatten).withHub (Hub.run steps h) := by
  induction hops generalizing gaps w h with
  | nil =>
    intro course
    have hcourse : course = ⟨a, [], [], _⟩ := amid_done_of_offHub hgaps a w h
    rw [hcourse]
    exact ⟨rfl, rfl, rfl⟩
  | cons hop _ ih =>
    intro course
    have hcourse : course = Course.cons _ _ _ := amid_step_of_offHub hgaps hop _ w h
    obtain ⟨hresult, hsent, hworld⟩ := ih hgaps.tail (w.undergoAll (gaps.headD [])) _
    rw [hcourse]
    refine ⟨hresult, ?_, ?_⟩
    · rw [Course.cons_sent, hsent]
      rfl
    · rw [Course.cons_world, hworld, undergoAll_gaps]
      rfl

end Program

end RoomHub
