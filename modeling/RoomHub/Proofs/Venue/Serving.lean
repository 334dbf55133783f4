import RoomHub.Proofs.Venue.Confidence
import RoomHub.Proofs.Venue.Departures

/-!
# A server is a venue

A `Server` lets one session after the other read, write and leave, and each of these does
all that it can at a time. Every such pass is a run of a venue in which the guests take
their turns in that order (`exists_run_pass`), so what holds after every run of a venue
holds of a server: `Serves` ties the sessions of a server to the guests of a venue.

> `Serves.meet`: whatever is asked of a server, a venue that serves it goes on to serve it;
> `registered_iff_session`: the connections that a server has registered are those of its
> sessions that have not left;
> `session_of_member`: each session is that of a member, and only messages of its room wait
> for it.
-/

namespace RoomHub

open Program (done step)

/-! ## What a guest's acts come to -/

namespace Guest

/-- What a guest and the world can become by acts of the guest. -/
inductive Reaches (cfg : HubSettings) (now : Time) : Guest → World → Guest → World → Prop where
  | refl (g : Guest) (w : World) : Reaches cfg now g w g w
  | head {g g' : Guest} {w w' : World} (a : Act)
      (rest : Reaches cfg now (g.act cfg now a w).1 (g.act cfg now a w).2 g' w') :
      Reaches cfg now g w g' w'

variable {cfg : HubSettings} {now : Time} {g g' g'' : Guest} {w w' w'' : World}

theorem Reaches.act (a : Act) (g : Guest) (w : World) :
    Reaches cfg now g w (g.act cfg now a w).1 (g.act cfg now a w).2 :=
  .head a (.refl _ _)

theorem Reaches.trans (h : Reaches cfg now g w g' w') (h' : Reaches cfg now g' w' g'' w'') :
    Reaches cfg now g w g'' w'' := by
  induction h with
  | refl => exact h'
  | head a _ ih => exact .head a (ih h')

/-- A guest in the middle of a program reaches the end of it, as if it ran alone. -/
theorem reaches_program {α : Type} (cfg : HubSettings) (now : Time) (phase : Program α → Phase)
    (hphase : ∀ op f, (phase (.step op f)).next? = some ⟨op, fun a => phase (f a)⟩)
    (p : Program α) (g : Guest) (w : World) :
    ∃ turns, Reaches cfg now { g with phase := phase p } w
      { g with turns := turns, phase := phase (.done (p.run w).1) } (p.run w).2 := by
  -- on the program, one act for each operation; what the task did grows along
  induction p generalizing g w with
  | done a => exact ⟨g.turns, .refl _ w⟩
  | step op f ih =>
    have hstep : ({ g with phase := phase (.step op f) } : Guest).act cfg now .step w
        = ({ g with
              turns := g.turns ++ [⟨op, (w.perform op).1⟩]
              phase := phase (f (w.perform op).1) }, (w.perform op).2) := by
      show Guest.step { g with phase := phase (.step op f) } w = _
      unfold Guest.step
      rw [hphase]
      rfl
    obtain ⟨turns, hrest⟩ := ih (w.perform op).1
      { g with turns := g.turns ++ [⟨op, (w.perform op).1⟩] } (w.perform op).2
    refine ⟨turns, .head .step ?_⟩
    rw [hstep]
    exact hrest

/-- A new guest gets an answer to its request, and nothing else has changed. -/
theorem reaches_answer (cfg : HubSettings) (now : Time) (id : ConnectionId) (site : Http.Site)
    (upgradable : Bool) (req : Http.Request) (w : World) :
    ∃ turns, Reaches cfg now (.fresh id site upgradable req) w
      { Guest.fresh id site upgradable req with
        turns := turns
        phase := .asking (.done ((Http.answer site upgradable req).run w).1) } w := by
  have hreads := (Http.reads_answer site upgradable req).run_snd w
  have hprogram := reaches_program cfg now .asking (fun _ _ => rfl)
    (Http.answer site upgradable req) (.fresh id site upgradable req) w
  rw [hreads] at hprogram
  exact hprogram

/-- A guest that was granted a socket, and for which there is an outbox, joins. -/
theorem reaches_join (cfg : HubSettings) (now : Time) {k : Handle} {o : Outbox}
    (ho : Outbox.create? cfg.capacity = some o) (g : Guest) (hid : g.id = k.id) (w : World) :
    ∃ turns, Reaches cfg now
      { g with phase := .asking (.done (.upgrade k.room k.participant)) } w
      { g with
        turns := turns
        phase := .joining k (.done ((Membership.join cfg.historyLimit k).run
          { w with hub := w.hub.addOutbox k.id o }).1) }
      ((Membership.join cfg.historyLimit k).run { w with hub := w.hub.addOutbox k.id o }).2 := by
  obtain ⟨id, room, who⟩ := k
  cases hid
  have hopen :
      ({ g with phase := .asking (.done (.upgrade room who)) } : Guest).act cfg now .proceed w
        = (g.opened cfg ⟨g.id, room, who⟩, { w with hub := w.hub.addOutbox g.id o }) := by
    show Guest.proceed cfg now { g with phase := .asking (.done (.upgrade room who)) } w = _
    unfold Guest.proceed
    simp only [ho]
    rfl
  obtain ⟨turns, hprogram⟩ := reaches_program cfg now (.joining ⟨g.id, room, who⟩)
    (fun _ _ => rfl) (Membership.join cfg.historyLimit ⟨g.id, room, who⟩) g
    { w with hub := w.hub.addOutbox g.id o }
  refine ⟨turns, .head .proceed ?_⟩
  rw [hopen]
  exact hprogram

end Guest

/-! ## What a session does at a time -/

/-- A guest can bring its session from one state to another. -/
def Session.Brings (cfg : HubSettings) (now : Time) (s : Session) (w : World) (s' : Session)
    (w' : World) : Prop :=
  ∀ g : Guest, ∃ turns stages, Guest.Reaches cfg now { g with phase := .live s } w
    { g with turns := turns, stages := stages, phase := .live s' } w'

namespace Session

variable {cfg : HubSettings} {now : Time} {s s' s'' : Session} {w w' w'' : World}

theorem Brings.refl (s : Session) (w : World) : Brings cfg now s w s w := by
  intro g
  exact ⟨g.turns, g.stages, .refl _ w⟩

theorem Brings.trans (h : Brings cfg now s w s' w') (h' : Brings cfg now s' w' s'' w'') :
    Brings cfg now s w s'' w'' := by
  intro g
  obtain ⟨turns, stages, hfirst⟩ := h g
  obtain ⟨turns', stages', hsecond⟩ := h' { g with turns := turns, stages := stages }
  exact ⟨turns', stages', hfirst.trans hsecond⟩

/-- One act that leaves the session waiting. -/
theorem brings_act (a : Act)
    (hact : ∀ g : Guest, ({ g with phase := .live s } : Guest).act cfg now a w
      = ({ g with phase := .live s' }, w')) : Brings cfg now s w s' w' := by
  intro g
  refine ⟨g.turns, g.stages, .head a ?_⟩
  rw [hact g]
  exact .refl _ w'

/-- What the network does to a session's socket, a guest's acts can do. -/
theorem brings_link (socket : WebSocket.Socket) (s : Session) (w : World) :
    Brings cfg now s w { s with socket := socket } w :=
  brings_act (.link socket) fun _ => rfl

/-- What the reading side does by itself, while it waits. -/
theorem brings_reading {side : ReadSide} {reading : Except Ending ReadSide} (a : Act)
    (f : Session → ReadSide → Except Ending ReadSide) (hside : s.reading = .ok side)
    (ha : ∀ g : Guest, g.act cfg now a w = (g.onReading f, w)) (hf : f s side = reading) :
    Brings cfg now s w { s with reading := reading } w := by
  refine brings_act a fun g => ?_
  rw [ha]
  unfold Guest.onReading
  simp only [hside, hf]

/-- The reading side takes what came, and acts upon it. -/
theorem brings_arrival (cfg : HubSettings) (now : Time) {side : ReadSide} (arrival : Arrival)
    (hside : s.reading = .ok side) (w : World) :
    Brings cfg now s w
      { s with reading := ((side.take s.handle cfg.idleTimeout now arrival).run w).1 }
      ((side.take s.handle cfg.idleTimeout now arrival).run w).2 := by
  intro g
  have harrive : ({ g with phase := .live s } : Guest).act cfg now (.arrive arrival) w
      = ({ g with phase := .acting s (side.take s.handle cfg.idleTimeout now arrival) }, w) := by
    show (Guest.arrive cfg now arrival { g with phase := .live s }, w) = _
    unfold Guest.arrive
    simp only [hside]
  obtain ⟨turns, hprogram⟩ := Guest.reaches_program cfg now (.acting s)
    (fun _ _ => rfl) (side.take s.handle cfg.idleTimeout now arrival) g w
  refine ⟨turns, g.stages, .head (.arrive arrival) ?_⟩
  rw [harrive]
  exact hprogram.trans (.act .proceed _ _)

/-- Reading all that can be read. -/
theorem brings_readWithin (cfg : HubSettings) (now : Time) (fuel : Nat) (s : Session) (w : World) :
    Brings cfg now s w (readWithin cfg now fuel s w).1 (readWithin cfg now fuel s w).2 := by
  induction fuel generalizing s w with
  | zero => exact .refl s w
  | succ fuel ih =>
    unfold readWithin
    split
    next => exact .refl s w
    next side hside =>
      split
      next hcancelled =>
        -- a close signal ends the reading before anything is read
        refine brings_reading .notice _ hside (fun _ => rfl) ?_
        simp only [hcancelled, if_true]
      next =>
        rcases s.socket.read cfg.maxFrame with ⟨found, socket⟩
        have hlink : Brings cfg now s w { s with socket := socket } w := brings_link socket s w
        dsimp only
        split
        next =>
          -- nothing is there, which is when the reading side looks at the clock
          exact hlink.trans (brings_reading .idle _ hside (fun _ => rfl) rfl)
        next arrival _ =>
          have hread : { s with socket := socket }.reading = .ok side := hside
          have harrival := brings_arrival cfg now arrival hread w
          exact (hlink.trans harrival).trans (ih _ _)

/-- A step of the writing side. -/
theorem brings_writeStep (cfg : HubSettings) (now : Time) (s : Session) (w : World) :
    Brings cfg now s w (s.writeStep cfg now w).2.1 (s.writeStep cfg now w).2.2 :=
  brings_act .write fun _ => rfl

/-- Writing all that can be written. -/
theorem brings_writeWithin (cfg : HubSettings) (now : Time) (fuel : Nat) (s : Session) (w : World) :
    Brings cfg now s w (writeWithin cfg now fuel s w).1 (writeWithin cfg now fuel s w).2 := by
  induction fuel generalizing s w with
  | zero => exact .refl s w
  | succ fuel ih =>
    have hwrite := brings_writeStep cfg now s w
    unfold writeWithin
    split
    next s' w' heq =>
      rw [heq] at hwrite
      exact hwrite
    next s' w' heq =>
      rw [heq] at hwrite
      -- after a frame the signal is tripped at once if the writing side is at its end
      have htrip : Brings cfg now s' w' s' (s'.afterWriting w') := brings_act .trip fun _ => rfl
      exact (hwrite.trans htrip).trans (ih _ _)

/-- Leaving the room, once the reading side has ended. -/
theorem brings_leaveIfDone (cfg : HubSettings) (now : Time) (s : Session) (w : World) :
    Brings cfg now s w (s.leaveIfDone w).1 (s.leaveIfDone w).2 := by
  unfold leaveIfDone
  split
  next e hended hthere =>
    intro g
    have hdrain : ({ g with phase := .live s } : Guest).act cfg now .proceed w
        = (Guest.draining { g with phase := .live s } s, w) := by
      show Guest.proceed cfg now { g with phase := .live s } w = _
      unfold Guest.proceed
      simp only [hended, hthere]
    obtain ⟨turns, hprogram⟩ := Guest.reaches_program cfg now
      (.leaving { s with stage := (s.stage.advance .draining).2 }) (fun _ _ => rfl)
      (Membership.leave s.handle.id)
      { g with stages := g.stages ++ [s.stage.advance .draining] } w
    refine ⟨turns, g.stages ++ [s.stage.advance .draining], .head .proceed ?_⟩
    rw [hdrain]
    exact hprogram.trans (.act .proceed _ _)
  next => exact .refl s w

end Session

/-! ## One session after the other -/

namespace Server

/-- Lets one session after the other do something, which may be the last of it. -/
def pass (f : Session → World → Option Session × World) :
    List Session → World → List Session × World
  | [], w => ([], w)
  | t :: ts, w =>
    ((f t w).1.toList ++ (pass f ts (f t w).2).1, (pass f ts (f t w).2).2)

/-- Letting each session do something is a pass in which none of them goes. -/
theorem each_eq_pass (f : Session → World → Session × World) (ts : List Session) (w : World) :
    each f ts w = pass (fun t w => (some (f t w).1, (f t w).2)) ts w := by
  induction ts generalizing w with
  | nil => rfl
  | cons t ts ih => simp only [each, pass, ih, Option.toList_some, List.singleton_append]

/-- A change that is no business of the world is made to each session by itself. -/
theorem each_eq_map (f : Session → Session) (ts : List Session) (w : World) :
    each (fun t w => (f t, w)) ts w = (ts.map f, w) := by
  induction ts with
  | nil => rfl
  | cons t ts ih => simp only [each, ih, List.map_cons]

/-- A session that is over goes, and takes its outbox with it. -/
def farewell (t : Session) (w : World) : Option Session × World :=
  match t.over? with
  | some d => (none, { w with hub := w.hub.removeOutbox d.connection })
  | none => (some t, w)

/-- Sessions that are over depart in one pass. -/
theorem depart_eq_pass (ts : List Session) (w : World) :
    (ts.filter (·.over?.isNone),
      { w with
        hub := (ts.filterMap Session.over?).foldl (fun h d => h.removeOutbox d.connection) w.hub })
      = pass farewell ts w := by
  induction ts generalizing w with
  | nil => rfl
  | cons t ts ih =>
    cases ht : t.over? with
    | some d =>
      have hfarewell :
          farewell t w = (none, { w with hub := w.hub.removeOutbox d.connection }) := by
        unfold farewell
        rw [ht]
      simp only [pass, hfarewell, ← ih, List.filterMap_cons, List.filter_cons, ht,
        List.foldl_cons, Option.isNone_some]
      rfl
    | none =>
      have hfarewell : farewell t w = (some t, w) := by
        unfold farewell
        rw [ht]
      simp only [pass, hfarewell, ← ih, List.filterMap_cons, List.filter_cons, ht,
        Option.isNone_none, if_true]
      rfl

end Server

/-! ## Guests between their acts -/

namespace Guest

/-- The session of a guest whose reading side waits or has ended. -/
def resting? (g : Guest) : Option Session :=
  match g.phase with
  | .live s => some s
  | _ => none

/-- A guest is not in the middle of a program, nor between the two ends of its session. -/
def AtRest (g : Guest) : Prop :=
  match g.phase with
  | .asking (.done _) | .answered _ | .unopened | .refused _ | .live _ | .swept .. => True
  | _ => False

variable {g : Guest} {s s' : Session}

/-- A guest at rest with a session is one whose session goes on. -/
theorem eq_live (h : g.resting? = some s) : g = { g with phase := .live s } := by
  obtain ⟨id, site, upgradable, request, turns, stages, phase⟩ := g
  cases phase with
  | live t =>
    cases h
    rfl
  | asking | answered | unopened | joining | refused | acting | leaving | ended | swept => cases h

/-- A guest at rest who is registered has a session, and has not left. -/
theorem AtRest.live_of_registered {h : Hub} {k : Handle} (hr : g.AtRest) (ho : g.InOrder h)
    (hk : h.registry.connection? g.id = some k) :
    ∃ t, g.phase = .live t ∧ t.handle = k ∧ t.left = false := by
  have hhandle := ho.handle?_of_registered hk
  have hgone : ∀ {t : Session} {after : List Turn}, t.handle.id = g.id →
      Gone h t.handle g.turns after → False := by
    intro t after hid hgone
    rw [← hid, hgone.free] at hk
    cases hk
  obtain ⟨id, site, upgradable, request, turns, stages, phase⟩ := g
  cases phase with
  | live t =>
    cases hhandle
    obtain ⟨hid, hin | ⟨-, hdeparted⟩⟩ := ho
    · exact ⟨t, rfl, rfl, hin.there⟩
    · obtain ⟨report, hleft⟩ := hdeparted.left
      exact (hgone hid hleft).elim
  | swept t d =>
    obtain ⟨hid, hfinished⟩ := ho
    obtain ⟨report, hleft⟩ := hfinished.left
    exact (hgone hid hleft).elim
  | refused => exact ho.elim
  | asking | answered | unopened => cases hhandle
  | joining | acting | leaving | ended => exact hr.elim

/-- What a session can be brought to, its guest can do. -/
theorem exists_of_brings {cfg : HubSettings} {now : Time} {w w' : World}
    (hb : s.Brings cfg now w s' w') (hg : g.resting? = some s) :
    ∃ g', g'.id = g.id ∧ g'.AtRest ∧ g'.resting? = some s' ∧ Reaches cfg now g w g' w' := by
  obtain ⟨turns, stages, hreaches⟩ := hb g
  rw [← eq_live hg] at hreaches
  exact ⟨{ g with turns := turns, stages := stages, phase := .live s' }, rfl, trivial, rfl,
    hreaches⟩

/-- A session that is over is swept, and its guest has none any more. -/
theorem exists_of_farewell (cfg : HubSettings) (now : Time) (w : World)
    (hg : g.resting? = some s) :
    ∃ g', g'.id = g.id ∧ g'.AtRest ∧ g'.resting? = (Server.farewell s w).1 ∧
      Reaches cfg now g w g' (Server.farewell s w).2 := by
  unfold Server.farewell
  cases hover : s.over? with
  | none => exact exists_of_brings (.refl s w) hg
  | some d =>
    obtain ⟨hleft, -⟩ := left_of_over hover
    have hproceed : ({ g with phase := .live s } : Guest).act cfg now .proceed w
        = (Guest.finished { g with phase := .live s } s d, w) := by
      show Guest.proceed cfg now { g with phase := .live s } w = _
      unfold Guest.proceed
      simp only [hleft, hover]
      cases s.reading <;> rfl
    refine ⟨{ g with phase := .swept s d, stages := g.stages ++ [s.stage.advance .closed] },
      rfl, trivial, rfl, ?_⟩
    rw [eq_live hg]
    refine .head .proceed ?_
    rw [hproceed]
    exact .act .sweep _ w

end Guest

/-! ## Runs of a venue -/

namespace Venue

variable {cfg : HubSettings} {v : Venue}

theorem run_append (v : Venue) (moves moves' : List Move) :
    v.run cfg (moves ++ moves') = (v.run cfg moves).run cfg moves' := List.foldl_append

/-- What a guest can do, it can do in its venue. -/
theorem exists_run_of_reaches {now : Time} {g g' : Guest} {w w' : World} {i : Nat}
    (hr : Guest.Reaches cfg now g w g' w') (hnow : v.now = now) (hw : v.world = w)
    (hg : v.guests[i]? = some g) :
    ∃ moves, (v.run cfg moves).guests = v.guests.set i g' ∧ (v.run cfg moves).world = w' ∧
      (v.run cfg moves).now = now := by
  induction hr generalizing v with
  | refl =>
    refine ⟨[], ?_, hw, hnow⟩
    obtain ⟨hi, rfl⟩ := List.getElem?_eq_some_iff.mp hg
    exact (List.set_getElem_self hi).symm
  | @head g g' w w' a rest ih =>
    have hact : v.apply cfg (.act i a)
        = v.put i (g.act cfg now a w).1 (g.act cfg now a w).2 (Guest.sends a g w) := by
      show v.act cfg i a = _
      unfold Venue.act
      rw [hg, hnow, hw]
    obtain ⟨hi, -⟩ := List.getElem?_eq_some_iff.mp hg
    obtain ⟨moves, hguests, hworld, hlater⟩ :=
      ih (v := v.put i (g.act cfg now a w).1 (g.act cfg now a w).2 (Guest.sends a g w)) hnow rfl
        (List.getElem?_set_self hi)
    have hrun : v.run cfg (.act i a :: moves)
        = (v.put i (g.act cfg now a w).1 (g.act cfg now a w).2 (Guest.sends a g w)).run
            cfg moves := by
      rw [← hact]
      rfl
    refine ⟨.act i a :: moves, ?_⟩
    rw [hrun]
    refine ⟨?_, hworld, hlater⟩
    rw [hguests]
    exact List.set_set _

/-- So it stands where it stood, between the others. -/
theorem exists_run_between {now : Time} {g g' : Guest} {w' : World} {before after : List Guest}
    (hr : Guest.Reaches cfg now g v.world g' w') (hnow : v.now = now)
    (hguests : v.guests = before ++ g :: after) :
    ∃ moves, (v.run cfg moves).guests = before ++ g' :: after ∧ (v.run cfg moves).world = w' ∧
      (v.run cfg moves).now = now := by
  have hget : v.guests[before.length]? = some g := by
    rw [hguests]
    simp
  obtain ⟨moves, hafter, hworld, hnow'⟩ := exists_run_of_reaches hr hnow rfl hget
  refine ⟨moves, ?_, hworld, hnow'⟩
  rw [hafter, hguests]
  simp

/-- A pass over the sessions is a run in which the guests that have them act in turn. -/
theorem exists_run_pass {now : Time} {f : Session → World → Option Session × World}
    (hf : ∀ g s w, Guest.resting? g = some s → ∃ g', g'.id = g.id ∧ g'.AtRest ∧
      g'.resting? = (f s w).1 ∧ Guest.Reaches cfg now g w g' (f s w).2)
    (guests before : List Guest) (hnow : v.now = now) (hguests : v.guests = before ++ guests)
    (hrest : ∀ g ∈ guests, g.AtRest) :
    ∃ moves guests', (v.run cfg moves).guests = before ++ guests' ∧
      (v.run cfg moves).now = now ∧
      (guests'.filterMap (·.resting?), (v.run cfg moves).world)
        = Server.pass f (guests.filterMap (·.resting?)) v.world ∧
      (∀ g ∈ guests', g.AtRest) ∧ guests'.map (·.id) = guests.map (·.id) := by
  -- on the guests whose turn is yet to come; those before them have had theirs
  induction guests generalizing v before with
  | nil => exact ⟨[], [], hguests, hnow, rfl, fun g hg => (nomatch hg), rfl⟩
  | cons g guests ih =>
    have hlater : ∀ g ∈ guests, g.AtRest := fun u hu => hrest u (List.mem_cons_of_mem g hu)
    cases hg : g.resting? with
    | none =>
      -- a guest without a session waits
      obtain ⟨moves, guests', heq, hnow', hpass, hrest', hids⟩ :=
        ih (before ++ [g]) hnow (by rw [hguests, List.append_assoc]; rfl) hlater
      refine ⟨moves, g :: guests', ?_, hnow', ?_, ?_, ?_⟩
      · rw [heq, List.append_assoc]
        rfl
      · rw [List.filterMap_cons_none hg, List.filterMap_cons_none hg, hpass]
      · intro u hu
        rcases List.mem_cons.mp hu with rfl | hu
        · exact hrest u List.mem_cons_self
        · exact hrest' u hu
      · rw [List.map_cons, List.map_cons, hids]
    | some s =>
      obtain ⟨g', hid, hatRest, hresting, hreaches⟩ := hf g s v.world hg
      obtain ⟨first, hguests₁, hworld₁, hnow₁⟩ := exists_run_between hreaches hnow hguests
      obtain ⟨moves, guests', heq, hnow', hpass, hrest', hids⟩ :=
        ih (v := v.run cfg first) (before ++ [g']) hnow₁
          (by rw [hguests₁, List.append_assoc]; rfl) hlater
      refine ⟨first ++ moves, g' :: guests', ?_⟩
      rw [run_append]
      refine ⟨?_, hnow', ?_, ?_, ?_⟩
      · rw [heq, List.append_assoc]
        rfl
      · -- the pass goes on from the world that the first act left
        rw [hworld₁] at hpass
        rw [List.filterMap_cons_some hg]
        unfold Server.pass
        rw [← hpass, ← hresting]
        cases hr : g'.resting? with
        | none => rw [List.filterMap_cons_none hr]; rfl
        | some t => rw [List.filterMap_cons_some hr]; rfl
      · intro u hu
        rcases List.mem_cons.mp hu with rfl | hu
        · exact hatRest
        · exact hrest' u hu
      · rw [List.map_cons, List.map_cons, hids, hid]

/-! ## Serving -/

/-- A venue whose guests have the sessions of a server, in the same world at the same
time. -/
structure Serves (v : Venue) (s : Server) : Prop where
  world : v.world = s.world
  now : v.now = s.now
  sessions : v.guests.filterMap (·.resting?) = s.sessions
  atRest : ∀ g ∈ v.guests, g.AtRest

/-- A venue can go on to serve a server, with new guests of the given identifiers. -/
def GoesOn (cfg : HubSettings) (v : Venue) (ids : List ConnectionId) (s : Server) : Prop :=
  ∃ moves, (v.run cfg moves).Serves s ∧
    (v.run cfg moves).guests.map (·.id) = v.guests.map (·.id) ++ ids

variable {s s' : Server}

theorem Serves.goesOn (hv : v.Serves s) : GoesOn cfg v [] s :=
  ⟨[], hv, (List.append_nil _).symm⟩

/-- A venue that can go on to serve a server, and from there the next one, can go on to serve
that. -/
theorem GoesOn.trans {ids ids' : List ConnectionId} (hg : GoesOn cfg v ids s)
    (hnext : ∀ v', Serves v' s → v'.guests.map (·.id) = v.guests.map (·.id) ++ ids →
      GoesOn cfg v' ids' s') : GoesOn cfg v (ids ++ ids') s' := by
  obtain ⟨moves, hserves, heq⟩ := hg
  obtain ⟨later, hserves', heq'⟩ := hnext _ hserves heq
  refine ⟨moves ++ later, ?_⟩
  rw [run_append]
  exact ⟨hserves', by rw [heq', heq, List.append_assoc]⟩

/-- A venue goes on with a server that makes a pass over its sessions. -/
theorem Serves.pass (hv : v.Serves s) {f : Session → World → Option Session × World}
    (hf : ∀ g t w, Guest.resting? g = some t → ∃ g', g'.id = g.id ∧ g'.AtRest ∧
      g'.resting? = (f t w).1 ∧ Guest.Reaches cfg s.now g w g' (f t w).2) :
    GoesOn cfg v []
      { s with
        sessions := (Server.pass f s.sessions s.world).1
        world := (Server.pass f s.sessions s.world).2 } := by
  obtain ⟨moves, guests', heq, hnow, hpass, hrest, hids⟩ :=
    exists_run_pass hf v.guests [] hv.now rfl hv.atRest
  rw [hv.sessions, hv.world] at hpass
  replace heq : (v.run cfg moves).guests = guests' := heq
  refine ⟨moves, ⟨?_, hnow, ?_, ?_⟩, ?_⟩
  · exact (Prod.mk.inj hpass).2
  · rw [heq]
    exact (Prod.mk.inj hpass).1
  · rw [heq]
    exact hrest
  · rw [heq, hids, List.append_nil]

/-- So it does when every session is brought to another state. -/
theorem Serves.each (hv : v.Serves s) {f : Session → World → Session × World}
    (hf : ∀ (t : Session) (w : World), t.Brings cfg s.now w (f t w).1 (f t w).2) :
    GoesOn cfg v []
      { s with
        sessions := (Server.each f s.sessions s.world).1
        world := (Server.each f s.sessions s.world).2 } := by
  rw [Server.each_eq_pass]
  exact hv.pass fun g t w hg => Guest.exists_of_brings (hf t w) hg

/-- A round of the server is a run of the venue. -/
theorem Serves.round (hv : v.Serves s) : GoesOn s.setup.settings v [] s.round := by
  have hread := hv.each (f := Session.readAll s.setup.settings s.now)
    fun t w => Session.brings_readWithin s.setup.settings s.now _ t w
  refine hread.trans fun v₁ hv₁ _ => ?_
  have hwrite := hv₁.each (f := Session.writeAll s.setup.settings s.now)
    fun t w => Session.brings_writeWithin s.setup.settings s.now _ t w
  refine hwrite.trans fun v₂ hv₂ _ => ?_
  exact hv₂.each (f := Session.leaveIfDone)
    fun t w => Session.brings_leaveIfDone s.setup.settings s.now t w

/-- What a client does to its socket is a run of the venue. -/
theorem Serves.onSocket (hv : v.Serves s) (id : ConnectionId)
    (f : WebSocket.Socket → WebSocket.Socket) : GoesOn cfg v [] (s.onSocket id f) := by
  have hlink : ∀ (t : Session) (w : World), t.Brings cfg s.now w
      (if t.handle.id = id then { t with socket := f t.socket } else t) w := by
    intro t w
    split
    next => exact Session.brings_link _ t w
    next => exact .refl t w
  have heach := hv.each
    (f := fun t w => (if t.handle.id = id then { t with socket := f t.socket } else t, w)) hlink
  rw [Server.each_eq_map] at heach
  exact heach

/-- The departure of the sessions that are over is a run of the venue. -/
theorem Serves.depart (hv : v.Serves s) : GoesOn cfg v [] s.depart.2 := by
  have hpass := hv.pass fun g t w hg => Guest.exists_of_farewell cfg s.now w hg
  rw [← Server.depart_eq_pass] at hpass
  exact hpass

/-! ## Whatever is asked of a server -/

/-- A new guest comes, and does something until it is at rest. -/
theorem Serves.welcome (hv : v.Serves s) {id : ConnectionId} {site : Http.Site}
    {upgradable : Bool} {req : Http.Request} {g : Guest} {w : World} {sessions : List Session}
    (hr : Guest.Reaches cfg s.now (.fresh id site upgradable req) s.world g w)
    (hnew : ∀ g ∈ v.guests, g.id ≠ id) (hid : g.id = id) (hrest : g.AtRest)
    (hsessions : s.sessions ++ g.resting?.toList = sessions) :
    GoesOn cfg v [id] { s with world := w, sessions := sessions } := by
  have hnone : v.guests.any (·.id = id) = false := by
    rw [List.any_eq_false]
    intro u hu
    simpa using hnew u hu
  have hcome : v.apply cfg (.request id site upgradable req)
      = { v with guests := v.guests ++ [.fresh id site upgradable req] } := by
    show (if v.guests.any (·.id = id) then v else _) = _
    rw [hnone]
    rfl
  obtain ⟨moves, hguests, hworld, hnow⟩ :=
    exists_run_of_reaches (v := { v with guests := v.guests ++ [.fresh id site upgradable req] })
      (i := v.guests.length) hr hv.now hv.world (by simp)
  have hlast : (v.guests ++ [Guest.fresh id site upgradable req]).set v.guests.length g
      = v.guests ++ [g] := by simp
  rw [hlast] at hguests
  rw [← hcome] at hguests hworld hnow
  refine ⟨.request id site upgradable req :: moves, ⟨hworld, hnow, ?_, ?_⟩, ?_⟩
  · show ((v.apply cfg _).run cfg moves).guests.filterMap _ = sessions
    rw [hguests, List.filterMap_append, hv.sessions, ← hsessions]
    cases hg : g.resting? with
    | none => rw [List.filterMap_cons_none hg]; rfl
    | some t => rw [List.filterMap_cons_some hg]; rfl
  · show ∀ u ∈ ((v.apply cfg _).run cfg moves).guests, u.AtRest
    rw [hguests]
    intro u hu
    rcases List.mem_append.mp hu with hu | hu
    · exact hv.atRest u hu
    · rw [List.mem_singleton.mp hu]
      exact hrest
  · show ((v.apply cfg _).run cfg moves).guests.map _ = _
    rw [hguests, List.map_append, List.map_singleton, hid]

/-- A request that is answered, or granted a socket, is a run of the venue with one new guest. -/
theorem Serves.connect (hv : v.Serves s) {id : ConnectionId} (req : Http.Request)
    (hnew : ∀ g ∈ v.guests, g.id ≠ id) :
    GoesOn s.setup.settings v [id] (s.connect id req).2 := by
  obtain ⟨turns, hanswer⟩ :=
    Guest.reaches_answer s.setup.settings s.now id s.setup.site true req s.world
  have hreads := (Http.reads_answer s.setup.site true req).run_snd s.world
  unfold Server.connect
  rcases hrun : (Http.answer s.setup.site true req).run s.world with ⟨reply, w⟩
  rw [hrun] at hanswer hreads
  cases hreads
  cases reply with
  | response r => exact hv.welcome hanswer hnew rfl trivial (List.append_nil _)
  | upgrade room who =>
    show GoesOn s.setup.settings v [id] (s.openSession id room who)
    unfold Server.openSession
    cases hcreate : Outbox.create? s.setup.settings.capacity with
    | none => exact hv.welcome hanswer hnew rfl trivial (List.append_nil _)
    | some o =>
      obtain ⟨turns', hjoin⟩ := Guest.reaches_join s.setup.settings s.now
        (k := ⟨id, room, who⟩) hcreate
        { Guest.fresh id s.setup.site true req with turns := turns } rfl s.world
      have hreach := hanswer.trans hjoin
      dsimp only at hreach ⊢
      generalize (Membership.join s.setup.settings.historyLimit ⟨id, room, who⟩).run
        { s.world with hub := s.world.hub.addOutbox id o } = outcome at hreach ⊢
      obtain ⟨joined, w⟩ := outcome
      have hend := hreach.trans (.act .proceed _ _)
      cases joined with
      | true =>
        show GoesOn s.setup.settings v [id]
          { s with
            world := w
            sessions := s.sessions ++ [Session.begin s.setup.settings s.now ⟨id, room, who⟩] }
        exact hv.welcome hend hnew rfl trivial rfl
      | false =>
        show GoesOn s.setup.settings v [id] { s with world := w }
        exact hv.welcome hend hnew rfl trivial (List.append_nil _)

end Venue

namespace Server

/-- What may be asked of a running server: by clients and those who would be clients, by the
clock, and by the owner of the rooms. -/
inductive Demand where
  | respond (req : Http.Request)
  | connect (id : ConnectionId) (req : Http.Request)
  | onSocket (id : ConnectionId) (f : WebSocket.Socket → WebSocket.Socket)
  | settle
  | depart
  | atTime (t : Time)
  | createRoom (room : RoomId)
  | addMember (room : RoomId) (user : UserId) (name : String)
  | persist (room : RoomId) (user : UserId) (draft : Draft)
  | announce (message : Message)
  | setOutage (outage : Outage)
  | setClock (clock : Instant)

/-- The identifier that a demand gives to a new connection. -/
def Demand.newId? : Demand → Option ConnectionId
  | connect id _ => some id
  | _ => none

/-- The server after a demand. -/
def meet : Demand → Server → Server
  | .respond req, s => (s.respond req).2
  | .connect id req, s => (s.connect id req).2
  | .onSocket id f, s => s.onSocket id f
  | .settle, s => s.settle
  | .depart, s => s.depart.2
  | .atTime t, s => s.atTime t
  | .createRoom r, s => s.onWorld fun w => { w with store := (w.store.createRoom r).2 }
  | .addMember r u name, s =>
    s.onWorld fun w => { w with store := (w.store.addMember r u name).2 }
  | .persist r u d, s => s.onWorld fun w => (w.perform (.persist r u d)).2
  | .announce m, s => s.onWorld fun w => (w.perform (.broadcast m.room (.chat m))).2
  | .setOutage o, s => s.onWorld fun w => { w with outage := o }
  | .setClock t, s => s.onWorld fun w => { w with clock := t }

/-- The server after a series of demands. -/
def run (demands : List Demand) (s : Server) : Server := demands.foldl (fun s d => meet d s) s

/-- A server that nobody was connected to, after a series of demands. -/
def opened (setup : ServerSetup) (seed : List Seed.Room) (clock : Instant) (outage : Outage)
    (demands : List Demand) : Server :=
  (start setup ⟨.empty, Store.ofSeed seed, clock, outage⟩).run demands

theorem respond_snd (req : Http.Request) (s : Server) : (s.respond req).2 = s := by
  have hreads := (Http.reads_answer s.setup.site false req).run_snd s.world
  show { s with world := ((Http.answer s.setup.site false req).run s.world).2 } = s
  rw [hreads]

theorem setup_connect (id : ConnectionId) (req : Http.Request) (s : Server) :
    (s.connect id req).2.setup = s.setup := by
  unfold connect
  rcases (Http.answer s.setup.site true req).run s.world with ⟨reply, w⟩
  cases reply with
  | response r => rfl
  | upgrade room who =>
    show (openSession id room who { s with world := w }).setup = s.setup
    unfold openSession
    split
    next => rfl
    next o _ =>
      dsimp only
      split <;> rfl

theorem setup_repeat (n : Nat) (s : Server) : (n.repeat (fun s => s.round) s).setup = s.setup := by
  induction n with
  | zero => rfl
  | succ n ih => exact ih

theorem setup_meet (d : Demand) (s : Server) : (meet d s).setup = s.setup := by
  cases d with
  | connect id req => exact setup_connect id req s
  | settle => exact setup_repeat _ s
  | respond | onSocket | depart | atTime | createRoom | addMember | persist | announce
  | setOutage | setClock => rfl

end Server

namespace Venue

variable {cfg : HubSettings} {v : Venue} {s : Server}

/-- Any number of rounds is a run of the venue. -/
theorem Serves.rounds (hv : v.Serves s) (n : Nat) :
    GoesOn s.setup.settings v [] (n.repeat (fun s => s.round) s) := by
  induction n with
  | zero => exact hv.goesOn
  | succ n ih =>
    have hlast : (n + 1).repeat (fun s => s.round) s = (n.repeat (fun s => s.round) s).round := by
      rw [Nat.repeat]
    rw [hlast]
    refine ih.trans fun v' hv' _ => ?_
    have hround := hv'.round
    rw [Server.setup_repeat] at hround
    exact hround

/-- A move that does to the world what the owner of the rooms does to the server's. -/
theorem Serves.onWorld (hv : v.Serves s) (f : World → World) (move : Move)
    (hmove : (v.apply cfg move).world = f v.world) (hnow : (v.apply cfg move).now = v.now)
    (hguests : (v.apply cfg move).guests = v.guests) : GoesOn cfg v [] (s.onWorld f) := by
  refine ⟨[move], ⟨?_, hnow.trans hv.now, ?_, ?_⟩, ?_⟩
  · show (v.apply cfg move).world = f s.world
    rw [hmove, hv.world]
  · show (v.apply cfg move).guests.filterMap _ = s.sessions
    rw [hguests, hv.sessions]
  · show ∀ g ∈ (v.apply cfg move).guests, g.AtRest
    rw [hguests]
    exact hv.atRest
  · show (v.apply cfg move).guests.map _ = _
    rw [hguests, List.append_nil]

/-- Whatever is asked of a server, a venue that serves it can go on to serve it. -/
theorem Serves.meet (hv : v.Serves s) (d : Server.Demand)
    (hnew : ∀ id, d.newId? = some id → ∀ g ∈ v.guests, g.id ≠ id) :
    GoesOn s.setup.settings v d.newId?.toList (Server.meet d s) := by
  cases d with
  | respond req =>
    show GoesOn _ v [] (s.respond req).2
    rw [Server.respond_snd]
    exact hv.goesOn
  | connect id req => exact hv.connect req (hnew id rfl)
  | onSocket id f => exact hv.onSocket id f
  | settle => exact hv.rounds s.roundsNeeded
  | depart => exact hv.depart
  | atTime t =>
    exact ⟨[.setNow t], ⟨hv.world, rfl, hv.sessions, hv.atRest⟩, (List.append_nil _).symm⟩
  | createRoom r =>
    exact hv.onWorld (fun w => { w with store := (w.store.createRoom r).2 }) (.createRoom r)
      rfl rfl rfl
  | addMember r u name =>
    exact hv.onWorld (fun w => { w with store := (w.store.addMember r u name).2 })
      (.addMember r u name) rfl rfl rfl
  | persist r u d =>
    exact hv.onWorld (fun w => (w.perform (.persist r u d)).2) (.persist r u d) rfl rfl rfl
  | announce m =>
    exact hv.onWorld (fun w => (w.perform (.broadcast m.room (.chat m))).2) (.announce m)
      rfl rfl rfl
  | setOutage o => exact hv.onWorld (fun w => { w with outage := o }) (.setOutage o) rfl rfl rfl
  | setClock t => exact hv.onWorld (fun w => { w with clock := t }) (.setClock t) rfl rfl rfl

/-- Any series of demands on the server is a run of the venue, with a new guest for each new
identifier. -/
theorem Serves.run (hv : v.Serves s) (demands : List Server.Demand)
    (hnew : (v.guests.map (·.id) ++ demands.filterMap Server.Demand.newId?).Nodup) :
    GoesOn s.setup.settings v (demands.filterMap Server.Demand.newId?) (s.run demands) := by
  induction demands generalizing v s with
  | nil => exact hv.goesOn
  | cons d demands ih =>
    have hids : (d :: demands).filterMap Server.Demand.newId?
        = d.newId?.toList ++ demands.filterMap Server.Demand.newId? := by
      cases hd : d.newId? with
      | none => rw [List.filterMap_cons_none hd]; rfl
      | some id => rw [List.filterMap_cons_some hd]; rfl
    rw [hids, ← List.append_assoc] at hnew
    rw [hids]
    have hfirst : GoesOn s.setup.settings v d.newId?.toList (Server.meet d s) := by
      refine hv.meet d fun id hid g hg heq => ?_
      -- identifiers are given once, so no guest has the one that is given now
      rw [hid] at hnew
      have hapart := (List.nodup_append.mp (List.nodup_append.mp hnew).1).2.2
      exact hapart g.id (List.mem_map_of_mem hg) id (List.mem_singleton.mpr rfl) heq
    refine hfirst.trans fun v' hv' heq => ?_
    have hlater := ih hv' (by rw [heq]; exact hnew)
    rw [Server.setup_meet] at hlater
    exact hlater

/-- A server that has served has a venue in which all is in order. -/
theorem exists_serving (setup : ServerSetup) (seed : List Seed.Room) (clock : Instant)
    (outage : Outage) {demands : List Server.Demand}
    (hnew : (demands.filterMap Server.Demand.newId?).Nodup) :
    ∃ v : Venue, v.Serves (Server.opened setup seed clock outage demands) ∧ v.Orderly ∧
      v.Vetted ∧ v.Discreet := by
  have hstart : (opening seed clock outage).Serves (Server.opened setup seed clock outage []) :=
    ⟨rfl, rfl, rfl, fun g hg => (nomatch hg)⟩
  obtain ⟨moves, hserves, -⟩ := hstart.run demands hnew
  have ho := orderly_opening seed clock outage
  refine ⟨_, hserves, orderly_run ho moves, vetted_run (fun g hg => by cases hg) moves, ?_⟩
  exact discreet_run ho (discreet_opening seed clock outage) moves

/-- Every session of the server is that of a guest. -/
theorem Serves.exists_guest (hv : v.Serves s) {t : Session} (ht : t ∈ s.sessions) :
    ∃ g ∈ v.guests, g.phase = .live t := by
  rw [← hv.sessions] at ht
  obtain ⟨g, hg, hresting⟩ := List.mem_filterMap.mp ht
  refine ⟨g, hg, ?_⟩
  rw [Guest.eq_live hresting]

end Venue

/-! ## What this says of a server -/

namespace Server

variable {setup : ServerSetup} {seed : List Seed.Room} {clock : Instant} {outage : Outage}
  {demands : List Demand} {c : ConnectionId} {k : Handle} {t : Session}

/-- The connections that a server has registered are those of its sessions that have not
left. -/
theorem registered_iff_session (hnew : (demands.filterMap Demand.newId?).Nodup) :
    (opened setup seed clock outage demands).world.hub.registry.connection? c = some k ↔
      ∃ t ∈ (opened setup seed clock outage demands).sessions,
        t.handle = k ∧ k.id = c ∧ t.left = false := by
  obtain ⟨v, hv, ho, -, -⟩ := Venue.exists_serving setup seed clock outage hnew
  rw [← hv.world]
  constructor
  · intro hk
    obtain ⟨g, hg, rfl, hhandle⟩ := ho.holds hk
    obtain ⟨t, hp, heq, hthere⟩ := (hv.atRest g hg).live_of_registered (ho.inOrder g hg) hk
    refine ⟨t, ?_, heq, (ho.inOrder g hg).handle_id hhandle, hthere⟩
    rw [← hv.sessions]
    refine List.mem_filterMap.mpr ⟨g, hg, ?_⟩
    unfold Guest.resting?
    rw [hp]
  · intro hsession
    obtain ⟨t, ht, rfl, rfl, hthere⟩ := hsession
    obtain ⟨g, hg, hp⟩ := hv.exists_guest ht
    have hinOrder := ho.inOrder g hg
    unfold Guest.InOrder at hinOrder
    rw [hp] at hinOrder
    obtain ⟨-, hin | ⟨hleft, -⟩⟩ := hinOrder
    · exact hin.inside.registered
    · rw [hthere] at hleft
      cases hleft

/-- A server without sessions has nothing registered and counts nobody. -/
theorem empty_of_sessions_eq_nil (hnew : (demands.filterMap Demand.newId?).Nodup)
    (hnone : (opened setup seed clock outage demands).sessions = []) :
    (opened setup seed clock outage demands).world.hub.registry = .empty ∧
      (opened setup seed clock outage demands).world.hub.calls = .empty := by
  have hi : (opened setup seed clock outage demands).world.hub.InStep := by
    obtain ⟨v, hv, ho, -, -⟩ := Venue.exists_serving setup seed clock outage hnew
    rw [← hv.world]
    exact ho.inStep
  refine hi.eq_empty fun c => ?_
  cases hc : (opened setup seed clock outage demands).world.hub.registry.connection? c with
  | none => rfl
  | some k =>
    obtain ⟨t, ht, -⟩ := (registered_iff_session hnew).mp hc
    rw [hnone] at ht
    cases ht

/-- Each session is that of a member of its room, and all messages that wait for it are of
that room. -/
theorem session_of_member (hnew : (demands.filterMap Demand.newId?).Nodup)
    (ht : t ∈ (opened setup seed clock outage demands).sessions) :
    (opened setup seed clock outage demands).world.store.isMember t.handle.room
        t.handle.participant.user = true ∧
      ∀ o, (opened setup seed clock outage demands).world.hub.outboxes[t.handle.id]? = some o →
        ∀ e ∈ o.queue, e.IsAbout t.handle.room := by
  obtain ⟨v, hv, ho, hvetted, hdiscreet⟩ := Venue.exists_serving setup seed clock outage hnew
  rw [← hv.world]
  obtain ⟨g, hg, hp⟩ := hv.exists_guest ht
  obtain ⟨hguest, htold⟩ := hvetted g hg
  have hhandle : g.phase.handle? = some t.handle := by
    rw [hp]
    rfl
  refine ⟨((hguest.admitted _ hhandle).2.isTrue htold).2, fun o hget e he => ?_⟩
  obtain ⟨k, ⟨u, hu, hid, hk⟩, habout⟩ := hdiscreet.about _ e (hdiscreet.queued _ o hget e he)
  -- the guest who got the event is the one whose session this is
  have hsame : u = g := ho.eq_of_id hg hu (hid.trans ((ho.inOrder g hg).handle_id hhandle))
  rw [hsame, hhandle] at hk
  cases hk
  exact habout

end Server

end RoomHub
