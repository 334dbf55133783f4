import RoomHub.Proofs.Venue.Order

/-!
# Who gets a socket

A socket is granted to a request only after every check: its token proves who is asking,
its path names a room, and the store says that the room exists and has that member. The
checks are read off the path through the program that answers the request (`answer_done`).
They stay true afterwards because rooms and members are only ever added (`Turn.IsTrue.mono`).

> `vetted_run`: after any run, whoever has a handle was admitted under it, and what the
> store ever confirmed to a guest is still so.
-/

namespace RoomHub

open Program (done)

/-! ## The checks of a request -/

/-- A request shows a token that proves an identity, and asks for the socket of a room. -/
structure Http.Shows (site : Http.Site) (req : Http.Request) (r : RoomId) (who : Participant) :
    Prop where
  token : ∃ t, Http.queryField? (Http.queryOf req.target) "token" = some (some t) ∧
    site.verify t = .ok who
  room : ∃ path text, Http.Route.ofPath? (Http.pathOf req.target) = some (.socket path) ∧
    Http.parameter? path = some text ∧ RoomId.parse text = .ok r

/-- The store was asked whether a room exists and has a member, and said yes to both. -/
def Confirmed (r : RoomId) (u : UserId) (turns : List Turn) : Prop :=
  (⟨.roomExists r, .ok true⟩ : Turn) ∈ turns ∧ (⟨.isMember r u, .ok true⟩ : Turn) ∈ turns

theorem Confirmed.mono {r : RoomId} {u : UserId} {turns turns' : List Turn}
    (hc : Confirmed r u turns) (hsub : turns ⊆ turns') : Confirmed r u turns' :=
  ⟨hsub hc.1, hsub hc.2⟩

/-- An identity is the one that a token proves. -/
theorem Access.authenticate_eq_ok {verify : Verifier} {token : Option String}
    {who : Participant} (h : authenticate verify token = .ok who) :
    ∃ t, token = some t ∧ verify t = .ok who := by
  unfold authenticate at h
  split at h
  next => cases h
  next t ht =>
    have htoken : token = some t := (Option.filter_eq_some_iff.mp ht).1
    split at h
    next who' hwho =>
      cases h
      exact ⟨t, htoken, hwho⟩
    next => cases h

section Paths

variable {verify : Verifier} {req : Http.Request} {room : String} {r : RoomId}
  {who : Participant} {turns : List Turn}

/-- An authorization that succeeds has asked both questions and got yes to both. -/
theorem Program.Path.authorize_done
    (hp : (Access.authorize who r).Path turns (done (.ok ()))) : Confirmed r who.user turns := by
  rw [Access.authorize_eq] at hp
  -- an answer other than yes to either question is followed by a refusal
  obtain ⟨there, rest, rfl, hp₁⟩ := hp.step_inv
  rcases there with _ | _ | _
  · cases hp₁.done_inv.2
  · cases hp₁.done_inv.2
  · obtain ⟨member, rest, rfl, hp₂⟩ := hp₁.step_inv
    rcases member with _ | _ | _
    · cases hp₂.done_inv.2
    · cases hp₂.done_inv.2
    · exact ⟨List.mem_cons_self, List.mem_cons_of_mem _ List.mem_cons_self⟩

/-- A request is authorized by a token that proves an identity, and a path that names a room of
which the store confirms the identity as a member. -/
theorem Program.Path.authorizeRequest_done {token : Option String}
    (hp : (Http.authorizeRequest verify token room).Path turns (done (.ok (who, r)))) :
    (∃ t, token = some t ∧ verify t = .ok who) ∧ RoomId.parse room = .ok r ∧
      Confirmed r who.user turns := by
  unfold Http.authorizeRequest at hp
  split at hp
  next => cases hp.done_inv.2
  next who' hwho =>
    split at hp
    next => cases hp.done_inv.2
    next r' hr =>
      obtain ⟨first, second, granted, rfl, hfirst, hsecond⟩ := hp.bind_inv
      cases granted with
      | error e => cases hsecond.done_inv.2
      | ok u =>
        obtain ⟨rfl, heq⟩ := hsecond.done_inv
        cases heq
        rw [List.append_nil]
        exact ⟨Access.authenticate_eq_ok hwho, hr, hfirst.authorize_done⟩

/-- A socket is granted only where the path names a room. -/
theorem Program.Path.withRoom_done {f : String → Program Http.Reply}
    (hp : (Http.withRoom room f).Path turns (done (.upgrade r who))) :
    ∃ text, Http.parameter? room = some text ∧ (f text).Path turns (done (.upgrade r who)) := by
  unfold Http.withRoom at hp
  split at hp
  next text htext => exact ⟨text, htext, hp⟩
  next => cases hp.done_inv.2

/-- The socket route grants a socket to the identity that the token proves, for the room that the
path names, if the store confirms both. -/
theorem Program.Path.socket_done {upgradable : Bool}
    (hp : (Http.socket verify upgradable req room).Path turns (done (.upgrade r who))) :
    (∃ t, Http.queryField? (Http.queryOf req.target) "token" = some (some t) ∧
      verify t = .ok who) ∧
    (∃ text, Http.parameter? room = some text ∧ RoomId.parse text = .ok r) ∧
    Confirmed r who.user turns := by
  unfold Http.socket at hp
  split at hp
  next => cases hp.done_inv.2
  next =>
    obtain ⟨text, htext, hp⟩ := hp.withRoom_done
    split at hp
    next => cases hp.done_inv.2
    next token htoken =>
      obtain ⟨first, second, granted, rfl, hfirst, hsecond⟩ := hp.bind_inv
      rcases granted with e | ⟨who', r'⟩
      · cases hsecond.done_inv.2
      · obtain ⟨rfl, heq⟩ := hsecond.done_inv
        cases heq
        rw [List.append_nil]
        obtain ⟨⟨t, rfl, hverify⟩, hroom, hconfirmed⟩ := hfirst.authorizeRequest_done
        exact ⟨⟨t, htoken, hverify⟩, ⟨text, htext, hroom⟩, hconfirmed⟩

/-- The lists of people never lead to a socket. -/
theorem not_path_presence :
    ¬(Http.presence verify req room).Path turns (done (.upgrade r who)) := by
  intro hp
  obtain ⟨first, second, granted, rfl, -, hsecond⟩ := hp.bind_inv
  -- whatever comes of the checks, the reply is a response
  cases granted with
  | error e => cases hsecond.done_inv.2
  | ok found =>
    obtain ⟨_, _, people, rfl, -, hlast⟩ := hsecond.bind_inv
    cases people <;> cases hlast.done_inv.2

/-- The list of a call is never answered with a socket. -/
theorem not_path_callParticipants :
    ¬(Http.callParticipants verify req room).Path turns (done (.upgrade r who)) := by
  intro hp
  obtain ⟨first, second, granted, rfl, -, hsecond⟩ := hp.bind_inv
  cases granted with
  | error e => cases hsecond.done_inv.2
  | ok found =>
    obtain ⟨_, _, people, rfl, -, hlast⟩ := hsecond.bind_inv
    cases hlast.done_inv.2

/-- Only the socket route grants a socket. -/
theorem Program.Path.route_done {upgradable : Bool} {route : Http.Route}
    (hp : (route.answer verify upgradable req).Path turns (done (.upgrade r who))) :
    ∃ path, route = .socket path ∧
      (Http.socket verify upgradable req path).Path turns (done (.upgrade r who)) := by
  cases route with
  | socket path => exact ⟨path, rfl, hp⟩
  | health => cases hp.done_inv.2
  | presence path =>
    obtain ⟨text, -, hp⟩ := hp.withRoom_done
    exact absurd hp not_path_presence
  | callParticipants path =>
    obtain ⟨text, -, hp⟩ := hp.withRoom_done
    exact absurd hp not_path_callParticipants

/-- An answer that grants a socket comes from the answer of the resource. -/
theorem Program.Path.answerPlain_done {site : Http.Site} {upgradable : Bool}
    (hp : (Http.answerPlain site upgradable req).Path turns (done (.upgrade r who))) :
    ∃ route, Http.Route.ofPath? (Http.pathOf req.target) = some route ∧
      (route.answer site.verify upgradable req).Path turns (done (.upgrade r who)) := by
  unfold Http.answerPlain at hp
  split at hp
  next => cases hp.done_inv.2
  next route hroute =>
    split at hp
    next => exact ⟨route, hroute, hp⟩
    next =>
      split at hp
      next =>
        obtain ⟨first, second, reply, rfl, hfirst, hsecond⟩ := hp.bind_inv
        cases reply with
        | response => cases hsecond.done_inv.2
        | upgrade r' who' =>
          obtain ⟨rfl, heq⟩ := hsecond.done_inv
          cases heq
          rw [List.append_nil]
          exact ⟨route, hroute, hfirst⟩
      next => cases hp.done_inv.2

/-- A request that was granted a socket has passed every check. -/
theorem Program.Path.answer_done {site : Http.Site} {upgradable : Bool}
    (hp : (Http.answer site upgradable req).Path turns (done (.upgrade r who))) :
    Http.Shows site req r who ∧ Confirmed r who.user turns := by
  unfold Http.answer at hp
  split at hp
  next => cases hp.done_inv.2
  next =>
    obtain ⟨first, second, reply, rfl, hfirst, hsecond⟩ := hp.bind_inv
    cases reply with
    | response => cases hsecond.done_inv.2
    | upgrade r' who' =>
      obtain ⟨rfl, heq⟩ := hsecond.done_inv
      cases heq
      rw [List.append_nil]
      obtain ⟨route, hroute, hp⟩ := hfirst.answerPlain_done
      obtain ⟨path, rfl, hp⟩ := hp.route_done
      obtain ⟨htoken, ⟨text, htext, hroom⟩, hconfirmed⟩ := hp.socket_done
      exact ⟨⟨htoken, path, text, hroute, htext, hroom⟩, hconfirmed⟩

end Paths

/-! ## What the store has confirmed stays true -/

/-- A room or a member that an answer speaks of is in a store. -/
def Turn.IsTrue (s : Store) : Turn → Prop
  | ⟨.roomExists r, .ok true⟩ => s.roomExists r = true
  | ⟨.isMember r u, .ok true⟩ => s.isMember r u = true
  | _ => True

section Truth

variable {s s' : Store} {turn : Turn} {w : World}

theorem Turn.IsTrue.mono (ht : turn.IsTrue s) (hgrows : s.Grows s') : turn.IsTrue s' := by
  unfold IsTrue at ht ⊢
  split
  next r => exact hgrows.rooms r ht
  next r u => exact hgrows.members r u ht
  next => trivial

/-- An answer that came through is the store's own. -/
theorem World.ask_eq_ok {α : Type} {m : StoreMethod} {answer : Except StoreError α} {a : α}
    (h : w.ask m answer = .ok a) : answer = .ok a := by
  unfold ask at h
  split at h
  next => cases h
  next => exact h

/-- Whatever the store answers is true of it. -/
theorem World.isTrue_perform (op : Operation) (w : World) :
    Turn.IsTrue w.store ⟨op, (w.perform op).1⟩ := by
  cases op with
  | roomExists r =>
    cases hanswer : (w.perform (.roomExists r)).1 with
    | error e => exact trivial
    | ok there =>
      cases there with
      | false => exact trivial
      | true => exact Except.ok.inj (World.ask_eq_ok hanswer)
  | isMember r u =>
    cases hanswer : (w.perform (.isMember r u)).1 with
    | error e => exact trivial
    | ok member =>
      cases member with
      | false => exact trivial
      | true => exact Except.ok.inj (World.ask_eq_ok hanswer)
  | _ => exact trivial

/-- Where answers are true, what was confirmed is so: the room exists, and the user is a member of
it. -/
theorem Confirmed.isTrue {r : RoomId} {u : UserId} {turns : List Turn}
    (hc : Confirmed r u turns) (ht : ∀ turn ∈ turns, turn.IsTrue s) :
    s.roomExists r = true ∧ s.isMember r u = true :=
  ⟨ht _ hc.1, ht _ hc.2⟩

end Truth

/-! ## Every guest -/

namespace Guest

variable {cfg : HubSettings} {now : Time} {g g' : Guest} {w w' : World} {sent : List Sending}
  {k : Handle}

/-- A handle is for a person and a room that a guest's request was admitted with. -/
def Admitted (g : Guest) (k : Handle) : Prop :=
  Http.Shows g.site g.request k.room k.participant ∧ Confirmed k.room k.participant.user g.turns

/-- A request that is being answered is on its path, and whoever has a handle was admitted
under it. -/
structure Vetted (g : Guest) : Prop where
  asking : ∀ rest, g.phase = .asking rest →
    (Http.answer g.site g.upgradable g.request).Path g.turns rest
  admitted : ∀ k, g.phase.handle? = some k → g.Admitted k

theorem Admitted.took {op : Operation} {next : op.Answer → Phase} {answer : op.Answer}
    (ha : g.Admitted k) : (g.took op next answer).Admitted k := by
  refine ⟨ha.1, ha.2.mono ?_⟩
  exact List.subset_append_left g.turns _

/-- A guest who keeps its request, what it did and its handle stays vetted. -/
theorem Vetted.of_handle? (hv : g.Vetted) (hsite : g'.site = g.site)
    (hrequest : g'.request = g.request) (hturns : g'.turns = g.turns)
    (hasked : ∀ rest, g'.phase ≠ .asking rest)
    (hhandle : g'.phase.handle? = g.phase.handle?) : g'.Vetted where
  asking rest hp := absurd hp (hasked rest)
  admitted k hk := by
    rw [hhandle] at hk
    unfold Admitted
    rw [hsite, hrequest, hturns]
    exact hv.admitted k hk

/-- A guest stays vetted when an operation is answered. -/
theorem vetted_took {op : Operation} {next : op.Answer → Phase} {answer : op.Answer}
    (hnext : g.phase.next? = some ⟨op, next⟩) (hv : g.Vetted) :
    (g.took op next answer).Vetted := by
  rcases Phase.next?_cases hnext with ⟨f, hp, rfl⟩ | ⟨k, f, hp, rfl⟩ | ⟨s, f, hp, rfl⟩ |
    ⟨s, f, hp, rfl⟩
  · -- the path of the request grows by the operation and its answer
    refine ⟨fun rest hrest => ?_, fun k hk => by cases hk⟩
    have heq : f answer = rest := Phase.asking.inj hrest
    rw [← heq]
    exact (hv.asking _ hp).snoc rfl answer
  all_goals
    -- the handle is that of the phase before
    refine ⟨fun rest hrest => (nomatch hrest), fun j hj => Admitted.took (hv.admitted j ?_)⟩
    rw [hp]
    exact hj

theorem vetted_change (hc : g.Change cfg now w g' w' sent) (hv : g.Vetted) : g'.Vetted := by
  cases hc with
  | still => exact hv
  | tripped => exact hv
  | took hnext => exact vetted_took hnext hv
  | @opened r who o hp ho =>
    -- here the handle is made, out of a reply at the end of the path
    refine ⟨fun rest hrest => (nomatch hrest), fun k hk => ?_⟩
    cases hk
    exact (hv.asking _ hp).answer_done
  | @wrote s hp socket writing w' hw =>
    have hsession := Phase.session?_onSession
      (fun _ => { s with socket := socket, writing := writing }) hp
    refine hv.of_handle? rfl rfl rfl (fun rest hrest => ?_) ?_
    · replace hrest : g.phase.onSession _ = .asking rest := hrest
      rw [hrest] at hsession
      cases hsession
    · exact (Phase.handle?_of_session? hsession).trans (Phase.handle?_of_session? hp).symm
  | answered hp | unopened hp | joined hp | refused hp | heard hp | arrived hp | acted hp
  | drained hp | left hp | finished hp | swept hp =>
    refine hv.of_handle? rfl rfl rfl (fun rest hrest => (nomatch hrest)) ?_
    rw [hp]
    rfl

/-- What the store has confirmed to a guest is so. -/
def Told (s : Store) (g : Guest) : Prop := ∀ turn ∈ g.turns, turn.IsTrue s

theorem Told.mono {s s' : Store} (ht : g.Told s) (hgrows : s.Grows s') : g.Told s' :=
  fun turn hturn => (ht turn hturn).mono hgrows

theorem grows_change (hc : g.Change cfg now w g' w' sent) : w.store.Grows w'.store := by
  cases hc with
  | took => exact World.grows_perform _ w
  | wrote _ _ _ hw =>
    rcases hw with rfl | rfl
    · exact Store.Grows.refl _
    · exact Store.Grows.refl _
  | still | answered | unopened | opened | joined | refused | heard | arrived | acted | drained
  | left | finished | tripped | swept => exact Store.Grows.refl _

/-- What the store has confirmed to a guest is so after any act of it. -/
theorem told_change (hc : g.Change cfg now w g' w' sent) (ht : g.Told w.store) :
    g'.Told w'.store := by
  have hgrows := grows_change hc
  cases hc with
  | @took op next hnext =>
    intro turn hturn
    rcases List.mem_append.mp hturn with hold | hnew
    · exact (ht turn hold).mono hgrows
    · -- the answer is true when it is given, and stays so
      rw [List.mem_singleton.mp hnew]
      exact (World.isTrue_perform op w).mono hgrows
  | still | answered | unopened | opened | joined | refused | heard | arrived | acted | drained
  | left | finished | tripped | swept | wrote => exact ht.mono hgrows

end Guest

/-! ## Every run -/

namespace Venue

variable {cfg : HubSettings} {v v' : Venue}

/-- Whoever has a handle was admitted under it, and the store was right to confirm it. -/
def Vetted (v : Venue) : Prop := ∀ g ∈ v.guests, g.Vetted ∧ g.Told v.world.store

theorem grows_change (hc : Change cfg v v') : v.world.store.Grows v'.world.store := by
  cases hc with
  | begun => exact Store.Grows.refl _
  | acted hget hact => exact Guest.grows_change hact
  | stored => exact World.grows_perform _ v.world
  | announced => exact World.grows_perform _ v.world
  | around w now hhub hgrows => exact hgrows

theorem vetted_change (hv : Vetted v) (hc : Change cfg v v') : Vetted v' := by
  have hgrows := grows_change hc
  intro u hu
  cases hc with
  | begun id site upgradable request =>
    rcases List.mem_append.mp hu with hu | hu
    · exact hv u hu
    · rw [List.mem_singleton.mp hu]
      refine ⟨⟨fun rest hrest => ?_, fun k hk => by cases hk⟩, fun turn hturn => by cases hturn⟩
      cases hrest
      exact .nil
  | acted hget hact =>
    rcases mem_put hu with rfl | hu
    · obtain ⟨hvetted, htold⟩ := hv _ (List.mem_of_getElem? hget)
      exact ⟨Guest.vetted_change hact hvetted, Guest.told_change hact htold⟩
    · exact ⟨(hv u hu).1, (hv u hu).2.mono hgrows⟩
  | stored => exact ⟨(hv u hu).1, (hv u hu).2.mono hgrows⟩
  | announced => exact ⟨(hv u hu).1, (hv u hu).2.mono hgrows⟩
  | around => exact ⟨(hv u hu).1, (hv u hu).2.mono hgrows⟩

/-- Along any run, every guest stays vetted. -/
theorem vetted_run (hv : Vetted v) (moves : List Move) : Vetted (v.run cfg moves) :=
  run_induction hv (fun _ _ => vetted_change) moves

end Venue

end RoomHub
