import RoomHub.Proofs.Http.Verdict
import RoomHub.Proofs.Store.Ledger
import RoomHub.Proofs.Venue.Minutes

/-!
# Once a member, always a member

A caller is authorized once, when the request comes. Later the same store is asked to list
the members and to store what the caller writes, and both could be refused for want of the
room or of the member. They are not, as long as the store works: rooms and members are only
ever added, so a member stays one (`World.welcomes`).

A session stores what its client writes under the handle that it was admitted with, and a
list of people is read for the room that the caller was authorized for. So neither is ever
refused (`Minutes.Served`).

> `authorization_lasts`: all of this after any run without failures of the store.
-/

namespace RoomHub

open Program (done)

/-! ## What a store answers about a member -/

namespace Store

variable {s : Store} {r : RoomId} {u : UserId}

/-- Whatever is called, rooms and members stay. -/
theorem grows_handle (s : Store) (q : Request) : s.Grows (s.handle q).2 := by
  cases q with
  | createRoom r => exact grows_createRoom
  | addMember r u name => exact grows_addMember
  | persist now r u d => exact grows_persist
  | recentMessages | listMembers | roomExists | isMember => exact Grows.refl s

theorem grows_run (qs : List Request) (s : Store) : s.Grows (s.run qs).2 := by
  induction qs generalizing s with
  | nil => exact Grows.refl s
  | cons q qs ih => exact (s.grows_handle q).trans (ih (s.handle q).2)

/-- A member has a name, under which the list of members shows it. -/
theorem listed_of_isMember (h : s.isMember r u = true) :
    ∃ people name, s.listMembers r = .ok people ∧ ⟨u, name⟩ ∈ people := by
  rw [isMember_eq] at h
  obtain ⟨name, hname⟩ := Option.isSome_iff_exists.mp h
  obtain ⟨members, hthere, -⟩ := Option.bind_eq_some_iff.mp hname
  have hlist := listMembers_eq (s := s) (r := r)
  rw [hthere] at hlist
  exact ⟨_, name, hlist, (mem_listMembers hlist).mpr hname⟩

/-- A room with a member exists. -/
theorem roomExists_of_isMember (h : s.isMember r u = true) : s.roomExists r = true := by
  rw [isMember_eq] at h
  obtain ⟨name, hname⟩ := Option.isSome_iff_exists.mp h
  obtain ⟨members, hthere, -⟩ := Option.bind_eq_some_iff.mp hname
  rw [roomExists_eq, hthere]
  rfl

/-- A message of a member is stored. -/
theorem persist_of_isMember (h : s.isMember r u = true) (now : Instant) (d : Draft) :
    ∃ m, (s.persist now r u d).1 = .ok m := by
  obtain ⟨people, name, hlist, hmem⟩ := listed_of_isMember h
  exact ⟨_, persist_eq_ok_iff.mpr ⟨people, name, hlist, hmem, rfl⟩⟩

end Store

/-! ## What a world does for a member -/

section Members

variable {w : World} {r : RoomId} {u : UserId}

/-- Whatever is asked of the store about a user and a room, the answer is the one that a
member gets. -/
structure World.Welcomes (w : World) (r : RoomId) (u : UserId) : Prop where
  authorized : ∀ who : Participant, who.user = u →
    (Access.authorize who r).run w = (.ok (), w)
  listed : ∃ people, (w.perform (.listMembers r)).1 = .ok people ∧ ∃ p ∈ people, p.user = u
  stored : ∀ d, ∃ m, (w.perform (.persist r u d)).1 = .ok m ∧ m.user = u ∧
    m.content = d.content ∧ m ∈ (w.perform (.persist r u d)).2.store.messages r

/-- A store that works answers for itself. -/
theorem World.ask_of_undisturbed {α : Type} (hw : w.outage = .none) (method : StoreMethod)
    (answer : Except StoreError α) : w.ask method answer = answer := by
  unfold World.ask
  rw [hw]
  rfl

/-- A store that works stores what it is given, or refuses it for its own reasons. -/
theorem World.persist_of_undisturbed (hw : w.outage = .none) (r : RoomId) (u : UserId)
    (d : Draft) : (w.perform (.persist r u d)).1 = (w.store.persist w.clock r u d).1 := by
  simp only [World.perform, hw]
  rfl

/-- While the store works, its members are welcome. -/
theorem World.welcomes (hw : w.outage = .none) (hmember : w.store.isMember r u = true) :
    w.Welcomes r u where
  authorized who hwho := by
    have hexists : w.existence r = .ok true := by
      unfold World.existence
      rw [World.ask_of_undisturbed hw, Store.roomExists_of_isMember hmember]
    have hmembership : w.membership r who.user = .ok true := by
      unfold World.membership
      rw [World.ask_of_undisturbed hw, hwho, hmember]
    rw [Http.run_authorize, hexists, hmembership]
  listed := by
    obtain ⟨people, name, hlist, hmem⟩ := Store.listed_of_isMember hmember
    exact ⟨people, (World.ask_of_undisturbed hw _ _).trans hlist, _, hmem, rfl⟩
  stored d := by
    obtain ⟨m, hm⟩ := Store.persist_of_isMember hmember w.clock d
    have hanswer := (World.persist_of_undisturbed hw r u d).trans hm
    obtain ⟨⟨name, heq⟩, -⟩ := World.persist_eq_ok hanswer
    refine ⟨m, hanswer, ?_, ?_, (World.mem_messages_of_persist hanswer).1⟩ <;> rw [heq]

/-- Whoever was authorized is a member. -/
theorem World.isMember_of_authorized {who : Participant}
    (h : ((Access.authorize who r).run w).1 = .ok ()) :
    w.store.isMember r who.user = true := by
  rw [Http.run_authorize] at h
  split at h
  next => cases h
  next => cases h
  next =>
    split at h
    next => cases h
    next => cases h
    next hmember => exact Except.ok.inj (World.ask_eq_ok hmember)

/-! ## Turns -/

/-- An operation about a user and a room was answered as it is for a member. -/
def Turn.Favours (r : RoomId) (u : UserId) : Turn → Prop
  | ⟨.listMembers r', answer⟩ => r' = r → ∃ people, answer = .ok people
  | ⟨.persist r' u' _, answer⟩ => r' = r → u' = u → ∃ m, answer = .ok m
  | _ => True

/-- What comes after a user was found to be a member was answered accordingly. -/
def Steady (turns : List Turn) : Prop :=
  turns.Pairwise fun earlier later =>
    ∀ r u, earlier = ⟨.isMember r u, .ok true⟩ → later.Favours r u

/-- Where a member is welcome, every answer about the member is favourable. -/
theorem World.Welcomes.favours (h : w.Welcomes r u) (op : Operation) :
    Turn.Favours r u ⟨op, (w.perform op).1⟩ := by
  cases op with
  | listMembers r' =>
    rintro rfl
    obtain ⟨people, hpeople, -⟩ := h.listed
    exact ⟨people, hpeople⟩
  | persist r' u' d =>
    rintro rfl rfl
    obtain ⟨m, hm, -⟩ := h.stored d
    exact ⟨m, hm⟩
  | _ => exact trivial

/-- What was answered steadily goes on so with one more answer from a store that works. -/
theorem Steady.snoc {turns : List Turn} (hs : Steady turns)
    (htold : ∀ turn ∈ turns, turn.IsTrue w.store) (hw : w.outage = .none) (op : Operation) :
    Steady (turns ++ [⟨op, (w.perform op).1⟩]) := by
  refine List.pairwise_append.mpr ⟨hs, List.pairwise_singleton _ _, ?_⟩
  intro turn hturn later hlater
  rw [List.mem_singleton.mp hlater]
  rintro r u rfl
  exact (World.welcomes hw (htold _ hturn)).favours op

/-- After a user was found to be a member all answers about the user are favourable. -/
theorem Steady.favours {turns later : List Turn} (hs : Steady (turns ++ later))
    (hc : Confirmed r u turns) : ∀ turn ∈ later, turn.Favours r u :=
  fun turn hturn => (List.pairwise_append.mp hs).2.2 _ hc.2 turn hturn r u rfl

end Members

/-- The question that a turn answers with yes. -/
def Turn.affirmed? : Turn → Option Operation
  | ⟨.roomExists r, .ok true⟩ => some (.roomExists r)
  | ⟨.isMember r u, .ok true⟩ => some (.isMember r u)
  | _ => none

/-- A member was confirmed when both questions were answered with yes. -/
theorem confirmed_iff {r : RoomId} {u : UserId} {turns : List Turn} :
    Confirmed r u turns ↔ .roomExists r ∈ turns.filterMap Turn.affirmed? ∧
      .isMember r u ∈ turns.filterMap Turn.affirmed? := by
  have hyes : ∀ turn op, Turn.affirmed? turn = some op →
      (∀ r, op = .roomExists r → turn = ⟨.roomExists r, .ok true⟩) ∧
      ∀ r u, op = .isMember r u → turn = ⟨.isMember r u, .ok true⟩ := by
    intro turn op hop
    unfold Turn.affirmed? at hop
    split at hop <;> cases hop
    next => exact ⟨fun _ h => by cases h; rfl, fun _ _ h => (nomatch h)⟩
    next => exact ⟨fun _ h => (nomatch h), fun _ _ h => by cases h; rfl⟩
  simp only [List.mem_filterMap]
  constructor
  · exact fun h => ⟨⟨_, h.1, rfl⟩, ⟨_, h.2, rfl⟩⟩
  · rintro ⟨⟨there, hthere, hop⟩, ⟨member, hmember, hop'⟩⟩
    rw [(hyes there _ hop).1 r rfl] at hthere
    rw [(hyes member _ hop').2 r u rfl] at hmember
    exact ⟨hthere, hmember⟩

instance (r : RoomId) (u : UserId) (turns : List Turn) : Decidable (Confirmed r u turns) :=
  decidable_of_iff _ confirmed_iff.symm

/-! ## Requests -/

/-- Whoever answers a request, and finds on the way that it comes from a member, does not
refuse it. -/
def Http.Hospitable (p : Program Http.Reply) : Prop :=
  ∀ turns response, p.Path turns (done (.response response)) → Steady turns →
    ∀ r u, Confirmed r u turns → response.status = 200

section Requests

variable {r : RoomId} {u : UserId} {turns : List Turn} {verify : Verifier}
  {token : Option String} {room : String} {req : Http.Request}

theorem not_confirmed_nil : ¬Confirmed r u [] := by
  intro h
  cases h.1

/-- An authorization that fails has confirmed nobody. -/
theorem Program.Path.not_confirmed_of_unauthorized {who : Participant} {r' : RoomId}
    {e : AccessError}
    (hp : (Access.authorize who r').Path turns (done (.error e))) : ¬Confirmed r u turns := by
  rw [Access.authorize_eq] at hp
  obtain ⟨there, rest, rfl, hp₁⟩ := hp.step_inv
  rintro ⟨-, hmember⟩
  -- the second question was not asked, or not answered with yes
  rcases there with _ | _ | _
  · obtain ⟨rfl, -⟩ := hp₁.done_inv
    simp at hmember
  · obtain ⟨rfl, -⟩ := hp₁.done_inv
    simp at hmember
  · obtain ⟨member, rest, rfl, hp₂⟩ := hp₁.step_inv
    rcases member with _ | _ | _
    · obtain ⟨rfl, -⟩ := hp₂.done_inv
      simp at hmember
    · obtain ⟨rfl, -⟩ := hp₂.done_inv
      simp at hmember
    · cases hp₂.done_inv.2

/-- A request that is refused has confirmed nobody. -/
theorem Program.Path.not_confirmed_of_refused {refusal : Http.Refusal}
    (hp : (Http.authorizeRequest verify token room).Path turns (done (.error refusal))) :
    ¬Confirmed r u turns := by
  unfold Http.authorizeRequest at hp
  split at hp
  next =>
    obtain ⟨rfl, -⟩ := hp.done_inv
    exact not_confirmed_nil
  next =>
    split at hp
    next =>
      obtain ⟨rfl, -⟩ := hp.done_inv
      exact not_confirmed_nil
    next =>
      obtain ⟨first, second, granted, rfl, hfirst, hsecond⟩ := hp.bind_inv
      cases granted with
      | ok => cases hsecond.done_inv.2
      | error e =>
        obtain ⟨rfl, -⟩ := hsecond.done_inv
        rw [List.append_nil]
        exact hfirst.not_confirmed_of_unauthorized

namespace Http

theorem hospitable_done (response : Response) : Hospitable (done (.response response)) := by
  intro turns response' hp hs r u hc
  obtain ⟨rfl, -⟩ := hp.done_inv
  exact absurd hc not_confirmed_nil

/-- A route of a room is hospitable if what it does for the room is. -/
theorem hospitable_withRoom {f : String → Program Reply} (hf : ∀ text, Hospitable (f text)) :
    Hospitable (withRoom room f) := by
  unfold withRoom
  split
  next text _ => exact hf text
  next => exact hospitable_done _

/-- What comes after the checks decides. -/
theorem hospitable_authorized {f : Except Refusal (Participant × RoomId) → Program Reply}
    (hrefused : ∀ refusal, ∃ response, f (.error refusal) = done (.response response))
    (hadmitted : ∀ who r turns before response, Confirmed r who.user before →
      Steady (before ++ turns) → (f (.ok (who, r))).Path turns (done (.response response)) →
      response.status = 200) :
    Hospitable (authorizeRequest verify token room >>= f) := by
  intro turns response hp hs r u hc
  obtain ⟨first, second, granted, rfl, hfirst, hsecond⟩ := hp.bind_inv
  cases granted with
  | error refusal =>
    obtain ⟨response', heq⟩ := hrefused refusal
    rw [heq] at hsecond
    obtain ⟨rfl, -⟩ := hsecond.done_inv
    rw [List.append_nil] at hc
    exact absurd hc hfirst.not_confirmed_of_refused
  | ok found => exact hadmitted _ _ _ _ _ hfirst.authorizeRequest_done.2.2 hs hsecond

theorem hospitable_presence : Hospitable (presence verify req room) := by
  refine hospitable_authorized (fun refusal => ⟨_, rfl⟩) ?_
  intro who r turns before response hconfirmed hs hp
  obtain ⟨first, second, people, rfl, hfirst, hsecond⟩ := hp.bind_inv
  rw [Presence.ofRoom_eq] at hfirst
  obtain ⟨listed, rest, rfl, hp₁⟩ := hfirst.step_inv
  -- the list of members is not refused to one of them
  obtain ⟨members, rfl⟩ : ∃ members, listed = .ok members :=
    hs.favours hconfirmed ⟨.listMembers r, listed⟩ List.mem_cons_self rfl
  obtain ⟨_, _, rfl, hp₂⟩ := hp₁.step_inv
  obtain ⟨_, _, rfl, hp₃⟩ := hp₂.step_inv
  obtain ⟨-, rfl⟩ := hp₃.done_inv
  obtain ⟨-, heq⟩ := hsecond.done_inv
  cases heq
  rfl

theorem hospitable_callParticipants : Hospitable (callParticipants verify req room) := by
  refine hospitable_authorized (fun refusal => ⟨_, rfl⟩) ?_
  intro who r turns before response hconfirmed hs hp
  obtain ⟨first, second, people, rfl, -, hsecond⟩ := hp.bind_inv
  obtain ⟨-, heq⟩ := hsecond.done_inv
  cases heq
  rfl

theorem hospitable_socket {upgradable : Bool} :
    Hospitable (socket verify upgradable req room) := by
  unfold socket
  split
  next => exact hospitable_done _
  next =>
    refine hospitable_withRoom fun text => ?_
    split
    next => exact hospitable_done _
    next =>
      -- a member gets a socket and no response
      refine hospitable_authorized (fun refusal => ⟨_, rfl⟩) ?_
      intro who r turns before response hconfirmed hs hp
      cases hp.done_inv.2

/-- What is made of a response afterwards leaves its status. -/
theorem hospitable_bind {p : Program Reply} {f : Reply → Program Reply} (hp : Hospitable p)
    (hresponse : ∀ r, ∃ r' : Response, f (.response r) = done (.response r') ∧
      r'.status = r.status)
    (hupgrade : ∀ r who, f (.upgrade r who) = done (.upgrade r who)) :
    Hospitable (p >>= f) := by
  intro turns response hpath hs r u hc
  obtain ⟨first, second, reply, rfl, hfirst, hsecond⟩ := hpath.bind_inv
  cases reply with
  | upgrade r who =>
    rw [hupgrade] at hsecond
    cases hsecond.done_inv.2
  | response plain =>
    obtain ⟨response', heq, hstatus⟩ := hresponse plain
    rw [heq] at hsecond
    obtain ⟨rfl, hsame⟩ := hsecond.done_inv
    cases hsame
    rw [List.append_nil] at hs hc
    exact hstatus.trans (hp first plain hfirst hs r u hc)

/-- Every route is hospitable. -/
theorem hospitable_route (upgradable : Bool) (route : Route) :
    Hospitable (route.answer verify upgradable req) := by
  cases route with
  | socket path => exact hospitable_socket
  | health => exact hospitable_done _
  | presence path => exact hospitable_withRoom fun _ => hospitable_presence
  | callParticipants path => exact hospitable_withRoom fun _ => hospitable_callParticipants

/-- No request is refused once it was found to come from a member. -/
theorem hospitable_answer (site : Site) (upgradable : Bool) (req : Request) :
    Hospitable (answer site upgradable req) := by
  unfold answer
  dsimp only
  split
  next => exact hospitable_done _
  next =>
    refine hospitable_bind ?_ (fun r => ⟨_, rfl, rfl⟩) (fun r who => rfl)
    unfold answerPlain
    split
    next => exact hospitable_done _
    next route _ =>
      split
      next => exact hospitable_route upgradable route
      next =>
        split
        next =>
          refine hospitable_bind (hospitable_route upgradable route) (fun r => ⟨_, rfl, rfl⟩) ?_
          exact fun r who => rfl
        next => exact hospitable_done _

end Http

end Requests

/-! ## Errands -/

namespace Errand

/-- The content that is still to be stored. -/
def pending? : Errand → Option String
  | store _ content => some content
  | idle | tell _ => none

/-- What a text asks for is pending at first. -/
theorem pending?_ofText (k : Handle) (text : String) :
    (ofText k text).pending? = ClientFrame.toPost? text := by
  unfold ofText
  cases ClientFrame.toPost? text <;> rfl

/-- The next operation of an errand stores what was to be stored, if its connection is
welcome; or it stores nothing, and nothing was to be stored. -/
theorem Turns.stored_or_none {e e' : Errand} {op : Operation} {w : World}
    (hturns : e.Turns op (w.perform op).1 e')
    (hwelcome : ∀ k content, e = .store k content → w.Welcomes k.room k.participant.user) :
    (∃ k content m, e = .store k content ∧ e'.pending? = none ∧
      (⟨op, (w.perform op).1⟩ : Turn)
        = ⟨.persist k.room k.participant.user ⟨content, .text, none⟩, .ok m⟩ ∧
      m.content = content ∧ m.user = k.participant.user ∧
      m ∈ (w.perform op).2.store.messages k.room) ∨
    (e.pending? = none ∧ e'.pending? = none ∧ ∀ r u d, op ≠ .persist r u d) := by
  cases e with
  | store k content =>
    obtain ⟨m, hm, huser, hcontent, hmem⟩ :=
      (hwelcome k content rfl).stored ⟨content, .text, none⟩
    generalize hanswer : (w.perform op).1 = answer at hturns
    cases hturns with
    | refused =>
      rw [hm] at hanswer
      cases hanswer
    | stored =>
      rw [hm] at hanswer
      cases hanswer
      exact Or.inl ⟨k, content, m, rfl, rfl, rfl, hcontent, huser, hmem⟩
  | idle =>
    cases hturns with
    | quiet hop =>
      refine Or.inr ⟨rfl, rfl, fun r u d heq => ?_⟩
      subst heq
      exact Operation.not_isSilent_persist hop
  | tell m =>
    generalize (w.perform op).1 = answer at hturns
    cases hturns with
    | told => exact Or.inr ⟨rfl, rfl, fun r u d heq => (nomatch heq)⟩

end Errand

theorem Turn.stored?_of_ne {op : Operation} {answer : op.Answer}
    (hop : ∀ r u d, op ≠ .persist r u d) : Turn.stored? ⟨op, answer⟩ = none := by
  cases op with
  | persist r u d => exact absurd rfl (hop r u d)
  | _ => rfl

/-! ## Guests -/

namespace Guest

variable {cfg : HubSettings} {now : Time} {g g' : Guest} {w w' : World} {sent : List Sending}
  {s s' : Store}

/-- The messages that were stored for a guest, oldest first. -/
def stored (g : Guest) : List Message := g.turns.filterMap Turn.stored?

/-- Nothing that was to be stored for a guest was refused, and what was stored is there,
written by whom the guest was admitted as. -/
structure Heeded (s : Store) (g : Guest) : Prop where
  steady : Steady g.turns
  unrefused : ∀ r u d e, (⟨.persist r u d, .error e⟩ : Turn) ∉ g.turns
  kept : ∀ m ∈ g.stored, ∃ k, g.phase.handle? = some k ∧ m.user = k.participant.user ∧
    m ∈ s.messages k.room

theorem Heeded.mono (h : g.Heeded s) (hturns : g'.turns = g.turns)
    (hhandle : ∀ k, g.phase.handle? = some k → g'.phase.handle? = some k)
    (hmessages : ∀ r, s.messages r ⊆ s'.messages r) : g'.Heeded s' := by
  refine ⟨hturns ▸ h.steady, fun r u d e => hturns ▸ h.unrefused r u d e, fun m hm => ?_⟩
  unfold stored at hm
  rw [hturns] at hm
  obtain ⟨k, hk, huser, hmem⟩ := h.kept m hm
  exact ⟨k, hhandle k hk, huser, hmessages k.room hmem⟩

/-- An operation adds the message that it stored, if it stored one. -/
theorem stored_took (g : Guest) (op : Operation) (next : op.Answer → Phase) (answer : op.Answer) :
    (g.took op next answer).stored = g.stored ++ (Turn.stored? ⟨op, answer⟩).toList := by
  unfold stored took
  rw [List.filterMap_append]
  cases hstored : Turn.stored? ⟨op, answer⟩ <;> simp [hstored]

/-- Taking the next operation of its errand a guest is heeded, and what it stores was to be
stored. -/
theorem Heeded.took {op : Operation} {next : op.Answer → Phase} {e e' : Errand}
    (h : g.Heeded w.store) (htold : g.Told w.store) (hv : g.Vetted) (hw : w.outage = .none)
    (hruns : g.phase.Runs e) (hturns : e.Turns op (w.perform op).1 e')
    (hhandle : ∀ k, g.phase.handle? = some k →
      (g.took op next (w.perform op).1).phase.handle? = some k) :
    (g.took op next (w.perform op).1).Heeded (w.perform op).2.store ∧
      (g.took op next (w.perform op).1).stored.map (·.content) ++ e'.pending?.toList
        = g.stored.map (·.content) ++ e.pending?.toList := by
  have hsteady := h.steady.snoc htold hw op
  have hwelcome : ∀ k content, e = .store k content → w.Welcomes k.room k.participant.user := by
    rintro k content rfl
    exact World.welcomes hw ((hv.admitted k hruns.next_of_store.1).2.isTrue htold).2
  have hkept : ∀ m ∈ g.stored, ∃ k, (g.took op next (w.perform op).1).phase.handle? = some k ∧
      m.user = k.participant.user ∧ m ∈ (w.perform op).2.store.messages k.room := by
    intro m hm
    obtain ⟨k, hk, huser, hmem⟩ := h.kept m hm
    exact ⟨k, hhandle k hk, huser, (World.prefix_messages_perform op w k.room).subset hmem⟩
  have hstored := g.stored_took op next (w.perform op).1
  rcases hturns.stored_or_none hwelcome with
    ⟨k, content, m, rfl, hnone, hturn, hcontent, huser, hmem⟩ | ⟨hnothing, hnone, hop⟩
  · rw [hturn] at hstored
    refine ⟨⟨hsteady, fun r u d e hrefused => ?_, fun m' hm' => ?_⟩, ?_⟩
    · rcases List.mem_append.mp hrefused with hold | hnew
      · exact h.unrefused r u d e hold
      · rw [hturn, List.mem_singleton] at hnew
        cases hnew
    · rw [hstored] at hm'
      rcases List.mem_append.mp hm' with hold | hnew
      · exact hkept m' hold
      · rw [List.mem_singleton.mp hnew]
        exact ⟨k, hhandle k hruns.next_of_store.1, huser, hmem⟩
    · rw [hstored, hnone, List.map_append, List.append_assoc]
      show _ ++ ([m.content] ++ []) = _ ++ [content]
      rw [hcontent, List.append_nil]
  · rw [Turn.stored?_of_ne hop, Option.toList_none, List.append_nil] at hstored
    refine ⟨⟨hsteady, fun r u d e hrefused => ?_, fun m' hm' => ?_⟩, ?_⟩
    · rcases List.mem_append.mp hrefused with hold | hnew
      · exact h.unrefused r u d e hold
      · have heq := List.mem_singleton.mp hnew
        exact absurd (congrArg Turn.op heq).symm (hop r u d)
    · rw [hstored] at hm'
      exact hkept m' hm'
    · rw [hstored, hnothing, hnone]

/-- A guest has its response from the end of the program that answers its request. -/
theorem answered_change {response : Http.Response} (hc : g.Change cfg now w g' w' sent)
    (hp : g'.phase = .answered response) :
    (g.phase = .answered response ∨ g.phase = .asking (done (.response response))) ∧
      g'.turns = g.turns := by
  cases hc with
  | still => exact ⟨Or.inl hp, rfl⟩
  | tripped => exact ⟨Or.inl hp, rfl⟩
  | answered h =>
    cases hp
    exact ⟨Or.inr h, rfl⟩
  | took hnext =>
    rcases Phase.next?_cases hnext with ⟨f, -, rfl⟩ | ⟨k, f, -, rfl⟩ | ⟨s, f, -, rfl⟩ |
      ⟨s, f, -, rfl⟩
    all_goals exact Phase.noConfusion hp
  | @wrote s hs socket writing =>
    have hsession := Phase.session?_onSession
      (fun _ => { s with socket := socket, writing := writing }) hs
    replace hp : g.phase.onSession _ = .answered response := hp
    rw [hp] at hsession
    cases hsession
  | unopened | opened | joined | refused | heard | arrived | acted | drained | left | finished
  | swept => exact Phase.noConfusion hp

/-- A guest that was found to be a member gets no other response than the one with what it
asked for. -/
def Humoured (g : Guest) : Prop :=
  ∀ response, g.phase = .answered response → ∀ r u, Confirmed r u g.turns → response.status = 200

/-- A guest stays humoured, whatever it does. -/
theorem humoured_change (hc : g.Change cfg now w g' w' sent) (hv : g.Vetted)
    (hs : Steady g.turns) (h : g.Humoured) : g'.Humoured := by
  intro response hp r u hconfirmed
  obtain ⟨hbefore, hturns⟩ := answered_change hc hp
  rw [hturns] at hconfirmed
  rcases hbefore with hold | hasking
  · exact h response hold r u hconfirmed
  · exact Http.hospitable_answer g.site g.upgradable g.request g.turns response
      (hv.asking _ hasking) hs r u hconfirmed

end Guest

/-! ## Every run -/

theorem World.outage_perform (op : Operation) (w : World) : (w.perform op).2.outage = w.outage := by
  cases op with
  | persist r u d =>
    rcases w.perform_persist r u d with ⟨e, heq⟩ | heq
    · rw [heq]
    · rw [heq]
  | _ => rfl

namespace Venue

variable {cfg : HubSettings} {v v' : Venue}

/-- A move that puts no method of the store out of order. -/
def Move.IsCalm : Move → Prop
  | setOutage o => o = .none
  | _ => True

/-- No message is removed, whatever happens in a venue. -/
theorem messages_change (hc : Change cfg v v') (r : RoomId) :
    v.world.store.messages r ⊆ v'.world.store.messages r := by
  cases hc with
  | begun => exact List.Subset.refl _
  | @acted i g g' w sent hget hact =>
    rcases Guest.world_change hact with ⟨op, rfl⟩ | ⟨hstore, -⟩
    · exact (World.prefix_messages_perform op _ r).subset
    · show _ ⊆ w.store.messages r
      rewrite [hstore]
      exact List.Subset.refl _
  | stored => exact (World.prefix_messages_perform _ _ r).subset
  | announced => exact (World.prefix_messages_perform _ _ r).subset
  | around w now hhub hgrows hmessages hlast =>
    show _ ⊆ w.store.messages r
    rewrite [hmessages r]
    exact List.Subset.refl _

theorem grows_run (v : Venue) (moves : List Move) :
    v.world.store.Grows (v.run cfg moves).world.store :=
  run_induction (P := fun v' => v.world.store.Grows v'.world.store) (Store.Grows.refl _)
    (fun _ _ h hc => h.trans (grows_change hc)) moves

/-- A guest's act leaves the store's methods in order, and so does a calm move. -/
theorem outage_apply (hv : v.world.outage = .none) {move : Move} (hmove : move.IsCalm) :
    (v.apply cfg move).world.outage = .none := by
  cases move with
  | request id site upgradable request =>
    simp only [apply]
    split <;> exact hv
  | act i a =>
    simp only [apply, act]
    split
    next => exact hv
    next g _ =>
      have hchange : g.Change cfg v.now v.world _ _ _ := Guest.change_act a g _
      show (g.act cfg v.now a v.world).2.outage = .none
      rcases Guest.world_change hchange with ⟨op, heq⟩ | ⟨-, houtage⟩
      · rw [heq, World.outage_perform, hv]
      · rw [houtage, hv]
  | persist r u d => exact (World.outage_perform _ _).trans hv
  | announce m => exact (World.outage_perform _ _).trans hv
  | setOutage o => exact hmove
  | createRoom | addMember | setClock | setNow => exact hv

end Venue

/-- The response that a guest got. -/
def Phase.response? : Phase → Option Http.Response
  | answered response => some response
  | _ => none

theorem Phase.response?_eq_some {p : Phase} {response : Http.Response} :
    p.response? = some response ↔ p = .answered response := by
  cases p with
  | answered r =>
    show some r = some response ↔ _
    rw [Option.some.injEq, Phase.answered.injEq]
  | _ => exact ⟨fun h => (nomatch h), fun h => (nomatch h)⟩

namespace Minutes

variable {cfg : HubSettings} {m m' : Minutes} {g g' : Guest}

/-- What a guest asked to have posted was stored, but for what it is about to store. -/
def Posts (m : Minutes) (g : Guest) : Prop :=
  ∃ e : Errand, g.phase.Runs e ∧ g.stored.map (·.content) ++ e.pending?.toList
    = (m.texts g.id).filterMap ClientFrame.toPost?

/-- A guest is vetted, the store was right in all that it confirmed to it, refused it
nothing, and has what the guest asked to have posted. -/
structure Served (m : Minutes) (g : Guest) : Prop where
  vetted : g.Vetted
  told : g.Told m.venue.world.store
  heeded : g.Heeded m.venue.world.store
  humoured : g.Humoured
  posts : m.Posts g

/-- A guest from whom nothing more was read stays served when something happens elsewhere. -/
theorem Served.mono {move : Venue.Move} (h : m.Served g)
    (htexts : (m.apply cfg move).texts g.id = m.texts g.id) : (m.apply cfg move).Served g := by
  have hchange : Venue.Change cfg m.venue _ := Venue.change_apply m.venue move
  refine ⟨h.vetted, h.told.mono (Venue.grows_change hchange),
    h.heeded.mono rfl (fun _ hk => hk) (Venue.messages_change hchange), h.humoured, ?_⟩
  obtain ⟨e, hruns, hposts⟩ := h.posts
  exact ⟨e, hruns, htexts ▸ hposts⟩

/-- A guest who is new has asked for nothing yet. -/
theorem served_fresh {id : ConnectionId} {site : Http.Site} {upgradable : Bool}
    {request : Http.Request} (hnone : m.texts id = []) :
    m.Served (.fresh id site upgradable request) where
  vetted := ⟨fun rest hrest => by cases hrest; exact .nil, fun k hk => by cases hk⟩
  told turn hturn := by cases hturn
  heeded := ⟨List.Pairwise.nil, fun r u d e hmem => (nomatch hmem), fun q hq => (nomatch hq)⟩
  humoured response hp := (nomatch hp)
  posts := by
    refine ⟨.idle, ⟨rfl, (Http.reads_answer site upgradable request).runs⟩, ?_⟩
    show [] = (m.texts id).filterMap _
    rw [hnone]
    rfl

/-- An act serves its own guest. -/
theorem Served.act {i : Nat} {a : Act} (h : m.Served g) (hw : m.venue.world.outage = .none)
    (hget : m.venue.guests[i]? = some g) :
    (m.apply cfg (.act i a)).Served (g.act cfg m.venue.now a m.venue.world).1 := by
  obtain ⟨e, hruns, hposts⟩ := h.posts
  obtain ⟨e', hpursuit, hruns'⟩ := Guest.pursuit_act cfg m.venue.now m.venue.world a hruns
  have hchange : g.Change cfg m.venue.now m.venue.world _ _ _ := Guest.change_act a g _
  have htexts : (m.apply cfg (.act i a)).texts (g.act cfg m.venue.now a m.venue.world).1.id
      = m.texts g.id ++ (g.hears? a).toList := by
    rw [Guest.id_change hchange, texts_act_self hget]
  have hworld : (m.apply cfg (.act i a)).venue.world
      = (g.act cfg m.venue.now a m.venue.world).2 := by
    simp only [apply, Venue.apply, Venue.act, hget]
    rfl
  suffices hboth : (g.act cfg m.venue.now a m.venue.world).1.Heeded
      (g.act cfg m.venue.now a m.venue.world).2.store ∧
      (g.act cfg m.venue.now a m.venue.world).1.stored.map (·.content) ++ e'.pending?.toList
        = (m.texts g.id ++ (g.hears? a).toList).filterMap ClientFrame.toPost? by
    refine ⟨Guest.vetted_change hchange h.vetted, ?_, ?_,
      Guest.humoured_change hchange h.vetted h.heeded.steady h.humoured, e', hruns', ?_⟩
    · rw [hworld]
      exact Guest.told_change hchange h.told
    · rw [hworld]
      exact hboth.1
    · rw [htexts]
      exact hboth.2
  have hhandle := fun k => Guest.handle?_change (k := k) hchange
  generalize g.hears? a = text at hpursuit
  generalize Guest.sends a g m.venue.world = sent at hpursuit
  generalize (g.act cfg m.venue.now a m.venue.world).1 = g' at hpursuit hhandle
  generalize (g.act cfg m.venue.now a m.venue.world).2 = w' at hpursuit
  cases hpursuit with
  | @heard text s _ hp hturns =>
    refine ⟨h.heeded.mono hturns hhandle fun r => List.Subset.refl _, ?_⟩
    have hstored : g'.stored = g.stored := congrArg (List.filterMap Turn.stored?) hturns
    rw [hstored, Errand.pending?_ofText, List.filterMap_append, ← hposts]
    show _ ++ _ = (_ ++ []) ++ [text].filterMap ClientFrame.toPost?
    rw [List.append_nil]
    cases hpost : ClientFrame.toPost? text <;> simp [hpost]
  | took hnext hturns =>
    obtain ⟨hheeded, hsame⟩ := h.heeded.took h.told h.vetted hw hruns hturns hhandle
    refine ⟨hheeded, ?_⟩
    rw [hsame, hposts]
    exact congrArg _ (List.append_nil _).symm
  | kept hturns hstore =>
    refine ⟨h.heeded.mono hturns hhandle fun r => hstore ▸ List.Subset.refl _, ?_⟩
    have hstored : g'.stored = g.stored := congrArg (List.filterMap Turn.stored?) hturns
    rw [hstored, hposts]
    exact congrArg _ (List.append_nil _).symm

/-- The minutes are in order, the store works, and everybody is served. -/
structure Calm (m : Minutes) : Prop where
  recorded : m.Recorded
  outage : m.venue.world.outage = .none
  served : ∀ g ∈ m.venue.guests, m.Served g

/-- Calm minutes stay calm with any calm move. -/
theorem calm_apply (h : Calm m) {move : Venue.Move} (hmove : move.IsCalm) :
    Calm (m.apply cfg move) := by
  refine ⟨recorded_apply h.recorded move, Venue.outage_apply h.outage hmove, fun g' hg' => ?_⟩
  rcases guests_apply h.recorded.orderly move g' hg' with ⟨i, a, g, rfl, hget, rfl⟩ |
    ⟨⟨id, site, upgradable, request, rfl, hstranger⟩ | hg, htexts, -⟩
  · exact (h.served g (List.mem_of_getElem? hget)).act h.outage hget
  · exact served_fresh (htexts.trans (h.recorded.strangers id hstranger).1)
  · exact (h.served g' hg).mono htexts

/-- Along any run of calm moves, minutes stay calm. -/
theorem calm_run (h : Calm m) {moves : List Venue.Move} (hmoves : ∀ move ∈ moves, move.IsCalm) :
    Calm (m.run cfg moves) := by
  induction moves generalizing m with
  | nil => exact h
  | cons move moves ih =>
    rw [List.forall_mem_cons] at hmoves
    exact ih (calm_apply h hmoves.1) hmoves.2

theorem calm_opening (seed : List Seed.Room) (clock : Instant) :
    Calm (opening seed clock .none) where
  recorded := recorded_opening seed clock .none
  outage := rfl
  served g hg := by cases hg

/-- As long as no method of the store fails: once an identity was authorized for a room, then
whatever is called and in whatever order, it is authorized again in every later state, the
list of members can be read and has it, and whatever it sends is stored. So is, for a guest
that was given a handle, every content that it asked to have posted: nothing was refused, and
what is not stored yet is stored with the guest's next operation. And a guest that was
authorized gets what it asked for, if it gets a response. The two questions that authorize a
guest may be asked at different moments; both were answered with yes then. -/
theorem authorization_lasts (cfg : HubSettings) :
    (∀ (calls : List Store.Request) (w w' : World) (who : Participant) (r : RoomId),
      w'.store = (w.store.run calls).2 → w'.outage = .none →
      ((Access.authorize who r).run w).1 = .ok () → w'.Welcomes r who.user) ∧
    (∀ who r turns, (Access.authorize who r).Path turns (done (.ok ())) →
      Confirmed r who.user turns) ∧
    ∀ (seed : List Seed.Room) (clock : Instant) (moves : List Venue.Move),
      (∀ move ∈ moves, move.IsCalm) →
      let m := (opening seed clock .none).run cfg moves
      ∀ g ∈ m.venue.guests,
        (∀ r u, Confirmed r u g.turns → ∀ later : List Venue.Move,
          (∀ move ∈ later, move.IsCalm) → (m.run cfg later).venue.world.Welcomes r u) ∧
        (∀ response r u, g.phase = .answered response → Confirmed r u g.turns →
          response.status = 200) ∧
        (∀ r u d e, (⟨.persist r u d, .error e⟩ : Turn) ∉ g.turns) ∧
        ∀ k, g.phase.handle? = some k →
          let asked := (m.texts g.id).filterMap ClientFrame.toPost?
          Confirmed k.room k.participant.user g.turns ∧
          (∀ q ∈ g.stored, q.user = k.participant.user ∧
            q ∈ m.venue.world.store.messages k.room) ∧
          (asked = g.stored.map (·.content) ∨
            ∃ content next, asked = g.stored.map (·.content) ++ [content] ∧
              g.phase.next?
                = some ⟨.persist k.room k.participant.user ⟨content, .text, none⟩, next⟩) := by
  refine ⟨fun calls w w' who r hlater hw' hok => ?_, fun who r turns hp => hp.authorize_done,
    fun seed clock moves hmoves => ?_⟩
  · refine World.welcomes hw' ?_
    rw [hlater]
    exact (Store.grows_run calls w.store).members _ _ (World.isMember_of_authorized hok)
  · intro m g hg
    have hcalm : Calm m := calm_run (calm_opening seed clock) hmoves
    have hserved := hcalm.served g hg
    refine ⟨fun r u hconfirmed later hlater => ?_, fun response r u hp => ?_,
      hserved.heeded.unrefused, fun k hk => ?_⟩
    · refine World.welcomes (calm_run hcalm hlater).outage ?_
      rw [run_venue]
      exact (Venue.grows_run m.venue later).members _ _ (hconfirmed.isTrue hserved.told).2
    · exact hserved.humoured response hp r u
    · intro asked
      refine ⟨(hserved.vetted.admitted k hk).2, fun q hq => ?_, ?_⟩
      · obtain ⟨k', hk', huser, hmem⟩ := hserved.heeded.kept q hq
        rw [hk] at hk'
        cases hk'
        exact ⟨huser, hmem⟩
      · obtain ⟨e, hruns, hposts⟩ := hserved.posts
        cases e with
        | idle => exact Or.inl ((List.append_nil _).symm.trans hposts).symm
        | tell q => exact Or.inl ((List.append_nil _).symm.trans hposts).symm
        | store k' content =>
          obtain ⟨hk', next, hnext⟩ := hruns.next_of_store
          rw [hk] at hk'
          cases hk'
          exact Or.inr ⟨content, next, hposts.symm, hnext⟩

/-- After what ann says in the lobby somebody who shows her token reads its list of people. -/
def listing : List Venue.Move :=
  talking ++
    .request ⟨⟨2⟩⟩ Venue.visitSite true (Http.Endpoint.presence.request "t" Http.roomText) ::
    List.replicate 5 (.act 1 .step) ++ [.act 1 .proceed]

/-- The minutes of that. -/
def listed : Minutes :=
  (opening [⟨⟨⟨7⟩⟩, "lobby", [⟨⟨⟨5⟩⟩, "ann"⟩]⟩] .epoch .none).run .default listing

/-- Both things that ann says and that can be read are stored; the list is not refused. -/
theorem authorization_lasts_listing :
    (∃ g ∈ listed.venue.guests, g.stored.map (·.content) = ["hello", "bye"] ∧
      ∀ q ∈ g.stored, q ∈ listed.venue.world.store.messages ⟨⟨7⟩⟩) ∧
    (∃ g ∈ listed.venue.guests, ∃ response, g.phase = .answered response ∧
      response.status = 200) ∧
    listed.venue.world.Welcomes ⟨⟨7⟩⟩ ⟨⟨5⟩⟩ := by
  have hcalm : ∀ move ∈ listing, move.IsCalm := by
    intro move hmove
    cases move with
    | setOutage o =>
      have hnone : ∀ move ∈ listing,
          (match move with | .setOutage _ => false | _ => true) = true := by decide +kernel
      cases hnone _ hmove
    | _ => exact trivial
  have hann : listed.venue.guests[0]?.map (fun g => (g.stored.map (·.content),
      decide (g.phase.handle? = some ⟨⟨⟨1⟩⟩, ⟨⟨7⟩⟩, ⟨⟨⟨5⟩⟩, "ann"⟩⟩)))
      = some (["hello", "bye"], true) := by decide +kernel
  have hreader : listed.venue.guests[1]?.map (fun g =>
      (g.phase.response?.isSome, decide (Confirmed ⟨⟨7⟩⟩ ⟨⟨5⟩⟩ g.turns))) = some (true, true) := by
    decide +kernel
  obtain ⟨ann, hget, hpair⟩ := Option.map_eq_some_iff.mp hann
  obtain ⟨hstored, hhandle⟩ := Prod.mk.inj hpair
  obtain ⟨reader, hget', hpair'⟩ := Option.map_eq_some_iff.mp hreader
  obtain ⟨hresponse, hconfirmed⟩ := Prod.mk.inj hpair'
  obtain ⟨response, hp⟩ := Option.isSome_iff_exists.mp hresponse
  have hall : ∀ g ∈ listed.venue.guests, _ :=
    (authorization_lasts .default).2.2 [⟨⟨⟨7⟩⟩, "lobby", [⟨⟨⟨5⟩⟩, "ann"⟩]⟩] .epoch listing hcalm
  obtain ⟨hwelcome, -, -, hhandles⟩ := hall ann (List.mem_of_getElem? hget)
  obtain ⟨hadmitted, hkept, -⟩ := hhandles _ (of_decide_eq_true hhandle)
  obtain ⟨-, hstatus, -, -⟩ := hall reader (List.mem_of_getElem? hget')
  have hp' := Phase.response?_eq_some.mp hp
  refine ⟨⟨ann, List.mem_of_getElem? hget, hstored, fun q hq => ?_⟩,
    ⟨reader, List.mem_of_getElem? hget', response, hp', ?_⟩, ?_⟩
  · unfold listed
    exact (hkept q hq).2
  · exact hstatus response _ _ hp' (of_decide_eq_true hconfirmed)
  · unfold listed
    exact hwelcome _ _ hadmitted [] fun move hmove => (nomatch hmove)

end Minutes

end RoomHub
