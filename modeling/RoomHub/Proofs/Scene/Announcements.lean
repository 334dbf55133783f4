import RoomHub.Proofs.Hub.Snapshots
import RoomHub.Proofs.Hub.Stream
import RoomHub.Proofs.Scene.Moves
import RoomHub.Proofs.Store.Ledger
import RoomHub.Proofs.Venue.Conduct

/-!
# Told if and only if stored

A text that is sent is stored first, and then its room is told. When nothing steps in
between, `World.Announced` lists all that has changed; when the text is refused, nothing
has. When other tasks do step in, a message may be stored and not yet told, but never the
other way round, and the books balance at every moment:

> `balanced_run`: what is stored is what was told, and what tasks still have to tell;
> `chats_are_stored_messages`: one sending, in one go, does all of it or nothing; and after
> any run whose tasks have all ended, the messages told are the messages stored.

An announcement on its own tells a message that was handed to it. The books list these
messages apart.
-/

namespace RoomHub

/-! ## Who a broadcast reaches -/

namespace Hub

variable {h : Hub} {c : ConnectionId} {r : RoomId} {e : Event}

/-- The connections of a room are those that are registered for it. -/
theorem mem_roomIds (hg : h.registry.Mirrored) : c ∈ h.roomIds r ↔ h.IsIn c r := by
  constructor
  · intro hmem
    obtain ⟨handle, hhandle, rfl⟩ := List.mem_map.mp hmem
    obtain ⟨hreg, hroom⟩ := hg.mem_connections.mp hhandle
    obtain ⟨m, hm, rfl⟩ := Option.map_eq_some_iff.mp hreg
    exact ⟨m, hm, hroom⟩
  · intro hin
    have hcount : (h.roomIds r).count c = if r = r then 1 else 0 := count_roomIds hg hin
    rw [if_pos rfl] at hcount
    exact List.count_pos_iff.mp (by omega)

/-- What is sent to a room is meant for the connections of the room only. -/
theorem meantFor_room (hg : h.registry.Mirrored) (es : List Event) (r : RoomId) :
    meantFor c (es.map (·, h.roomIds r)) = if h.IsIn c r then es else [] := by
  by_cases hin : h.IsIn c r
  · rw [meantFor_roomIds hg hin, if_pos rfl, if_pos hin]
  · have hzero : (h.roomIds r).count c = 0 :=
      List.count_eq_zero.mpr fun hmem => hin ((mem_roomIds hg).mp hmem)
    rw [meantFor_map, hzero, if_neg hin]
    simp

/-- A broadcast offers its event once to each connection of the room and to nobody else. -/
theorem outboxes_broadcast (hg : h.registry.Mirrored) :
    (h.broadcast r e).2.outboxes[c]?
      = if h.IsIn c r then (h.outboxes[c]?).map fun o => (o.offer e).2 else h.outboxes[c]? := by
  have hact : (h.broadcast r e).2 = (dispatch [(e, h.roomIds r)] h).2 :=
    act_of_isSending (a := .broadcast r e) rfl h
  have hmeant : meantFor c [(e, h.roomIds r)] = if h.IsIn c r then [e] else [] :=
    meantFor_room hg [e] r
  rw [hact, outboxes_dispatch, hmeant]
  split
  next => rfl
  next => exact Option.map_id'

end Hub

/-! ## A program in one go -/

namespace Program

variable {α : Type}

/-- What a program does when nothing steps in, with the answers, oldest first. -/
def turns : Program α → World → List Turn
  | .done _, _ => []
  | .step op next, w =>
    let (answer, w') := w.perform op
    ⟨op, answer⟩ :: (next answer).turns w'

/-- What a program sends when nothing steps in. -/
def sends : Program α → World → List Sending
  | .done _, _ => []
  | .step op next, w =>
    let (answer, w') := w.perform op
    op.sends w.hub ++ (next answer).sends w'

end Program

/-- Why a text would not be posted: it is empty, or the store is out of order, or it does not
know the room or the member. -/
def World.objection? (w : World) (r : RoomId) (u : UserId) (content : String) :
    Option PostError :=
  if content = "" then some .emptyContent
  else
    match w.outage .persist with
    | some reason => some (.persist (.unavailable reason))
    | none =>
      if w.store.roomExists r = false then some (.persist (.roomNotFound r))
      else if w.store.isMember r u = false then some (.persist (.userNotFound u))
      else none

/-- From one world to the next, a text was stored as a message and its room was told, and
nothing else happened. -/
structure World.Announced (w w' : World) (r : RoomId) (u : UserId) (content : String)
    (m : Message) (turns : List Turn) (sent : List Sending) : Prop where
  message : ∃ name, w.store.name? r u = some name ∧
    m = ⟨w.store.lastMessageId + 1, r, u, name, content, .text, none, w.clock⟩
  order : ∃ report, turns =
    [⟨.persist r u ⟨content, .text, none⟩, .ok m⟩, ⟨.broadcast r (.chat m), report⟩]
  stored : ∀ r', w'.store.messages r'
    = if r = r' then w.store.messages r ++ [m] else w.store.messages r'
  number : w'.store.lastMessageId = m.id
  names : ∀ r', w'.store.names? r' = w.store.names? r'
  told : ∃ answers, sent = [⟨.chat m, answers⟩] ∧ (answers.map (·.1)).Nodup ∧
    ∀ c, c ∈ answers.map (·.1) ↔ w.hub.IsIn c r
  offered : ∀ c, w'.hub.outboxes[c]?
    = if w.hub.IsIn c r then (w.hub.outboxes[c]?).map fun o => (o.offer (.chat m)).2
      else w.hub.outboxes[c]?
  registry : w'.hub.registry = w.hub.registry
  calls : w'.hub.calls = w.hub.calls
  outside : w'.clock = w.clock ∧ w'.outage = w.outage

section OneGo

variable {w : World} {r : RoomId} {u : UserId} {content : String}

/-- A draft is refused for the reasons that the store gives, or it is stored. -/
theorem World.perform_persist_text (hcontent : content ≠ "") :
    (∃ e, w.objection? r u content = some (.persist e) ∧
      w.perform (.persist r u ⟨content, .text, none⟩) = (.error e, w)) ∨
    (∃ name store, w.objection? r u content = none ∧ w.store.name? r u = some name ∧
      w.store.persist w.clock r u ⟨content, .text, none⟩
        = (.ok ⟨w.store.lastMessageId + 1, r, u, name, content, .text, none, w.clock⟩, store) ∧
      w.perform (.persist r u ⟨content, .text, none⟩)
        = (.ok ⟨w.store.lastMessageId + 1, r, u, name, content, .text, none, w.clock⟩,
            { w with store := store }) ∧
      ∀ r', store.names? r' = w.store.names? r') := by
  unfold objection?
  rw [if_neg hcontent, Store.roomExists_eq, Store.isMember_eq]
  simp only [World.perform, Store.name?]
  cases hout : w.outage .persist with
  | some reason => exact Or.inl ⟨_, rfl, rfl⟩
  | none =>
    rcases w.store.persist_names w.clock r u ⟨content, .text, none⟩ with ⟨hnone, heq⟩ |
      ⟨members, hthere, hstranger, heq⟩ | ⟨members, name, store, hthere, hname, heq, hnames⟩
    · left
      simp only [hnone, heq]
      exact ⟨_, rfl, rfl⟩
    · left
      simp only [hthere, hstranger, heq, Option.bind_some]
      exact ⟨_, rfl, rfl⟩
    · right
      simp only [hthere, hname, heq, Option.bind_some]
      exact ⟨name, store, rfl, rfl, rfl, rfl, hnames⟩

/-- A text that is not empty is posted. -/
theorem Posting.send_of_ne (hcontent : content ≠ "") :
    send r u content = post r u ⟨content, .text, none⟩ := by
  unfold send Content.ofString
  rw [dif_neg hcontent]
  rfl

/-- A text that is refused leaves everything as it was. -/
theorem Posting.run_send_of_objection {e : PostError}
    (hobjection : w.objection? r u content = some e) :
    (send r u content).run w = (.error e, w) ∧ (send r u content).sends w = [] := by
  by_cases hcontent : content = ""
  · subst hcontent
    cases hobjection
    exact ⟨rfl, rfl⟩
  · rcases w.perform_persist_text (r := r) (u := u) hcontent with ⟨e', hwhy, heq⟩ |
      ⟨name, store, hfree, -⟩
    · rw [hwhy] at hobjection
      cases hobjection
      rw [send_of_ne hcontent, post_eq]
      simp only [Program.run_step, Program.sends, heq]
      exact ⟨Program.run_done _ w, rfl⟩
    · rw [hfree] at hobjection
      cases hobjection

/-- A text that nothing speaks against is stored and told. -/
theorem Posting.run_send_of_free (hg : w.hub.registry.Mirrored)
    (hfree : w.objection? r u content = none) :
    ∃ m, ((send r u content).run w).1 = .ok m ∧
      w.Announced ((send r u content).run w).2 r u content m ((send r u content).turns w)
        ((send r u content).sends w) := by
  have hcontent : content ≠ "" := by
    intro hempty
    subst hempty
    cases hfree
  rcases w.perform_persist_text (r := r) (u := u) hcontent with ⟨e', hwhy, -⟩ |
    ⟨name, store, -, hname, hstored, heq, hnames⟩
  · rw [hwhy] at hfree
    cases hfree
  · rw [send_of_ne hcontent, post_eq]
    simp only [Program.run, Program.turns, Program.sends, heq]
    refine ⟨_, rfl, ?_⟩
    rcases w.store.persist_cases w.clock r u ⟨content, .text, none⟩ with ⟨e, hrefused⟩ |
      ⟨m, store', hcases, -, -, hlast, hmessages⟩
    · rw [hrefused] at hstored
      cases hstored
    rw [hstored] at hcases
    cases hcases
    have hpresence := fun e => Hub.act_presence (a := .broadcast r e) rfl w.hub
    exact
      { message := ⟨name, hname, rfl⟩
        order := ⟨_, rfl⟩
        stored := hmessages
        number := hlast
        names := hnames
        told := by
          refine ⟨_, List.append_nil _, ?_⟩
          rw [Hub.offerEach_map_fst]
          exact ⟨hg.nodup_connections, fun c => Hub.mem_roomIds hg⟩
        offered := fun c => Hub.outboxes_broadcast hg
        registry := (hpresence _).1
        calls := (hpresence _).2
        outside := ⟨rfl, rfl⟩ }

end OneGo

/-! ## What is stored, what is told, and what is due -/

/-- The message that an event tells. -/
def Event.chat? : Event → Option Message
  | .chat m => some m
  | _ => none

/-- The messages that were told, in the order of telling. -/
def Sending.chats (log : List Sending) : List Message := log.filterMap (·.event.chat?)

/-- The message that a turn stored. -/
def Turn.stored? : Turn → Option Message
  | ⟨.persist .., answer⟩ => answer.toOption
  | _ => none

/-- The message that a call was handed to tell. -/
def Call.handed? : Call → Option Message
  | .announce m => some m
  | _ => none

/-- The message that a task still has to tell: the one its last turn stored, and at the
start the one it was handed. -/
def Task.due (t : Task) : Option Message :=
  match t.turns.getLast? with
  | none => t.call.handed?
  | some turn => turn.stored?

/-- What may be done next while a message is due, or while none is. -/
def Operation.Tells : Option Message → Operation → Prop
  | some m, op => op = .broadcast m.room (.chat m)
  | none, .broadcast _ e => e.chat? = none
  | none, .pushTo _ e => e.chat? = none
  | none, _ => True

/-- A program that tells what it stored with its very next operation, and tells nothing
else. -/
def Program.Announces {α : Type} : Option Message → Program α → Prop
  | d, .done _ => d = none
  | d, .step op next =>
    op.Tells d ∧ ∀ answer, Announces (Turn.stored? ⟨op, answer⟩) (next answer)

section Telling

variable {op : Operation} {d : Option Message}

/-- A round of dispatches hands out the events that it was given, in the same order. -/
theorem Hub.map_event_dispatch (ds : List Dispatch) (h : Hub) :
    (dispatch ds h).1.map (·.event) = ds.map (·.1) := by
  induction ds generalizing h with
  | nil => rfl
  | cons d ds ih => exact congrArg (d.1 :: ·) (ih _)

/-- What a step tells is among its dispatches. -/
theorem Hub.chats_sends (a : Step) (h : Hub) :
    Sending.chats (sends a h) = ((dispatches a h).map (·.1)).filterMap Event.chat? := by
  unfold Sending.chats sends
  rw [← map_event_dispatch _ h, List.filterMap_map]
  rfl

/-- An operation tells the message that is due, and nothing when none is. -/
theorem Operation.chats_sends (hop : op.Tells d) (h : Hub) :
    Sending.chats (op.sends h) = d.toList := by
  cases d with
  | some m =>
    subst hop
    exact Hub.chats_sends _ h
  | none =>
    cases op with
    | broadcast r e =>
      refine (Hub.chats_sends (.broadcast r e) h).trans ?_
      have hnone : e.chat? = none := hop
      simp [Hub.dispatches, hnone]
    | pushTo c e =>
      refine (Hub.chats_sends (.pushTo c e) h).trans ?_
      have hnone : e.chat? = none := hop
      rw [Hub.dispatches_pushTo]
      split <;> simp [hnone]
    | broadcastPresence r s =>
      refine (Hub.chats_sends (.broadcastPresence r s) h).trans ?_
      cases s <;> rfl
    | pushCallParticipants c =>
      refine (Hub.chats_sends (.pushCallParticipants c) h).trans ?_
      simp only [Hub.dispatches]
      split <;> rfl
    | attach | detach | setInCall | roomExists | isMember | listMembers | persist
    | recentMessages | participants | callParticipants => rfl

/-- The messages of a room grow by what a turn stored there. -/
theorem World.messages_perform (op : Operation) (w : World) (r : RoomId) :
    (w.perform op).2.store.messages r
      = w.store.messages r
        ++ (Turn.stored? ⟨op, (w.perform op).1⟩).toList.filter (·.room = r) := by
  cases op with
  | persist r' u draft =>
    rcases w.perform_persist r' u draft with ⟨e, heq⟩ | heq
    · rw [heq]
      exact (List.append_nil _).symm
    · rw [heq]
      rcases w.store.persist_cases w.clock r' u draft with ⟨e, hrefused⟩ |
        ⟨m, store, hstored, -, hroom, -, hmessages⟩
      · rw [hrefused]
        exact (List.append_nil _).symm
      · rw [hstored]
        show store.messages r = w.store.messages r ++ List.filter _ [m]
        rw [hmessages]
        split
        next hrr => simp [hroom, hrr]
        next hrr => simp [hroom, hrr]
  | _ => exact (List.append_nil _).symm

end Telling

/-! ## The use cases keep the discipline -/

/-- A join stores nothing and tells no message. -/
theorem Membership.announces_join (limit : Nat) (h : Handle) : (join limit h).Announces none := by
  rw [join_eq]
  refine ⟨trivial, fun attached => ?_⟩
  cases attached with
  | false => exact rfl
  | true =>
    refine ⟨trivial, fun _ => ⟨trivial, fun recent => ?_⟩⟩
    cases recent with
    | ok ms => exact ⟨rfl, fun _ => ⟨trivial, fun _ => rfl⟩⟩
    | error e => exact ⟨trivial, fun _ => rfl⟩

theorem Membership.announces_leave (c : ConnectionId) : (leave c).Announces none := by
  rw [leave_eq]
  refine ⟨trivial, fun gone => ?_⟩
  cases gone with
  | none => exact rfl
  | some m => exact ⟨trivial, fun _ => rfl⟩

theorem Membership.announces_setCall (c : ConnectionId) (r : RoomId) (on : Bool) :
    (setCall c r on).Announces none := by
  rw [setCall_eq]
  refine ⟨trivial, fun changed => ?_⟩
  cases changed with
  | false => exact rfl
  | true => exact ⟨trivial, fun _ => rfl⟩

/-- A posting that stored a message tells it next; one that did not tells nothing. -/
theorem Posting.announces_post (r : RoomId) (u : UserId) (d : Draft) :
    (post r u d).Announces none := by
  rw [post_eq]
  refine ⟨trivial, fun stored => ?_⟩
  -- only a message that was stored is due, and it is told at once
  cases stored with
  | error e => exact rfl
  | ok m => exact ⟨rfl, fun _ => rfl⟩

/-- Sending a text is posting it, or nothing at all if its content is refused. -/
theorem Posting.announces_send (r : RoomId) (u : UserId) (content : String) :
    (send r u content).Announces none := by
  unfold send
  split
  next => exact rfl
  next => exact announces_post r u _

/-- A program that only reads stores nothing and tells nothing. -/
theorem Program.Reads.announces {α : Type} {p : Program α} (hp : p.Reads) :
    p.Announces none := by
  induction p with
  | done a => exact rfl
  | step op next ih =>
    obtain ⟨hreading, hnext⟩ := hp
    have hquiet : op.Tells none ∧ ∀ answer, Turn.stored? ⟨op, answer⟩ = none := by
      cases op <;> first | exact ⟨trivial, fun _ => rfl⟩ | cases hreading
    refine ⟨hquiet.1, fun answer => ?_⟩
    rw [hquiet.2 answer]
    exact ih answer (hnext answer)

/-- Every use case tells what it was handed or stores itself. -/
theorem Call.announces_program {k : Clients} (call : Call) :
    (call.program k).Announces call.handed? := by
  cases call with
  | join limit c => exact Membership.announces_join limit _
  | leave c => exact Membership.announces_leave c
  | joinCall c => exact Membership.announces_setCall c _ true
  | leaveCall c => exact Membership.announces_setCall c _ false
  | send r u content => exact Posting.announces_send r u content
  | post r u d => exact Posting.announces_post r u d
  | announce m => exact ⟨rfl, fun _ => rfl⟩
  | authorize who r => exact (Access.reads_authorize who r).announces
  | presence r => exact (Presence.reads_ofRoom r).announces
  | callPresence r => exact ⟨trivial, fun _ => rfl⟩

/-! ## The books -/

/-- Changing one entry of a list trades what was collected from it. -/
theorem perm_filterMap_set {α β : Type} {f : α → Option β} {l : List α} {i : Nat} {a b : α}
    (ha : l[i]? = some a) :
    ((f a).toList ++ (l.set i b).filterMap f).Perm (l.filterMap f ++ (f b).toList) := by
  have hcons : ∀ x (l : List α), (x :: l).filterMap f = (f x).toList ++ l.filterMap f := by
    intro x l
    cases hx : f x <;> simp [hx]
  induction l generalizing i with
  | nil => cases ha
  | cons x l ih =>
    cases i with
    | zero =>
      cases ha
      rw [List.set_cons_zero, hcons, hcons, List.append_assoc]
      exact List.Perm.append_left _ List.perm_append_comm
    | succ i =>
      have hrest := ih (i := i) ha
      rw [List.set_cons_succ, hcons, hcons, List.append_assoc]
      exact (List.perm_append_comm_assoc _ _ _).trans (hrest.append_left _)

/-- Whether a task has come to its end. -/
def Task.hasEnded (t : Task) : Bool :=
  match t.rest with
  | .done _ => true
  | .step .. => false

/-- The message due after a turn is the one it stored. -/
theorem Task.due_took {t : Task} {op : Operation} {next : op.Answer → Program t.call.Answer}
    {answer : op.Answer} : (t.took op next answer).due = Turn.stored? ⟨op, answer⟩ := by
  unfold due took
  rw [List.getLast?_concat]

namespace Scene

variable {k : Clients} {s s' : Scene} {r : RoomId}

/-- The messages that tasks still have to tell. -/
def dues (s : Scene) : List Message := s.tasks.filterMap Task.due

/-- The messages that tasks were handed to tell. -/
def handed (s : Scene) : List Message := s.tasks.filterMap (·.call.handed?)

/-- Every task keeps the discipline, and what is stored in a room or was handed in for it is
what was told there and what is due. -/
structure Balanced (s : Scene) : Prop where
  numbered : s.world.store.Numbered
  announces : ∀ t ∈ s.tasks, t.rest.Announces t.due
  books : ∀ r, (s.world.store.messages r ++ s.handed.filter (·.room = r)).Perm
    ((Sending.chats s.log ++ s.dues).filter (·.room = r))

theorem balanced_opening (outboxes : Std.ExtTreeMap ConnectionId Outbox)
    (seed : List Seed.Room) (clock : Instant) (outage : Outage) :
    (opening outboxes seed clock outage).Balanced where
  numbered := Store.numbered_ofSeed seed
  announces t ht := by cases ht
  books r := by
    show ((Store.ofSeed seed).messages r ++ []).Perm []
    rw [Store.messages_ofSeed, List.append_nil]

section Advancing

variable {i : Nat} {t : Task} {op : Operation} {next : op.Answer → Program t.call.Answer}

theorem handed_advanced (ht : s.tasks[i]? = some t) :
    ((s.advanced i t op next).handed).Perm s.handed := by
  have htrade := perm_filterMap_set (f := fun t : Task => t.call.handed?)
    (b := t.took op next (s.world.perform op).1) ht
  exact (List.perm_append_left_iff _).mp (htrade.trans List.perm_append_comm)

/-- A task that advances tells what it had due, and has due what it stores. -/
theorem books_advanced (hs : s.Balanced) (ht : s.tasks[i]? = some t) (hop : op.Tells t.due)
    (r : RoomId) :
    ((s.advanced i t op next).world.store.messages r
        ++ (s.advanced i t op next).handed.filter (·.room = r)).Perm
      ((Sending.chats (s.advanced i t op next).log
        ++ (s.advanced i t op next).dues).filter (·.room = r)) := by
  have hchats : Sending.chats (s.advanced i t op next).log
      = Sending.chats s.log ++ t.due.toList := by
    rw [← Operation.chats_sends hop s.world.hub]
    exact List.filterMap_append
  have htrade : (t.due.toList ++ (s.advanced i t op next).dues).Perm
      (s.dues ++ (Turn.stored? ⟨op, (s.world.perform op).1⟩).toList) := by
    rw [← Task.due_took]
    exact perm_filterMap_set ht
  have hmessages : (s.advanced i t op next).world.store.messages r = _ :=
    World.messages_perform op s.world r
  rw [hmessages, hchats, List.append_assoc, List.append_assoc]
  refine (((handed_advanced ht).filter _).append_left _ |>.append_left _).trans ?_
  -- what the operation stored is set apart, the books are as they were, and it is due now
  refine (List.perm_append_comm.append_left _).trans ?_
  rw [← List.append_assoc]
  refine ((hs.books r).append_right _).trans ?_
  rw [← List.filter_append, List.append_assoc]
  exact (htrade.symm.append_left _).filter _

end Advancing

/-- What is stored and handed in stays what is told and due, whatever a move does. -/
theorem balanced_change (hs : s.Balanced) (hc : Change k s s') : s'.Balanced := by
  cases hc with
  | start call =>
    refine ⟨hs.numbered, fun u hu => ?_, fun r => ?_⟩
    · rcases List.mem_append.mp hu with hu | hu
      · exact hs.announces u hu
      · rw [List.mem_singleton.mp hu]
        exact call.announces_program
    · -- the task has due what it was handed
      show (s.world.store.messages r ++ List.filter _ (List.filterMap _ (s.tasks ++ _))).Perm
        (List.filter _ (_ ++ List.filterMap _ (s.tasks ++ _)))
      rw [List.filterMap_append, List.filterMap_append, List.filter_append, ← List.append_assoc,
        ← List.append_assoc, List.filter_append]
      exact (hs.books r).append_right _
  | @advance i t op next ht hrest =>
    have hlaw := hs.announces t (List.mem_of_getElem? ht)
    rw [hrest] at hlaw
    refine ⟨World.numbered_perform hs.numbered, fun u hu => ?_, books_advanced hs ht hlaw.1⟩
    rcases mem_tasks_advanced hu with hu | rfl
    · exact hs.announces u hu
    · rw [Task.due_took]
      exact hlaw.2 _
  | outside a ha => exact ⟨hs.numbered, hs.announces, hs.books⟩
  | around w hhub hmessages hlast =>
    refine ⟨hs.numbered.congr hmessages hlast, hs.announces, fun r => ?_⟩
    show (w.store.messages r ++ _).Perm _
    rw [hmessages]
    exact hs.books r

/-- At every moment of every run, what is stored in a room or was handed in for it is what
was told there and what is due. -/
theorem balanced_run (hs : s.Balanced) (moves : List Move) : (s.run k moves).Balanced :=
  run_induction hs (fun _ _ => balanced_change) moves

section Ended

variable (hs : s.Balanced) (hended : ∀ t ∈ s.tasks, t.hasEnded = true)
  (hcalls : ∀ t ∈ s.tasks, t.call.handed? = none)

include hs hended in
/-- Nothing is due when all tasks have ended. -/
theorem Balanced.dues_eq_nil : s.dues = [] := by
  refine List.filterMap_eq_nil_iff.mpr fun t ht => ?_
  have hlaw := hs.announces t ht
  have hend := hended t ht
  unfold Task.hasEnded at hend
  split at hend
  next a ha =>
    rw [ha] at hlaw
    exact hlaw
  next => cases hend

include hs hended hcalls

/-- When every task has ended and none was handed a message, the messages told to a room are those
stored in it, each as often. -/
theorem Balanced.chats_perm (r : RoomId) :
    ((Sending.chats s.log).filter (·.room = r)).Perm (s.world.store.messages r) := by
  have hbooks := hs.books r
  have hhanded : s.handed = [] := List.filterMap_eq_nil_iff.mpr hcalls
  rw [hs.dues_eq_nil hended, hhanded, List.append_nil, List.filter_nil, List.append_nil] at hbooks
  exact hbooks.symm

/-- No message is told twice, since none is stored twice. -/
theorem Balanced.nodup_chats : (Sending.chats s.log).Nodup := by
  rw [List.nodup_iff_count]
  intro m
  have hstored : (s.world.store.messages m.room).Nodup :=
    (hs.numbered.increasing m.room).imp fun hlt heq => by
      rw [heq] at hlt
      omega
  calc (Sending.chats s.log).count m
      = ((Sending.chats s.log).filter (·.room = m.room)).count m := by
        rw [List.count_filter (by simp)]
    _ = (s.world.store.messages m.room).count m := (hs.chats_perm hended hcalls m.room).count_eq m
    _ ≤ 1 := List.nodup_iff_count.mp hstored m

end Ended

/-! ## Every text and every run -/

/-- A text that is sent in one go, to any store and from any hub that can come about, is
stored and then told to its room, and nothing else changes; or it is refused for one of the
reasons there are, and nothing changes at all. And however tasks step in between each other,
and whenever the store fails: once all have ended, and none of them was handed a message to
tell, what was told to each room is what is stored there, each message once. -/
theorem chats_are_stored_messages :
    (∀ (outboxes : Std.ExtTreeMap ConnectionId Outbox) (steps : List Hub.Step) (store : Store)
        (clock : Instant) (outage : Outage) (r : RoomId) (u : UserId) (content : String),
      let w : World := ⟨Hub.run steps (Hub.idle outboxes), store, clock, outage⟩
      let sending := Posting.send r u content
      (∀ m, (sending.run w).1 = .ok m → w.Announced (sending.run w).2 r u content m
        (sending.turns w) (sending.sends w)) ∧
      (∀ e, (sending.run w).1 = .error e → (sending.run w).2 = w ∧ sending.sends w = []) ∧
      ∀ e, (sending.run w).1 = .error e ↔ w.objection? r u content = some e) ∧
    ∀ (k : Clients) (outboxes : Std.ExtTreeMap ConnectionId Outbox) (seed : List Seed.Room)
        (clock : Instant) (outage : Outage) (moves : List Move),
      let s := (opening outboxes seed clock outage).run k moves
      (∀ t ∈ s.tasks, t.hasEnded = true) → (∀ t ∈ s.tasks, t.call.handed? = none) →
      (∀ r, ((Sending.chats s.log).filter (·.room = r)).Perm (s.world.store.messages r)) ∧
        (Sending.chats s.log).Nodup := by
  refine ⟨fun outboxes steps store clock outage r u content => ?_,
    fun k outboxes seed clock outage moves hended hcalls => ?_⟩
  · have hg : (Hub.run steps (Hub.idle outboxes)).registry.Mirrored :=
      Hub.mirrored_run steps Registry.mirrored_empty
    intro w sending
    cases hobjection : w.objection? r u content with
    | some e =>
      obtain ⟨hrun, hsends⟩ := Posting.run_send_of_objection hobjection
      rw [hrun]
      refine ⟨fun m hm => (by cases hm), fun e' he' => ⟨rfl, hsends⟩, fun e' => ?_⟩
      simp only [Except.error.injEq, Option.some.injEq]
    | none =>
      obtain ⟨m, hrun, hannounced⟩ := Posting.run_send_of_free hg hobjection
      rw [hrun]
      refine ⟨fun m' hm' => ?_, fun e he => (by cases he), fun e => ?_⟩
      · cases hm'
        exact hannounced
      · simp only [reduceCtorEq]
  · have hs := balanced_run (k := k) (balanced_opening outboxes seed clock outage) moves
    exact ⟨hs.chats_perm hended hcalls, hs.nodup_chats hended hcalls⟩

/-- Three texts: the second finds the store out of order, and the third is stored and told
before the first is told. -/
def crossing : List Move :=
  [.start (.send ⟨⟨7⟩⟩ ⟨⟨5⟩⟩ "first"), .start (.send ⟨⟨7⟩⟩ ⟨⟨5⟩⟩ "second"),
    .start (.send ⟨⟨7⟩⟩ ⟨⟨5⟩⟩ "third"), .advance 0,
    .setOutage (Outage.none.set .persist (some "down")), .advance 1, .setOutage .none,
    .advance 2, .advance 2, .advance 0]

/-- A room with one member. -/
def lobby : List Seed.Room := [⟨⟨⟨7⟩⟩, "lobby", [⟨⟨⟨5⟩⟩, "ann"⟩]⟩]

/-- The one connection is that member's. -/
def onlooker : Clients := fun _ => ⟨⟨⟨7⟩⟩, ⟨⟨⟨5⟩⟩, "ann"⟩⟩

/-- The outbox of the one connection. -/
def onlookerOutbox : Std.ExtTreeMap ConnectionId Outbox :=
  Std.ExtTreeMap.insert ∅ ⟨⟨1⟩⟩ ⟨4, [], .listening, false, by decide⟩

/-- What a text of the member becomes. -/
def ofAnn (number : Int) (content : String) : Message :=
  ⟨number, ⟨⟨7⟩⟩, ⟨⟨5⟩⟩, "ann", content, .text, none, .epoch⟩

/-- The scene after the three texts. -/
def crossingScene : Scene := (opening onlookerOutbox lobby .epoch .none).run onlooker crossing

/-- A text that is stored, one that finds the store out of order, and two that cross between storing
and telling. -/
theorem chats_are_stored_messages_crossing :
    (let w : World := ⟨Hub.run [.attach (onlooker.handle ⟨⟨1⟩⟩)] (Hub.idle onlookerOutbox),
        Store.ofSeed lobby, .epoch, .none⟩
      let sending := Posting.send ⟨⟨7⟩⟩ ⟨⟨5⟩⟩ "first"
      w.Announced (sending.run w).2 ⟨⟨7⟩⟩ ⟨⟨5⟩⟩ "first" (ofAnn 1 "first") (sending.turns w)
        (sending.sends w)) ∧
      (let w : World := ⟨Hub.run [.attach (onlooker.handle ⟨⟨1⟩⟩)] (Hub.idle onlookerOutbox),
        Store.ofSeed lobby, .epoch, Outage.none.set .persist (some "down")⟩
      let sending := Posting.send ⟨⟨7⟩⟩ ⟨⟨5⟩⟩ "first"
      (sending.run w).2 = w ∧ sending.sends w = []) ∧
      crossingScene.world.store.messages ⟨⟨7⟩⟩ = [ofAnn 1 "first", ofAnn 2 "third"] ∧
      Sending.chats crossingScene.log = [ofAnn 2 "third", ofAnn 1 "first"] ∧
      ((Sending.chats crossingScene.log).filter (·.room = ⟨⟨7⟩⟩)).Perm
        (crossingScene.world.store.messages ⟨⟨7⟩⟩) := by
  obtain ⟨hsend, hrun⟩ := chats_are_stored_messages
  refine ⟨?_, ?_, by decide +kernel, by decide +kernel, ?_⟩
  · exact (hsend _ _ _ _ _ _ _ _).1 _ rfl
  · exact (hsend _ _ _ _ _ _ _ _).2.1 (.persist (.unavailable "down")) rfl
  · exact (hrun onlooker onlookerOutbox lobby .epoch .none crossing (by decide +kernel)
      (by decide +kernel)).1 _

end Scene

end RoomHub
