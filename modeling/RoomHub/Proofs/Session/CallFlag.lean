import RoomHub.Proofs.Hub.Snapshots
import RoomHub.Proofs.Interludes
import RoomHub.Session.ReadSide

/-!
# The call flag that a reading side keeps

The reading side remembers whether its connection is in the call, and asks the hub only when a
frame would change that. A plain handler would ask for every call frame. The two do the same,
as long as nobody else takes the connection out of its room or touches its flag: what is
remembered is what the registry says, so the questions that are left out are those that the hub
answers with `false` and without doing anything.

> `Flagged.undergoAll`: others leave the flag in the registry alone;
> `Flagged.act`: one text keeps what is remembered right, and does what the plain handler does;
> `remembered_flag_is_right`: so do any texts, with anything else between their operations.
-/

namespace RoomHub

open Program (step done amid_step amid_map undergoAll_gaps)

/-! ## The entry of a connection -/

/-- A registered connection keeps its entry through a step that neither detaches it nor touches
its flag. -/
theorem Hub.member?_act_of_spared {h : Hub} {a : Hub.Step} {c : ConnectionId} {m : Member}
    (hg : h.registry.Mirrored) (hm : h.registry.member? c = some m)
    (ha : (Deed.onHub a).Spares c) : (Hub.act a h).registry.member? c = some m := by
  obtain ⟨hdetach, hflag⟩ := ha
  cases a with
  | attach handle =>
    show (h.attach handle).2.registry.member? c = some m
    rcases attach_cases hg handle with ⟨-, heq⟩ | ⟨hfree, heq⟩
    · rw [heq]
      exact hm
    · have hne : handle.id ≠ c := by
        rintro rfl
        rw [hfree] at hm
        cases hm
      rw [heq, Registry.attached_member? hg hfree, if_neg hne]
      exact hm
  | detach d =>
    have hne : d ≠ c := fun hdc => hdetach (hdc ▸ rfl)
    show (h.detach d).2.registry.member? c = some m
    rcases detach_cases hg d with ⟨-, heq⟩ | ⟨md, hd, heq⟩
    · rw [heq]
      exact hm
    · rw [heq, Registry.detached_member? hg hd, if_neg hne]
      exact hm
  | setInCall d on =>
    have hne : d ≠ c := fun hdc => hflag on (hdc ▸ rfl)
    show (h.setInCall d on).2.registry.member? c = some m
    rcases setInCall_cases hg d on with ⟨-, heq⟩ | ⟨md, hd, -, heq⟩
    · rw [heq]
      exact hm
    · rw [heq, Registry.flagged_member? hg hd, if_neg hne]
      exact hm
  | broadcast | broadcastPresence | pushTo | pushCallParticipants | deliver | receive
  | closeReceiver | dropReceiver | cancel =>
    rw [(act_presence rfl h).1]
    exact hm

/-- A connection is registered, and the registry says whether it is in the call. -/
structure World.Flagged (k : Handle) (inCall : Bool) (w : World) : Prop where
  mirrored : w.hub.registry.Mirrored
  entry : w.hub.registry.member? k.id = some ⟨k, inCall⟩

namespace World.Flagged

variable {k : Handle} {b : Bool} {w : World}

theorem of_registry_eq {w' : World} (hf : w.Flagged k b)
    (hreg : w'.hub.registry = w.hub.registry) : w'.Flagged k b := by
  obtain ⟨hg, hm⟩ := hf
  exact ⟨hreg ▸ hg, hreg ▸ hm⟩

/-- Others leave the flag of a connection alone. -/
theorem undergo (hf : w.Flagged k b) {d : Deed} (hd : d.Spares k.id) :
    (w.undergo d).Flagged k b := by
  cases d with
  | onHub a =>
    exact ⟨Hub.mirrored_act hf.mirrored, Hub.member?_act_of_spared hf.mirrored hf.entry hd⟩
  | persist | createRoom | addMember | setOutage | setClock =>
    exact hf.of_registry_eq (by rw [World.hub_undergo rfl])

/-- Others who leave a connection alone leave its flag right. -/
theorem undergoAll (hf : w.Flagged k b) {ds : List Deed} (hds : ∀ d ∈ ds, d.Spares k.id) :
    (w.undergoAll ds).Flagged k b := by
  induction ds generalizing w with
  | nil => exact hf
  | cons d ds ih =>
    obtain ⟨hd, hrest⟩ := List.forall_mem_cons.mp hds
    exact ih (hf.undergo hd) hrest

/-- An operation on the hub that is no change of membership leaves the flag alone. -/
theorem perform (hf : w.Flagged k b) (op : Operation)
    (hop : ∀ a, op.step? = some a → a.isMembership = false) : (w.perform op).2.Flagged k b := by
  refine hf.of_registry_eq ?_
  rw [World.hub_perform]
  unfold Operation.hubAfter
  split
  next a ha => exact (Hub.act_presence (hop a ha) w.hub).1
  next => rfl

/-- Asking for what is so already changes nothing. -/
theorem perform_same (hf : w.Flagged k b) :
    w.perform (.setInCall k.id b) = (false, w) := by
  have hsame : w.hub.setInCall k.id b = (false, w.hub) := by
    rcases Hub.setInCall_cases hf.mirrored k.id b with ⟨-, heq⟩ | ⟨m, hm, hnot, -⟩
    · exact heq
    · rw [hf.entry] at hm
      cases hm
      cases b <;> cases hnot
  have hperform : w.perform (.setInCall k.id b) =
      ((w.hub.setInCall k.id b).1, w.withHub (w.hub.setInCall k.id b).2) := rfl
  rw [hperform, hsame]
  rfl

/-- Asking for a change makes it. -/
theorem perform_change (hf : w.Flagged k b) :
    (w.perform (.setInCall k.id !b)).1 = true ∧
      (w.perform (.setInCall k.id !b)).2.Flagged k !b := by
  have hg : (w.perform (.setInCall k.id !b)).2.hub.registry.Mirrored :=
    Hub.mirrored_act (a := .setInCall k.id !b) hf.mirrored
  rcases Hub.setInCall_cases hf.mirrored k.id !b with ⟨hsame, -⟩ | ⟨m, hm, -, heq⟩
  · have := hsame _ hf.entry
    cases b <;> cases this
  · rw [hf.entry] at hm
    cases hm
    refine ⟨congrArg (·.1) heq, hg, ?_⟩
    show (w.hub.setInCall k.id !b).2.registry.member? k.id = _
    rw [heq]
    exact (Registry.flagged_member? hf.mirrored hf.entry).trans (if_pos rfl)

end World.Flagged

/-! ## The plain handler -/

namespace ReadSide

/-- What a call frame asks for: to be in the call or out of it. -/
def wish? : ClientFrame → Option Bool
  | .chat _ => none
  | .joinCall => some true
  | .leaveCall => some false

/-- Acts upon a frame without remembering anything. -/
def plainly (k : Handle) : ClientFrame → Program Unit
  | .chat content => do
    let _ ← Posting.send k.room k.participant.user content
    return ()
  | .joinCall => do
    let _ ← Membership.joinCall k.id k.room
    return ()
  | .leaveCall => do
    let _ ← Membership.leaveCall k.id k.room
    return ()

/-- Acts upon a text without remembering anything. -/
def plainlyOnText (k : Handle) (text : String) : Program Unit :=
  match ClientFrame.parse? text with
  | some f => plainly k f
  | none => return ()

/-- Whether a connection is in the call after a text. -/
def callAfter (before : Bool) (text : String) : Bool :=
  ((ClientFrame.parse? text).bind wish?).getD before

end ReadSide

/-- Whether an event shows who is in the call. -/
def Event.isCallRoster (e : Event) : Bool := (Scope.call.snapshot? e).isSome

namespace Program.Course

variable {α β : Type}

/-- How many times a program told a room who is in its call. -/
def callBroadcasts (r : RoomId) (x : Course α) : Nat :=
  x.turns.countP (·.op = .broadcastPresence r .call)

/-- How many of the things that a program sent show who is in the call. -/
def callRosters (x : Course α) : Nat := x.sent.countP (·.event.isCallRoster)

end Program.Course

/-! ## Chats -/

/-- An operation that stores a message or tells one. -/
def Operation.IsPosting : Operation → Prop
  | .persist .. => True
  | .broadcast _ (.chat _) => True
  | _ => False

/-- Sending a text only stores and tells messages. -/
theorem Posting.only_send (r : RoomId) (u : UserId) (content : String) :
    (send r u content).Only Operation.IsPosting := by
  unfold send
  split
  next => exact trivial
  next c _ =>
    rw [post_eq]
    refine ⟨trivial, fun stored => ?_⟩
    cases stored with
    | error e => exact trivial
    | ok m => exact ⟨trivial, fun _ => trivial⟩

namespace Operation.IsPosting

variable {op : Operation}

/-- Storing and telling messages registers nobody and sets no flag. -/
theorem not_isMembership (hop : op.IsPosting) :
    ∀ a, op.step? = some a → a.isMembership = false := by
  cases op with
  | persist => exact fun a ha => nomatch ha
  | broadcast r e =>
    rintro a ⟨⟩
    rfl
  | roomExists | isMember | listMembers | recentMessages | attach | detach | setInCall
  | broadcastPresence | pushTo | pushCallParticipants | participants | callParticipants =>
    exact hop.elim

theorem ne_broadcastPresence (hop : op.IsPosting) (r : RoomId) (s : Scope) :
    op ≠ .broadcastPresence r s := by
  rintro rfl
  exact hop

/-- Storing and telling messages shows nobody who is in the call. -/
theorem callRosters_sends (hop : op.IsPosting) (h : Hub) :
    (op.sends h).countP (·.event.isCallRoster) = 0 := by
  cases op with
  | persist => rfl
  | broadcast r e =>
    cases e with
    | chat m => rfl
    | history | participants | callParticipants => exact hop.elim
  | roomExists | isMember | listMembers | recentMessages | attach | detach | setInCall
  | broadcastPresence | pushTo | pushCallParticipants | participants | callParticipants =>
    exact hop.elim

end Operation.IsPosting

section Texts

variable {α : Type} {k : Handle} {b : Bool} {w : World} {gaps : List (List Deed)}

/-- A program that posts and does nothing else leaves the flag alone, and shows nobody who is in
the call. -/
theorem Program.amid_of_posting {p : Program α} (hp : p.Only Operation.IsPosting)
    (hf : w.Flagged k b) (hgaps : Program.Interludes (·.Spares k.id) gaps) :
    (p.amid gaps w).world.Flagged k b ∧ (p.amid gaps w).callBroadcasts k.room = 0 ∧
      (p.amid gaps w).callRosters = 0 := by
  induction p generalizing gaps w with
  | done a => exact ⟨hf.undergoAll hgaps.flatten, rfl, rfl⟩
  | step op next ih =>
    obtain ⟨hop, hnext⟩ := hp
    have hbefore := hf.undergoAll hgaps.headD
    obtain ⟨hflagged, hbroadcasts, hrosters⟩ := ih _ (hnext _)
      (hbefore.perform op hop.not_isMembership) hgaps.tail
    rw [amid_step]
    refine ⟨hflagged, ?_, ?_⟩
    · unfold Course.callBroadcasts
      rw [Course.cons_turns, List.countP_cons_of_neg]
      · exact hbroadcasts
      · simp [hop.ne_broadcastPresence k.room .call]
    · unfold Course.callRosters
      rw [Course.cons_sent, List.countP_append, hop.callRosters_sends]
      rw [Nat.zero_add]
      exact hrosters

/-! ## Call frames -/

/-- Asking for what is so already leaves no trace but the question. -/
theorem Membership.amid_setCall_same (hf : w.Flagged k b)
    (hgaps : Program.Interludes (·.Spares k.id) gaps) :
    (setCall k.id k.room b).amid gaps w =
      ⟨false, [⟨.setInCall k.id b, false⟩], [], w.undergoAll gaps.flatten⟩ := by
  have hsame := (hf.undergoAll hgaps.headD).perform_same
  rw [setCall_eq, amid_step]
  simp only [hsame, Program.amid_done, undergoAll_gaps]
  rfl

/-- Asking for a change makes it, and tells the room once. -/
theorem Membership.amid_setCall_change (hf : w.Flagged k b)
    (hgaps : Program.Interludes (·.Spares k.id) gaps) :
    let x := (setCall k.id k.room !b).amid gaps w
    x.world.Flagged k (!b) ∧ x.callBroadcasts k.room = 1 ∧ x.callRosters = 1 := by
  obtain ⟨hyes, hafter⟩ := (hf.undergoAll hgaps.headD).perform_change
  have hsecond := hafter.undergoAll hgaps.tail.headD
  rw [setCall_eq, amid_step]
  simp only [hyes, amid_step, Program.amid_done]
  refine ⟨?_, ?_, ?_⟩
  · have hquiet : ∀ a, (Operation.broadcastPresence k.room .call).step? = some a →
        a.isMembership = false := by
      rintro a ⟨⟩
      rfl
    exact (hsecond.perform _ hquiet).undergoAll hgaps.tail.tail.flatten
  · simp [Program.Course.callBroadcasts]
  · rfl

/-! ## One text -/

namespace ReadSide

/-- What came of one text when the flag is remembered, and when it is not. -/
structure Agree (k : Handle) (before : Bool) (text : String) (x : Program.Course Bool)
    (y : Program.Course Unit) : Prop where
  remembered : x.result = callAfter before text
  flagged : x.world.Flagged k x.result
  world : x.world = y.world
  sent : x.sent = y.sent
  broadcasts : x.callBroadcasts k.room = if callAfter before text = before then 0 else 1
  rosters : x.callRosters = if callAfter before text = before then 0 else 1

/-- After a frame a connection is where the frame asks it to be, or where it was. -/
theorem callAfter_eq {text : String} {f : ClientFrame} (hparse : ClientFrame.parse? text = some f) :
    callAfter b text = (wish? f).getD b := by
  unfold callAfter
  rw [hparse]
  rfl

/-- A text that is no frame leaves a connection where it is. -/
theorem callAfter_eq_self {text : String} (hparse : ClientFrame.parse? text = none) :
    callAfter b text = b := by
  unfold callAfter
  rw [hparse]
  rfl

/-- A text that asks for no change. -/
theorem Agree.of_same {text : String} {x : Program.Course Bool} {y : Program.Course Unit}
    (hafter : callAfter b text = b) (hresult : x.result = b) (hflagged : x.world.Flagged k b)
    (hworld : x.world = y.world) (hsent : x.sent = y.sent)
    (hbroadcasts : x.callBroadcasts k.room = 0) (hrosters : x.callRosters = 0) :
    Agree k b text x y where
  remembered := hresult.trans hafter.symm
  flagged := hresult ▸ hflagged
  world := hworld
  sent := hsent
  broadcasts := by rw [hbroadcasts, if_pos hafter]
  rosters := by rw [hrosters, if_pos hafter]

/-- A frame that would change nothing is answered by what is remembered. -/
theorem actOn_of_same {f : ClientFrame} (hwish : wish? f = some b) : actOn k b f = done b := by
  cases f with
  | chat => cases hwish
  | joinCall | leaveCall =>
    cases hwish
    rfl

/-- Any other call frame is a question to the hub. -/
theorem actOn_of_change {f : ClientFrame} (hwish : wish? f = some !b) :
    actOn k b f = Membership.setCall k.id k.room (!b) >>= fun _ => pure !b := by
  cases f with
  | chat => cases hwish
  | joinCall | leaveCall =>
    cases b <;> cases hwish
    rfl

theorem plainly_of_wish {f : ClientFrame} {on : Bool} (hwish : wish? f = some on) :
    plainly k f = Membership.setCall k.id k.room on >>= fun _ => pure () := by
  cases f with
  | chat => cases hwish
  | joinCall | leaveCall =>
    cases hwish
    rfl

/-- One text: what is remembered stays right, and nothing is missed. -/
theorem agree (hf : w.Flagged k b) (hgaps : Program.Interludes (·.Spares k.id) gaps)
    (text : String) :
    Agree k b text ((actOnText k b text).amid gaps w) ((plainlyOnText k text).amid gaps w) := by
  have hend := hf.undergoAll hgaps.flatten
  unfold actOnText plainlyOnText
  cases hparse : ClientFrame.parse? text with
  | none => exact .of_same (callAfter_eq_self hparse) rfl hend rfl rfl rfl rfl
  | some f =>
    have hafter := callAfter_eq (b := b) hparse
    cases hwish : wish? f with
    | none =>
      -- a chat is handled alike, whatever is remembered
      obtain ⟨content, rfl⟩ : ∃ content, f = .chat content := by
        cases f with
        | chat content => exact ⟨content, rfl⟩
        | joinCall | leaveCall => cases hwish
      obtain ⟨hflagged, hbroadcasts, hrosters⟩ :=
        Program.amid_of_posting (Posting.only_send k.room k.participant.user content) hf hgaps
      have hx := amid_map (Posting.send k.room k.participant.user content) (fun _ => b) gaps w
      have hy := amid_map (Posting.send k.room k.participant.user content) (fun _ => ()) gaps w
      show Agree k b text ((Posting.send _ _ _ >>= fun _ => pure b).amid gaps w)
        ((Posting.send _ _ _ >>= fun _ => pure ()).amid gaps w)
      rw [hx, hy]
      exact .of_same hafter rfl hflagged rfl rfl hbroadcasts hrosters
    | some on =>
      rw [hwish, Option.getD_some] at hafter
      show Agree k b text ((actOn k b f).amid gaps w) ((plainly k f).amid gaps w)
      rw [plainly_of_wish hwish, amid_map]
      by_cases hon : on = b
      · -- the question that is left out would have been answered with `false`
        subst hon
        rw [actOn_of_same hwish, Membership.amid_setCall_same hf hgaps]
        exact .of_same hafter rfl hend rfl rfl rfl rfl
      · obtain rfl : on = !b := Bool.eq_not_of_ne hon
        obtain ⟨hflagged, hbroadcasts, hrosters⟩ := Membership.amid_setCall_change hf hgaps
        rw [actOn_of_change hwish, amid_map]
        have hchange : callAfter b text ≠ b := by
          rw [hafter]
          cases b <;> exact Bool.noConfusion
        exact
          { remembered := hafter.symm
            flagged := hflagged
            world := rfl
            sent := rfl
            broadcasts := by
              rw [if_neg hchange]
              exact hbroadcasts
            rosters := by
              rw [if_neg hchange]
              exact hrosters }

/-! ## Any texts -/

/-- A text, and what others do while it is handled. -/
structure Incoming where
  text : String
  gaps : List (List Deed)

/-- What comes of texts, one after the other, when the flag is remembered. -/
def handled (k : Handle) : Bool → World → List Incoming → List (Program.Course Bool)
  | _, _, [] => []
  | inCall, w, i :: rest =>
    let x := (actOnText k inCall i.text).amid i.gaps w
    x :: handled k x.result x.world rest

/-- What comes of them when nothing is remembered. -/
def handledPlainly (k : Handle) : World → List Incoming → List (Program.Course Unit)
  | _, [] => []
  | w, i :: rest =>
    let y := (plainlyOnText k i.text).amid i.gaps w
    y :: handledPlainly k y.world rest

/-- Whether a connection is in the call after each of some texts. -/
def callStates : Bool → List String → List Bool
  | _, [] => []
  | before, text :: texts => callAfter before text :: callStates (callAfter before text) texts

/-- For each text, one if it takes the connection into the call or out of it. -/
def callChanges : Bool → List String → List Nat
  | _, [] => []
  | before, text :: texts =>
    (if callAfter before text = before then 0 else 1) :: callChanges (callAfter before text) texts

/-- What comes of texts when the flag is remembered, and when it is not. -/
structure AgreeAll (k : Handle) (before : Bool) (texts : List String)
    (xs : List (Program.Course Bool)) (ys : List (Program.Course Unit)) : Prop where
  worlds : xs.map (·.world) = ys.map (·.world)
  sent : xs.map (·.sent) = ys.map (·.sent)
  remembered : xs.map (·.result) = callStates before texts
  registered : ∀ x ∈ xs, x.world.hub.registry.member? k.id = some ⟨k, x.result⟩
  broadcasts : xs.map (·.callBroadcasts k.room) = callChanges before texts
  rosters : xs.map (·.callRosters) = callChanges before texts

/-- What agrees for the first text and for the rest agrees for all. -/
theorem AgreeAll.cons {text : String} {texts : List String} {x : Program.Course Bool}
    {y : Program.Course Unit} {xs : List (Program.Course Bool)} {ys : List (Program.Course Unit)}
    (hfirst : Agree k b text x y) (hrest : AgreeAll k x.result texts xs ys) :
    AgreeAll k b (text :: texts) (x :: xs) (y :: ys) := by
  have hresult := hfirst.remembered
  rw [hresult] at hrest
  exact
    { worlds := congrArg₂ List.cons hfirst.world hrest.worlds
      sent := congrArg₂ List.cons hfirst.sent hrest.sent
      remembered := congrArg₂ List.cons hresult hrest.remembered
      registered := List.forall_mem_cons.mpr ⟨hfirst.flagged.entry, hrest.registered⟩
      broadcasts := congrArg₂ List.cons hfirst.broadcasts hrest.broadcasts
      rosters := congrArg₂ List.cons hfirst.rosters hrest.rosters }

/-- Any texts, one after the other. -/
theorem agreeAll (hf : w.Flagged k b) {incoming : List Incoming}
    (hspared : ∀ i ∈ incoming, Program.Interludes (·.Spares k.id) i.gaps) :
    AgreeAll k b (incoming.map (·.text)) (handled k b w incoming)
      (handledPlainly k w incoming) := by
  induction incoming generalizing b w with
  | nil => exact ⟨rfl, rfl, rfl, fun x hx => (nomatch hx), rfl, rfl⟩
  | cons i rest ih =>
    obtain ⟨hgaps, hrest⟩ := List.forall_mem_cons.mp hspared
    have hfirst := agree hf hgaps i.text
    have hothers := ih hfirst.flagged hrest
    simp only [handled, handledPlainly, ← hfirst.world]
    exact .cons hfirst hothers

/-- A connection that is registered and out of the call, and texts from it, with anything in
between that neither takes it out of its room nor touches its flag. After each text what the
reading side remembers is what the registry says; the worlds and all that was sent are those of
the handler that remembers nothing; and the room is told who is in its call for those texts that
take the connection into the call or out of it, once each, and for no others. -/
theorem remembered_flag_is_right (outboxes : Std.ExtTreeMap ConnectionId Outbox)
    (steps : List Hub.Step) (store : Store) (clock : Instant) (outage : Outage) (k : Handle)
    (hin : (Hub.run steps (Hub.idle outboxes)).registry.member? k.id = some ⟨k, false⟩)
    (incoming : List Incoming)
    (hspared : ∀ i ∈ incoming, Program.Interludes (·.Spares k.id) i.gaps) :
    let w : World := ⟨Hub.run steps (Hub.idle outboxes), store, clock, outage⟩
    AgreeAll k false (incoming.map (·.text)) (handled k false w incoming)
      (handledPlainly k w incoming) :=
  agreeAll ⟨Hub.mirrored_run steps Registry.mirrored_empty, hin⟩ hspared

/-- Ann's first device. -/
def firstDevice : Handle := ⟨⟨⟨1⟩⟩, ⟨⟨7⟩⟩, ⟨⟨⟨5⟩⟩, "ann"⟩⟩

/-- Both devices of ann are connected. -/
def twoDevices : List Hub.Step :=
  [.attach firstDevice, .attach ⟨⟨⟨2⟩⟩, ⟨⟨7⟩⟩, ⟨⟨⟨5⟩⟩, "ann"⟩⟩]

/-- The first device asks twice to be let into the call, and for no message at all; meanwhile
the second one enters the call and goes. -/
def insisting : List Incoming :=
  [⟨"\x7b\"type\":\"call_join\"\x7d", [[.onHub (.setInCall ⟨⟨2⟩⟩ true)]]⟩,
    ⟨"\x7b\"type\":\"chat\"\x7d", []⟩,
    ⟨"\x7b\"type\":\"call_join\"\x7d", [[.onHub (.detach ⟨⟨2⟩⟩)], [.setOutage .none]]⟩,
    ⟨"\x7b\"type\":\"call_leave\"\x7d", []⟩]

/-- Ann's first device asks twice to be let into the call while her second one comes and goes. -/
theorem remembered_flag_is_right_two_devices :
    (Hub.run twoDevices (Hub.idle ∅)).registry.member? firstDevice.id = some ⟨firstDevice, false⟩ ∧
      (∀ i ∈ insisting, Program.Interludes (·.Spares firstDevice.id) i.gaps) ∧
      (let w : World := ⟨Hub.run twoDevices (Hub.idle ∅), .empty, .epoch, .none⟩
       (handled firstDevice false w insisting).map (·.result) = [true, true, true, false] ∧
       (handled firstDevice false w insisting).map (·.callBroadcasts firstDevice.room) =
          [1, 0, 0, 1]) := by
  have hin : (Hub.run twoDevices (Hub.idle ∅)).registry.member? firstDevice.id =
      some ⟨firstDevice, false⟩ := by decide +kernel
  have hspared : ∀ i ∈ insisting, Program.Interludes (·.Spares firstDevice.id) i.gaps := by
    unfold Program.Interludes
    decide +kernel
  have hagree := remembered_flag_is_right ∅ twoDevices .empty .epoch .none firstDevice hin insisting
    hspared
  exact ⟨hin, hspared, hagree.remembered.trans (by decide +kernel),
    hagree.broadcasts.trans (by decide +kernel)⟩

end ReadSide

end Texts

end RoomHub
