import RoomHub.Proofs.Hub.Rosters

/-!
# Whether the last snapshot is current

A roster is `Current` for a room when every open connection there was last shown that very
roster. A step can spoil this only by changing the roster or by letting somebody in; a
broadcast of presence restores it, whatever was shown before:

> `current_broadcastPresence`: after a broadcast the rosters it covers are current;
> `Current.act`: a step that leaves the roster and the company of the room alone, and
> shows nothing but the present roster, keeps it current.
-/

namespace RoomHub

/-- The snapshot that an event is, of the given scope. -/
def Scope.snapshot? : Scope → Event → Option (List Participant)
  | .room, .participants people => some people
  | .call, .callParticipants people => some people
  | _, _ => none

/-- The last snapshot of a scope among some events. -/
def Scope.lastShown (s : Scope) (es : List Event) : Option (List Participant) :=
  (es.filterMap s.snapshot?).getLast?

namespace Scope

variable {s : Scope}

/-- The last snapshot of two series is that of the second, or else of the first. -/
theorem lastShown_append (es fs : List Event) :
    s.lastShown (es ++ fs) = (s.lastShown fs).or (s.lastShown es) := by
  unfold lastShown
  rw [List.filterMap_append, List.getLast?_append]

/-- Without snapshots nothing was shown. -/
theorem lastShown_eq_none {es : List Event} (h : ∀ e ∈ es, s.snapshot? e = none) :
    s.lastShown es = none := by
  unfold lastShown
  rw [List.filterMap_eq_nil_iff.mpr h]
  rfl

theorem snapshot?_chat (m : Message) : s.snapshot? (.chat m) = none := by
  cases s <;> rfl

theorem snapshot?_history (ms : List Message) : s.snapshot? (.history ms) = none := by
  cases s <;> rfl

end Scope

namespace Hub

variable {h : Hub} {c d : ConnectionId} {r r' : RoomId} {s : Scope} {a : Step}
  {log : List Sending}

/-- The close signal of a connection is not tripped and its receiver takes events. -/
def IsOpen (h : Hub) (c : ConnectionId) : Prop :=
  ∃ o, h.outboxes[c]? = some o ∧ o.isOpen = true

/-- A connection is registered for a room. -/
def IsIn (h : Hub) (c : ConnectionId) (r : RoomId) : Prop :=
  ∃ m, h.registry.member? c = some m ∧ m.handle.room = r

instance : Decidable (h.IsOpen c) :=
  decidable_of_iff ((h.outboxes[c]?).any (·.isOpen) = true) (by simp [IsOpen, Option.any_eq_true])

instance : Decidable (h.IsIn c r) :=
  decidable_of_iff ((h.registry.member? c).any (·.handle.room = r) = true)
    (by simp [IsIn, Option.any_eq_true])

/-! ## What an open connection has been given -/

/-- If the change of an outbox opens nothing, an open one was open before. -/
theorem isOpen_of_updateOutbox {f : Outbox → Outbox}
    (hf : ∀ o, (f o).isOpen = true → o.isOpen = true) (hopen : (h.updateOutbox d f).IsOpen c) :
    h.IsOpen c := by
  obtain ⟨o, ho, hisOpen⟩ := hopen
  rw [outboxes_updateOutbox] at ho
  split at ho
  next hdc =>
    obtain ⟨o', ho', rfl⟩ := Option.map_eq_some_iff.mp ho
    exact ⟨o', hdc ▸ ho', hf o' hisOpen⟩
  next => exact ⟨o, ho, hisOpen⟩

/-- A connection that is open after a step was so before it, and got all that was meant for
it. -/
theorem stream_sends_of_isOpen (hopen : (act a h).IsOpen c) :
    Sending.stream c (sends a h) = meantFor c (dispatches a h) ∧ h.IsOpen c := by
  cases a with
  | attach | detach | setInCall =>
    obtain ⟨o, ho, hisOpen⟩ := hopen
    rw [outboxes_act_of_isMembership rfl] at ho
    exact ⟨rfl, o, ho, hisOpen⟩
  | broadcast | broadcastPresence | pushTo | pushCallParticipants | deliver =>
    obtain ⟨o, ho, hisOpen⟩ := hopen
    rw [act_of_isSending rfl] at ho
    exact stream_dispatch_of_isOpen ho hisOpen
  | receive d n =>
    have htake : act (.receive d n) h = h.updateOutbox d fun o => (o.take n).2 := take_snd d n h
    rw [htake] at hopen
    exact ⟨rfl, isOpen_of_updateOutbox (fun o ho => o.isOpen_take n ▸ ho) hopen⟩
  | closeReceiver d =>
    refine ⟨rfl, isOpen_of_updateOutbox (fun o ho => ?_) hopen⟩
    rw [Outbox.isOpen_closeReceiver] at ho
    cases ho
  | dropReceiver d =>
    refine ⟨rfl, isOpen_of_updateOutbox (fun o ho => ?_) hopen⟩
    rw [Outbox.isOpen_dropReceiver] at ho
    cases ho
  | cancel d =>
    refine ⟨rfl, isOpen_of_updateOutbox (fun o ho => ?_) hopen⟩
    rw [Outbox.isOpen_cancel] at ho
    cases ho

/-! ## Current rosters -/

/-- Every open connection of a room was last shown its present roster. -/
def Current (s : Scope) (h : Hub) (log : List Sending) (r : RoomId) : Prop :=
  ∀ ⦃c⦄, h.IsIn c r → h.IsOpen c → s.lastShown (Sending.stream c log) = some (roster s h r)

/-- Where nobody is connected nobody saw anything old. -/
theorem current_idle (outboxes : Std.ExtTreeMap ConnectionId Outbox) :
    Current s (idle outboxes) [] r := by
  intro c hin
  obtain ⟨m, hm, -⟩ := hin
  simp [idle, Registry.member?, Registry.empty] at hm

/-- A step that leaves the roster and the company of a room alone, and shows nothing but
the present roster there, keeps it current. -/
theorem Current.act (hc : Current s h log r) (hin : ∀ c, (act a h).IsIn c r → h.IsIn c r)
    (hroster : roster s (act a h) r = roster s h r)
    (hshown : ∀ c, h.IsIn c r → s.lastShown (meantFor c (dispatches a h)) = none ∨
      s.lastShown (meantFor c (dispatches a h)) = some (roster s h r)) :
    Current s (act a h) (log ++ sends a h) r := by
  intro c hinAfter hopenAfter
  obtain ⟨hstream, hopen⟩ := stream_sends_of_isOpen hopenAfter
  -- nothing shuts or lets in, so whoever is asked about was asked about before
  have hbefore := hin c hinAfter
  rw [hroster, Sending.stream_append, Scope.lastShown_append, hstream]
  rcases hshown c hbefore with hnone | hsome
  · rw [hnone]
    exact hc hbefore hopen
  · rw [hsome]
    rfl

/-- A step that shows everyone in a room the roster makes it current. -/
theorem current_of_shown
    (hshown : ∀ c, (act a h).IsIn c r →
      s.lastShown (meantFor c (dispatches a h)) = some (roster s (act a h) r)) :
    Current s (act a h) (log ++ sends a h) r := by
  intro c hin hopen
  obtain ⟨hstream, -⟩ := stream_sends_of_isOpen hopen
  rw [Sending.stream_append, Scope.lastShown_append, hstream, hshown c hin]
  rfl

/-- A step that is no change of presence, and shows nothing but present rosters, keeps
every roster current. -/
theorem Current.act_of_not_isMembership (hc : Current s h log r) (ha : a.isMembership = false)
    (hshown : ∀ c, h.IsIn c r → s.lastShown (meantFor c (dispatches a h)) = none ∨
      s.lastShown (meantFor c (dispatches a h)) = some (roster s h r)) :
    Current s (Hub.act a h) (log ++ sends a h) r := by
  obtain ⟨hreg, hcalls⟩ := act_presence ha h
  refine hc.act (fun c hin => ?_) (roster_congr hreg hcalls s r) hshown
  obtain ⟨m, hm, hroom⟩ := hin
  exact ⟨m, hreg ▸ hm, hroom⟩

/-! ## Quiet steps -/

/-- A step that shows no snapshot keeps every roster current. -/
theorem Current.act_of_quiet (hc : Current s h log r) (ha : a.isMembership = false)
    (hquiet : ∀ dispatch ∈ dispatches a h, s.snapshot? dispatch.1 = none) :
    Current s (Hub.act a h) (log ++ sends a h) r := by
  refine hc.act_of_not_isMembership ha fun c _ => Or.inl (Scope.lastShown_eq_none fun e he => ?_)
  obtain ⟨dispatch, hmem, rfl, -⟩ := mem_meantFor.mp he
  exact hquiet dispatch hmem

/-- What neither sends nor changes who is where leaves the last snapshot as current as it was. -/
theorem Current.act_of_isOutside (hc : Current s h log r) (ha : a.isOutside = true) :
    Current s (Hub.act a h) log r := by
  have hnone : dispatches a h = [] := by
    cases a <;> first | rfl | cases ha
  have hact := hc.act_of_quiet (Step.isMembership_of_isOutside ha) fun dispatch hmem => by
    rw [hnone] at hmem
    cases hmem
  unfold sends at hact
  rw [hnone] at hact
  exact (List.append_nil log) ▸ hact

/-! ## Steps that show snapshots -/

/-- A connection is named once among those of its room, and never among those of another. -/
theorem count_roomIds (hg : h.registry.Mirrored) (hin : h.IsIn c r) :
    (h.roomIds r').count c = if r = r' then 1 else 0 := by
  obtain ⟨m, hm, hroom⟩ := hin
  have hmem : c ∈ h.roomIds r' ↔ r = r' := by
    unfold roomIds
    rw [List.mem_map]
    constructor
    · intro hfound
      obtain ⟨handle, hhandle, rfl⟩ := hfound
      obtain ⟨hreg, hroom'⟩ := hg.mem_connections.mp hhandle
      rw [hm] at hreg
      cases hreg
      exact hroom.symm.trans hroom'
    · intro hrr
      subst hrr
      refine ⟨m.handle, hg.mem_connections.mpr ⟨?_, hroom⟩, hg.id_eq hm⟩
      rw [hg.id_eq hm, hm]
      rfl
  have hnodup : (h.roomIds r').Nodup := hg.nodup_connections
  rw [hnodup.count]
  simp only [hmem]

/-- A broadcast means its event for the connections of its room, once each. -/
theorem meantFor_roomIds (hg : h.registry.Mirrored) (hin : h.IsIn c r) (es : List Event) :
    meantFor c (es.map (·, h.roomIds r')) = if r = r' then es else [] := by
  unfold meantFor
  rw [List.flatMap_map]
  simp only [count_roomIds hg hin]
  split
  next => simp
  next => simp

/-- A broadcast moves nobody. -/
theorem isIn_broadcastPresence {s' : Scope} :
    (act (.broadcastPresence r' s') h).IsIn c r ↔ h.IsIn c r := by
  unfold IsIn
  rw [(act_presence rfl h).1]

theorem roster_broadcastPresence {s' : Scope} :
    roster s (act (.broadcastPresence r' s') h) r = roster s h r :=
  roster_congr (act_presence rfl h).1 (act_presence rfl h).2 s r

/-- What a broadcast of presence tells a room. -/
def told (h : Hub) (r : RoomId) : Scope → List Event
  | .room => [.participants (h.participants r), .callParticipants (h.callParticipants r)]
  | .call => [.callParticipants (h.callParticipants r)]

/-- A broadcast of presence goes to all connections of the room, event by event. -/
theorem dispatches_broadcastPresence {s' : Scope} :
    dispatches (.broadcastPresence r s') h = (h.told r s').map (·, h.roomIds r) := by
  cases s' <;> rfl

/-- What a broadcast of presence tells last of a roster is the roster as it is. -/
theorem lastShown_told {s' : Scope} :
    s.lastShown (h.told r s') = if s'.covers s then some (roster s h r) else none := by
  cases s' <;> cases s <;> rfl

/-- A connection of the room is shown the roster by a broadcast that covers it. -/
theorem lastShown_broadcastPresence {s' : Scope} (hg : h.registry.Mirrored) (hin : h.IsIn c r) :
    s.lastShown (meantFor c (dispatches (.broadcastPresence r' s') h))
      = if r = r' ∧ s'.covers s = true then some (roster s h r) else none := by
  rw [dispatches_broadcastPresence, meantFor_roomIds hg hin]
  by_cases hr : r = r'
  · subst hr
    rw [if_pos rfl, lastShown_told]
    simp only [true_and]
  · rw [if_neg hr, if_neg fun hrc => hr hrc.1]
    rfl

/-- After a broadcast of presence the rosters it covers are current. -/
theorem current_broadcastPresence {s' : Scope} (hg : h.registry.Mirrored)
    (hcovers : s'.covers s = true) :
    Current s (act (.broadcastPresence r s') h) (log ++ sends (.broadcastPresence r s') h) r := by
  refine current_of_shown fun c hin => ?_
  rw [roster_broadcastPresence,
    lastShown_broadcastPresence hg (isIn_broadcastPresence.mp hin), if_pos ⟨rfl, hcovers⟩]

/-- A broadcast of presence spoils no roster, in its room or elsewhere. -/
theorem Current.broadcastPresence {s' : Scope} (hc : Current s h log r)
    (hg : h.registry.Mirrored) :
    Current s (Hub.act (.broadcastPresence r' s') h)
      (log ++ sends (.broadcastPresence r' s') h) r := by
  refine hc.act_of_not_isMembership rfl fun c hin => ?_
  rw [lastShown_broadcastPresence hg hin]
  split
  next => exact Or.inr rfl
  next => exact Or.inl rfl

/-- The snapshot pushed to one connection is its room's present roster. -/
theorem Current.pushCallParticipants (hc : Current s h log r) :
    Current s (Hub.act (.pushCallParticipants d) h)
      (log ++ sends (.pushCallParticipants d) h) r := by
  refine hc.act_of_not_isMembership rfl fun c hin => ?_
  obtain ⟨m, hm, hroom⟩ := hin
  cases hd : h.registry.connection? d with
  | none =>
    left
    simp only [dispatches, hd]
    rfl
  | some handle =>
    simp only [dispatches, hd]
    by_cases hdc : d = c
    · subst hdc
      have hhandle : m.handle = handle := by
        unfold Registry.connection? at hd
        rw [hm] at hd
        exact Option.some.inj hd
      have hmeant : meantFor d [(.callParticipants (h.callParticipants handle.room), [d])]
          = [.callParticipants (h.callParticipants handle.room)] := by simp [meantFor]
      rw [hmeant, ← hhandle, hroom]
      cases s with
      | room => exact Or.inl rfl
      | call => exact Or.inr rfl
    · left
      have hmeant : meantFor c [(.callParticipants (h.callParticipants handle.room), [d])]
          = [] := by simp [meantFor, hdc]
      rw [hmeant]
      rfl

/-! ## Changes of presence -/

/-- Changes of membership send nothing themselves. -/
theorem sends_of_isMembership (ha : a.isMembership = true) : sends a h = [] := by
  cases a <;> first | rfl | cases ha

/-- A change of presence that lets nobody into a room and leaves its roster alone keeps the
roster current. -/
theorem Current.act_of_isMembership (hc : Current s h log r) (ha : a.isMembership = true)
    (hin : ∀ c, (Hub.act a h).IsIn c r → h.IsIn c r)
    (hroster : roster s (Hub.act a h) r = roster s h r) : Current s (Hub.act a h) log r := by
  have hact := hc.act hin hroster fun c _ => Or.inl ?_
  · rw [sends_of_isMembership ha, List.append_nil] at hact
    exact hact
  · cases a <;> first | rfl | cases ha

/-- Only attaching lets a connection into a room. -/
theorem isIn_of_act (hg : h.registry.Mirrored) (ha : ∀ handle, a ≠ .attach handle)
    (hin : (act a h).IsIn c r) : h.IsIn c r := by
  obtain ⟨m, hm, hroom⟩ := hin
  rcases member?_act hg hm with ⟨m', hm', hsame⟩ | hattached
  · exact ⟨m', hm', hsame ▸ hroom⟩
  · exact absurd hattached (ha _)

/-- Letting a connection into one room spoils the rosters of no other. -/
theorem Current.attach {handle : Handle} (hc : Current s h log r) (hg : h.registry.Mirrored)
    (hroom : (h.attach handle).1 = true → handle.room ≠ r) :
    Current s (h.attach handle).2 log r := by
  rcases attach_cases hg handle with ⟨-, heq⟩ | ⟨hfree, heq⟩
  · rw [heq]
    exact hc
  · have hne : handle.room ≠ r := hroom (by rw [heq])
    refine hc.act_of_isMembership (a := .attach handle) rfl (fun c hin => ?_)
      (roster_attach hg s hne)
    obtain ⟨m, hm, hmr⟩ := hin
    replace hm : (h.attach handle).2.registry.member? c = some m := hm
    rw [heq, Registry.attached_member? hg hfree] at hm
    split at hm
    next =>
      cases hm
      exact absurd hmr hne
    next => exact ⟨m, hm, hmr⟩

/-- Taking a connection out of one room spoils the rosters of no other. -/
theorem Current.detach (hc : Current s h log r) (hg : h.registry.Mirrored)
    (hroom : ∀ m, h.registry.member? d = some m → m.handle.room ≠ r) :
    Current s (h.detach d).2 log r := by
  refine hc.act_of_isMembership (a := .detach d) rfl (fun c hin => ?_) (roster_detach hg s hroom)
  exact isIn_of_act hg (fun handle heq => by cases heq) hin

/-- A change of the call flag spoils no roster but that of the call. -/
theorem Current.setInCall {on : Bool} (hc : Current s h log r) (hg : h.registry.Mirrored)
    (hroom : ∀ m, h.registry.member? d = some m → s = .room ∨ m.handle.room ≠ r) :
    Current s (h.setInCall d on).2 log r := by
  refine hc.act_of_isMembership (a := .setInCall d on) rfl (fun c hin => ?_)
    (roster_setInCall hg s hroom)
  exact isIn_of_act hg (fun handle heq => by cases heq) hin

end Hub

end RoomHub
