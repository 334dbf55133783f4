import RoomHub.Proofs.Hub.Lighter
import RoomHub.Proofs.Session.CallFlag
import RoomHub.Proofs.Session.Listening

/-!
# A reading side that hears no talk

Leaving out all texts, binary messages and pings leaves the vitals as they are, and so the
ending. One thing is to be shown first: that the side without the talk is not evicted earlier.
It is not, since all that the handling of a text can do to the queue of its connection is to
make it longer. So the hub without the talk is `Hub.Lighter` at every moment.

> `lighter_meet`: handling something burdens the connection at least as much as leaving it out;
> `Quieter.hear`: a listener beside one that hears no talk, for one occurrence;
> `untripped_silenced`: so leaving out the talk evicts nobody;
> `only_pongs_extend`: how a listener ends, and that it ends alike without the talk.
-/

namespace RoomHub

/-! ## What leaving out a text spares -/

/-- An operation that is no step of the hub, or sends something or sets a call flag. -/
def Operation.IsBurden (op : Operation) : Prop := ∀ a, op.step? = some a → a.isBurden = true

/-- Storing and telling messages only burdens the hub. -/
theorem Operation.IsPosting.isBurden {op : Operation} (hop : op.IsPosting) : op.IsBurden := by
  cases op with
  | persist => exact fun a ha => nomatch ha
  | broadcast r e =>
    rintro a ⟨⟩
    rfl
  | roomExists | isMember | listMembers | recentMessages | attach | detach | setInCall
  | broadcastPresence | pushTo | pushCallParticipants | participants | callParticipants =>
    exact hop.elim

theorem Membership.only_setCall (c : ConnectionId) (r : RoomId) (on : Bool) :
    (setCall c r on).Only Operation.IsBurden := by
  rw [setCall_eq]
  refine ⟨fun a ha => by cases ha; rfl, fun changed => ?_⟩
  cases changed with
  | false => exact trivial
  | true => exact ⟨fun a ha => by cases ha; rfl, fun _ => trivial⟩

namespace ReadSide

variable {k : Handle} {b : Bool}

/-- Acting upon a frame only burdens the hub. -/
theorem only_actOn (f : ClientFrame) : (actOn k b f).Only Operation.IsBurden := by
  cases hwish : wish? f with
  | none =>
    cases f with
    | chat content =>
      exact ((Posting.only_send k.room k.participant.user content).imp
        fun _ hop => hop.isBurden).map _
    | joinCall | leaveCall => cases hwish
  | some on =>
    by_cases hon : on = b
    · rw [actOn_of_same (hwish.trans (congrArg some hon))]
      exact trivial
    · rw [actOn_of_change (hwish.trans (congrArg some (Bool.eq_not_of_ne hon)))]
      exact (Membership.only_setCall _ _ _).map _

/-- Acting upon a text burdens queues at most. -/
theorem only_actOnText (text : String) : (actOnText k b text).Only Operation.IsBurden := by
  unfold actOnText
  split
  next f _ => exact only_actOn f
  next => exact trivial

end ReadSide

section Lighter

variable {c : ConnectionId} {w w' : World}

theorem World.lighter_undergo (hl : Hub.Lighter c w.hub w'.hub) (d : Deed) :
    Hub.Lighter c (w.undergo d).hub (w'.undergo d).hub := by
  cases d with
  | onHub a => exact hl.act a
  | persist | createRoom | addMember | setOutage | setClock =>
    rw [World.hub_undergo rfl, World.hub_undergo rfl]
    exact hl

theorem World.lighter_undergoAll (hl : Hub.Lighter c w.hub w'.hub) (ds : List Deed) :
    Hub.Lighter c (w.undergoAll ds).hub (w'.undergoAll ds).hub := by
  induction ds generalizing w w' with
  | nil => exact hl
  | cons d ds ih => exact ih (World.lighter_undergo hl d)

/-- An operation that only burdens a hub leaves the other one lighter. -/
theorem World.lighter_perform {op : Operation} (hop : op.IsBurden)
    (hl : Hub.Lighter c w.hub w'.hub) : Hub.Lighter c (w.perform op).2.hub w'.hub := by
  rw [World.hub_perform]
  unfold Operation.hubAfter
  split
  next a ha => exact hl.act_left (hop a ha)
  next => exact hl

/-- A program that burdens queues at most, beside what others do meanwhile. -/
theorem Program.lighter_amid {α : Type} {p : Program α} (hp : p.Only Operation.IsBurden)
    (hl : Hub.Lighter c w.hub w'.hub) (gaps : List (List Deed)) :
    Hub.Lighter c (p.amid gaps w).world.hub (w'.undergoAll gaps.flatten).hub := by
  induction p generalizing gaps w w' with
  | done a => exact World.lighter_undergoAll hl gaps.flatten
  | step op next ih =>
    obtain ⟨hop, hnext⟩ := hp
    have hfirst := World.lighter_perform hop (World.lighter_undergoAll hl (gaps.headD []))
    rw [amid_step, ← undergoAll_gaps]
    exact ih _ (hnext _) hfirst gaps.tail

end Lighter

/-! ## Occurrences without the talk -/

/-- What is left of an occurrence when only what matters may come. -/
def Occurrence.vitalPart (m : Occurrence) : List Occurrence :=
  if m.doing.vital?.isSome then [m] else m.residue

/-- Some occurrences without the texts, the binary messages and the pings that come. -/
def silenced (ms : List Occurrence) : List Occurrence := ms.flatMap Occurrence.vitalPart

theorem Occurrence.mem_residue {m m' : Occurrence} (hm : m' ∈ m.residue) :
    m'.time = m.time ∧ m'.doing.vital? = none := by
  rcases m.residue_cases with ⟨hnone, -⟩ | hone
  · rw [hnone] at hm
    cases hm
  · rw [hone] at hm
    rw [List.mem_singleton.mp hm]
    exact ⟨rfl, rfl⟩

/-- What matters in an occurrence is left of it. -/
theorem Occurrence.vitals_vitalPart (m : Occurrence) : vitals m.vitalPart = vitals [m] := by
  unfold vitalPart
  cases hm : m.doing.vital? with
  | some v => rfl
  | none =>
    have hresidue : vitals m.residue = [] := List.filterMap_eq_nil_iff.mpr fun m' hm' => by
      rw [(mem_residue hm').2]
      rfl
    have hself : vitals [m] = [] := by
      rw [Listener.vitals_cons, hm]
      rfl
    rw [hself]
    exact hresidue

theorem Occurrence.time_of_mem_vitalPart {m m' : Occurrence} (hm : m' ∈ m.vitalPart) :
    m'.time = m.time := by
  unfold vitalPart at hm
  split at hm
  next => rw [List.mem_singleton.mp hm]
  next => exact (mem_residue hm).1

/-- Silence keeps everything that matters. -/
theorem vitals_silenced (ms : List Occurrence) : vitals (silenced ms) = vitals ms := by
  induction ms with
  | nil => rfl
  | cons m ms ih =>
    show vitals (m.vitalPart ++ silenced ms) = vitals ([m] ++ ms)
    unfold vitals at ih ⊢
    rw [List.filterMap_append, List.filterMap_append, ih]
    exact congrArg (· ++ _) m.vitals_vitalPart

/-- Occurrences without the talk are in order if they were so with it. -/
theorem ordered_silenced {start : Time} {ms : List Occurrence}
    (horder : Listener.Ordered start ms) :
    Listener.Ordered start (silenced ms) := by
  refine ⟨fun m' hm' => ?_, List.pairwise_flatMap.mpr ⟨fun m _ => ?_, ?_⟩⟩
  · obtain ⟨m, hm, hpart⟩ := List.mem_flatMap.mp hm'
    exact Occurrence.time_of_mem_vitalPart hpart ▸ horder.1 m hm
  · refine List.pairwise_of_forall_mem_list fun a ha b hb => ?_
    rw [Occurrence.time_of_mem_vitalPart ha, Occurrence.time_of_mem_vitalPart hb]
  · refine horder.2.imp fun hle a ha b hb => ?_
    rw [Occurrence.time_of_mem_vitalPart ha, Occurrence.time_of_mem_vitalPart hb]
    exact hle

/-! ## A listener beside one that hears no talk -/

namespace Listener

variable {k : Handle} {idle : Duration} {now t t' : Time} {l l' : Listener} {side side' : ReadSide}
  {w w' : World} {m : Occurrence} {ms : List Occurrence} {d : Doing}

/-- What matters for how long a side listens asks nothing of the world. -/
theorem world_meet_of_vital (hd : d.vital?.isSome = true) :
    (meet k idle now side w d).world = w.undergoAll d.deeds := by
  cases d with
  | others ds => cases hd
  | comes a gaps =>
    cases a with
    | item i =>
      cases i with
      | pong | close => rfl
      | text | binary | ping => cases hd
    | failed | ended => rfl

/-- To handle something burdens a connection at least as much as to leave it out. -/
theorem lighter_meet (hl : Hub.Lighter k.id w.hub w'.hub) (d : Doing) :
    Hub.Lighter k.id (meet k idle now side w d).world.hub (w'.undergoAll d.deeds).hub := by
  cases hd : d.vital? with
  | some v =>
    rw [world_meet_of_vital (by rw [hd]; rfl)]
    exact World.lighter_undergoAll hl d.deeds
  | none =>
    cases d with
    | others ds => exact World.lighter_undergoAll hl ds
    | comes a gaps =>
      cases a with
      | item i =>
        cases i with
        | text s => exact Program.lighter_amid ((ReadSide.only_actOnText s).map _) hl gaps
        | binary | ping => exact World.lighter_undergoAll hl gaps.flatten
        | pong | close => cases hd
      | failed | ended => cases hd

theorem untripped_nil :
    Untripped k idle l [] ↔ l.world.hub.isCancelled k.id = false :=
  ⟨fun hun => hun 0, fun hun n => by rw [List.take_nil]; exact hun⟩

/-- The signal stays untripped if it is so now and along the rest. -/
theorem untripped_cons :
    Untripped k idle l (m :: ms) ↔
      l.world.hub.isCancelled k.id = false ∧ Untripped k idle (l.hear k idle m) ms := by
  refine ⟨fun hun => ⟨hun 0, hun.tail⟩, fun ⟨hun, hrest⟩ n => ?_⟩
  cases n with
  | zero => exact hun
  | succ n => exact hrest n

theorem untripped_append {ms' : List Occurrence} (hun : Untripped k idle l ms)
    (hun' : Untripped k idle (l.listen k idle ms) ms') : Untripped k idle l (ms ++ ms') := by
  induction ms generalizing l with
  | nil => exact hun'
  | cons m ms ih =>
    obtain ⟨hfirst, hrest⟩ := untripped_cons.mp hun
    exact untripped_cons.mpr ⟨hfirst, ih hrest hun'⟩

theorem Untripped.listen (hun : Untripped k idle l ms) :
    (l.listen k idle ms).world.hub.isCancelled k.id = false := by
  have hlast := hun ms.length
  rw [List.take_length] at hlast
  exact hlast

/-- An occurrence in time after which the close signal is not tripped. -/
theorem untripped_meet (hle : m.time ≤ side.deadline) (hun : w.hub.isCancelled k.id = false)
    (hafter : (meet k idle m.time side w m.doing).world.hub.isCancelled k.id = false) :
    Untripped k idle ⟨.ok side, w⟩ [m] := by
  refine untripped_cons.mpr ⟨hun, untripped_nil.mpr ?_⟩
  rw [hear_of_le hle, world_notice]
  exact hafter

/-- A listener that has ended, or will have when it hears anything from a time on. -/
def Spent (t : Time) (l : Listener) : Prop := ∀ side, l.reading = .ok side → side.deadline < t

theorem Spent.weaken (h : Spent t l) (hle : t ≤ t') : Spent t' l :=
  fun side hside => Nat.lt_of_lt_of_le (h side hside) hle

/-- A spent listener leaves the world as it is. -/
theorem Spent.hear (h : Spent t l) (ht : t ≤ m.time) :
    (l.hear k idle m).world = l.world ∧ Spent t (l.hear k idle m) := by
  unfold Listener.hear
  split
  next => exact ⟨rfl, h⟩
  next side hside =>
    rw [if_pos (Nat.lt_of_lt_of_le (h side hside) ht)]
    exact ⟨rfl, fun side' h' => (nomatch h')⟩

/-- A spent listener stays so, with its signal untripped, whatever comes. -/
theorem Spent.untripped (h : Spent t l) (hms : ∀ m ∈ ms, t ≤ m.time)
    (hun : l.world.hub.isCancelled k.id = false) :
    Untripped k idle l ms ∧ Spent t (l.listen k idle ms) := by
  induction ms generalizing l with
  | nil => exact ⟨untripped_nil.mpr hun, h⟩
  | cons m ms ih =>
    obtain ⟨hm, hrest⟩ := List.forall_mem_cons.mp hms
    obtain ⟨hworld, hspent⟩ : (l.hear k idle m).world = l.world ∧ Spent t (l.hear k idle m) :=
      h.hear hm
    obtain ⟨huntripped, hlast⟩ := ih hspent hrest (by rw [hworld]; exact hun)
    exact ⟨untripped_cons.mpr ⟨hun, huntripped⟩, hlast⟩

/-- A listener beside one that hears no talk: both listen until the same deadline and the hub of
the second one is lighter, or the second one is spent and was not evicted. -/
inductive Quieter (k : Handle) (t : Time) : Listener → Listener → Prop where
  | listening {side side' : ReadSide} {w w' : World} (hdeadline : side'.deadline = side.deadline)
      (hub : Hub.Lighter k.id w.hub w'.hub) : Quieter k t ⟨.ok side, w⟩ ⟨.ok side', w'⟩
  | spent {l l' : Listener} (hspent : Spent t l') (hun : l'.world.hub.isCancelled k.id = false) :
      Quieter k t l l'

/-- Where the signal is not tripped with the talk, it is not tripped without. -/
theorem Quieter.isCancelled_eq_false (h : Quieter k t l l')
    (hun : l.world.hub.isCancelled k.id = false) : l'.world.hub.isCancelled k.id = false := by
  cases h with
  | listening _ hl => exact hl.isCancelled_eq_false hun
  | spent _ hun' => exact hun'

/-- A spent listener stays beside the other one. -/
theorem Spent.quieter (h : Spent t l') (hms : ∀ m ∈ ms, t ≤ m.time)
    (hun : l'.world.hub.isCancelled k.id = false) :
    Untripped k idle l' ms ∧ Quieter k t l (l'.listen k idle ms) := by
  obtain ⟨huntripped, hlast⟩ := h.untripped hms hun
  exact ⟨huntripped, .spent hlast huntripped.listen⟩

/-- An occurrence that does not trip the close signal does not trip it in the lighter hub. -/
theorem Untripped.lighter (hun : Untripped k idle ⟨.ok side, w⟩ [m]) (hle : m.time ≤ side.deadline)
    (hl : Hub.Lighter k.id w.hub w'.hub) :
    (w'.undergoAll m.doing.deeds).hub.isCancelled k.id = false := by
  have hafter : (hear k idle ⟨.ok side, w⟩ m).world.hub.isCancelled k.id = false := hun 1
  rw [hear_of_le hle, world_notice] at hafter
  exact (lighter_meet hl m.doing).isCancelled_eq_false hafter

/-- A text, a binary message or a ping that is left out, or others alone. -/
theorem quieter_residue (hdeadline : side'.deadline = side.deadline)
    (hl : Hub.Lighter k.id w.hub w'.hub) (hle : m.time ≤ side.deadline)
    (hun : Untripped k idle ⟨.ok side, w⟩ [m]) (hvital : m.doing.vital? = none) :
    Untripped k idle ⟨.ok side', w'⟩ m.residue ∧
      Quieter k m.time (hear k idle ⟨.ok side, w⟩ m)
        (listen k idle ⟨.ok side', w'⟩ m.residue) := by
  have hle' : m.time ≤ side'.deadline := hdeadline ▸ hle
  have hun' := hl.isCancelled_eq_false (hun 0)
  obtain ⟨inCall, hreading⟩ := reading_meet_of_none hvital
  have hmeet : Hub.Lighter k.id (meet k idle m.time side w m.doing).world.hub
      (w'.undergoAll m.doing.deeds).hub := lighter_meet hl m.doing
  rw [hun.hear_eq hle hreading]
  rcases m.residue_cases with ⟨hnone, hdeeds⟩ | hone
  · rw [hdeeds] at hmeet
    rw [hnone]
    exact ⟨untripped_nil.mpr hun', .listening hdeadline hmeet⟩
  · have huntripped : Untripped k idle ⟨.ok side', w'⟩ [⟨m.time, .others m.doing.deeds⟩] :=
      untripped_meet hle' hun' (hun.lighter hle hl)
    rw [hone, listen_cons, huntripped.hear_eq hle' rfl]
    exact ⟨huntripped, .listening hdeadline hmeet⟩

/-- A pong, or what ends the connection, that both hear. -/
theorem quieter_vital (hdeadline : side'.deadline = side.deadline)
    (hl : Hub.Lighter k.id w.hub w'.hub) (hle : m.time ≤ side.deadline)
    (hun : Untripped k idle ⟨.ok side, w⟩ [m]) {v : Vital} (hvital : m.doing.vital? = some v) :
    Untripped k idle ⟨.ok side', w'⟩ [m] ∧
      Quieter k m.time (hear k idle ⟨.ok side, w⟩ m) (hear k idle ⟨.ok side', w'⟩ m) := by
  have hle' : m.time ≤ side'.deadline := hdeadline ▸ hle
  have hworld : (meet k idle m.time side' w' m.doing).world = w'.undergoAll m.doing.deeds :=
    world_meet_of_vital (by rw [hvital]; rfl)
  have huntripped : Untripped k idle ⟨.ok side', w'⟩ [m] :=
    untripped_meet hle' (hl.isCancelled_eq_false (hun 0)) (hworld ▸ hun.lighter hle hl)
  refine ⟨huntripped, ?_⟩
  cases v with
  | pong =>
    rw [hun.hear_eq hle (reading_meet_of_pong hvital),
      huntripped.hear_eq hle' (reading_meet_of_pong hvital), hworld]
    exact .listening rfl (lighter_meet hl m.doing)
  | stop e =>
    refine .spent ?_ huntripped.listen
    rw [huntripped.hear_eq hle' (reading_meet_of_stop hvital)]
    exact fun side h => nomatch h

/-- An occurrence that both hear, or that is left out but for what others do then. -/
theorem Quieter.hear (h : Quieter k t l l') (ht : t ≤ m.time)
    (hun : Untripped k idle l [m]) :
    Untripped k idle l' m.vitalPart ∧
      Quieter k m.time (l.hear k idle m) (l'.listen k idle m.vitalPart) := by
  have htimes : ∀ m' ∈ m.vitalPart, m.time ≤ m'.time := fun m' hm' =>
    (Occurrence.time_of_mem_vitalPart hm').ge
  have hun' := h.isCancelled_eq_false (hun 0)
  cases h with
  | spent hspent _ => exact (hspent.weaken ht).quieter htimes hun'
  | @listening side side' w w' hdeadline hl =>
    by_cases hlate : side.deadline < m.time
    · have hspent : Spent m.time ⟨.ok side', w'⟩ := by
        rintro _ ⟨⟩
        exact hdeadline ▸ hlate
      exact hspent.quieter htimes hun'
    · have hle : m.time ≤ side.deadline := Nat.le_of_not_lt hlate
      cases hvital : m.doing.vital? with
      | none =>
        have hpart : m.vitalPart = m.residue := if_neg (by rw [hvital]; exact Bool.false_ne_true)
        rw [hpart]
        exact quieter_residue hdeadline hl hle hun hvital
      | some v =>
        have hpart : m.vitalPart = [m] := if_pos (by rw [hvital]; rfl)
        rw [hpart]
        exact quieter_vital hdeadline hl hle hun hvital

/-- Without the talk no occurrence trips the close signal. -/
theorem Quieter.untripped (h : Quieter k t l l') (horder : Ordered t ms)
    (hun : Untripped k idle l ms) : Untripped k idle l' (silenced ms) := by
  induction ms generalizing l l' t with
  | nil => exact untripped_nil.mpr (h.isCancelled_eq_false (hun 0))
  | cons m ms ih =>
    obtain ⟨hfirst, hrest⟩ := untripped_cons.mp hun
    have hone : Untripped k idle l [m] := untripped_cons.mpr ⟨hfirst, untripped_nil.mpr (hrest 0)⟩
    obtain ⟨hpart, hnext⟩ := h.hear (horder.1 m List.mem_cons_self) hone
    exact untripped_append hpart (ih hnext horder.tail hrest)

/-- A connection that is not evicted is not evicted without the talk. -/
theorem untripped_silenced (hg : w.hub.registry.Mirrored) (horder : Ordered now ms)
    (hun : Untripped k idle (start k idle now w) ms) :
    Untripped k idle (start k idle now w) (silenced ms) := by
  have hstart := start_eq hun
  rw [hstart] at hun ⊢
  have hquieter : Quieter k now ⟨.ok (.start idle now), w⟩ ⟨.ok (.start idle now), w⟩ :=
    .listening rfl (.refl hg)
  exact hquieter.untripped horder hun

end Listener

/-- A reading side among occurrences in the order of time, while its close signal is not tripped. It
ends with the first close, failure or end of the connection, or at the first time that is an idle
timeout after the last pong until then, or after the beginning when there was none: whichever
comes first. So it ends alike when all texts, binary messages and pings are left out; nor is its
close signal tripped then. -/
theorem only_pongs_extend (outboxes : Std.ExtTreeMap ConnectionId Outbox) (steps : List Hub.Step)
    (store : Store) (clock : Instant) (outage : Outage) (k : Handle) (idle : Duration) (now : Time)
    (ms : List Occurrence) (horder : Listener.Ordered now ms)
    (hun : (Listener.start k idle now ⟨Hub.run steps (Hub.idle outboxes), store, clock,
      outage⟩).Untripped k idle ms) :
    let l := Listener.start k idle now ⟨Hub.run steps (Hub.idle outboxes), store, clock, outage⟩
    (∃ b, IsLeast (lulls now idle.toNanos (vitals ms)) b ∧
      (l.listen k idle ms).ending = verdict b (vitals ms)) ∧
    l.Untripped k idle (silenced ms) ∧
    (l.listen k idle (silenced ms)).ending = (l.listen k idle ms).ending := by
  intro l
  have hun' : l.Untripped k idle (silenced ms) :=
    Listener.untripped_silenced (Hub.mirrored_run steps Registry.mirrored_empty) horder hun
  exact ⟨Listener.ending_eq_verdict horder hun, hun',
    Listener.ending_congr horder (ordered_silenced horder) hun hun' (vitals_silenced ms)⟩

/-- A client that talks, and whose outbox has room for two events. -/
def talker : Handle := ⟨⟨⟨1⟩⟩, ⟨⟨7⟩⟩, ⟨⟨⟨5⟩⟩, "ann"⟩⟩

def talkersOutboxes : Std.ExtTreeMap ConnectionId Outbox :=
  Std.ExtTreeMap.insert ∅ talker.id ⟨2, [], .listening, false, Nat.two_pos⟩

/-- The world in which the client is connected. -/
def talkersWorld : World :=
  ⟨Hub.run [.attach talker] (Hub.idle talkersOutboxes), .empty, .epoch, .none⟩

/-- What the client sends, in nanoseconds: it talks on, but its last pong in time comes after nine
tenths of a second. -/
def talk : List Occurrence :=
  [⟨500000000, .comes (.item (.text "\x7b\"type\":\"call_join\"\x7d")) [[.setClock .epoch]]⟩,
    ⟨900000000, .comes (.item (.pong [])) []⟩, ⟨1200000000, .comes (.item (.ping [])) []⟩,
    ⟨1500000000, .others [.onHub (.broadcast ⟨⟨7⟩⟩ (.history []))]⟩,
    ⟨1800000000, .comes (.item (.binary [])) []⟩, ⟨2500000000, .comes (.item (.pong [])) []⟩,
    ⟨2600000000, .comes (.item (.close none)) []⟩]

/-- Neither what the client says nor its ping wins it any time. -/
theorem only_pongs_extend_talk :
    Listener.Ordered 0 talk ∧
      (Listener.start talker (.ofSeconds 1) 0 talkersWorld).Untripped talker (.ofSeconds 1) talk ∧
      ((Listener.start talker (.ofSeconds 1) 0 talkersWorld).listen talker (.ofSeconds 1)
        (silenced talk)).ending = (.idleTimeout, 1900000000) := by
  have horder : Listener.Ordered 0 talk := by decide +kernel
  have hun : (Listener.start talker (.ofSeconds 1) 0 talkersWorld).Untripped talker (.ofSeconds 1)
      talk := by decide +kernel
  obtain ⟨-, -, hsilent⟩ := only_pongs_extend talkersOutboxes [.attach talker] .empty .epoch .none
    talker (.ofSeconds 1) 0 talk horder hun
  exact ⟨horder, hun, hsilent.trans (by decide +kernel)⟩

end RoomHub
