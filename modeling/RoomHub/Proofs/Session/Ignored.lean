import RoomHub.Proofs.Scene.Announcements
import RoomHub.Proofs.Session.Silence

/-!
# Frames that leave no trace

A reading side ignores texts that are no frames, chats without a content or that the store does
not take, binary messages and pings. To leave such a frame out is to keep only what others do
while it is handled. A listener that does not get the frame is where the other one is, except
that it may not have noticed yet that its deadline is over; it does at the next occurrence.

> `meet_of_ignored`: handling an ignored frame changes neither the reading side nor the world;
> `Lags.residue`: one frame left out keeps the two listeners together;
> `ignored_frames_leave_no_trace`: so do any ignored frames left out of any occurrences.
-/

namespace RoomHub

/-! ## What is ignored -/

/-- Whether nothing is done about a text: it is no frame, or a chat without a content, or one that
the store would not take. -/
def World.ignores (w : World) (k : Handle) (text : String) : Bool :=
  match ClientFrame.parse? text with
  | none => true
  | some (.chat content) => content = "" ||
    !(w.perform (.persist k.room k.participant.user ⟨content, .text, none⟩)).1.isOk
  | some .joinCall | some .leaveCall => false

/-- Whether nothing is done about an arrival. -/
def Arrival.isIgnored (k : Handle) (w : World) : Arrival → Bool
  | .item (.text s) => w.ignores k s
  | .item (.binary _) | .item (.ping _) => true
  | .item (.pong _) | .item (.close _) | .failed | .ended => false

/-- Whether an occurrence brings a frame that is ignored. What others do before its first operation
is done then. -/
def Occurrence.isIgnored (k : Handle) (w : World) (m : Occurrence) : Bool :=
  match m.doing with
  | .comes a gaps => a.isIgnored k (w.undergoAll (gaps.headD []))
  | .others _ => false

/-- Some occurrences without those at certain places, but for what others do then. -/
def thinned (out : Nat → Bool) : List Occurrence → List Occurrence
  | [] => []
  | m :: ms => (if out 0 then m.residue else [m]) ++ thinned (fun n => out (n + 1)) ms

section Handling

variable {k : Handle} {b : Bool} {w : World} {gaps : List (List Deed)} {text content : String}

/-- A chat that the store does not take is over after one operation. -/
theorem Posting.amid_send_of_refused
    (hrefused : content = "" ∨ ((w.undergoAll (gaps.headD [])).perform
      (.persist k.room k.participant.user ⟨content, .text, none⟩)).1.isOk = false) :
    ((send k.room k.participant.user content).amid gaps w).world = w.undergoAll gaps.flatten := by
  by_cases hcontent : content = ""
  · subst hcontent
    rfl
  · have herror := hrefused.resolve_left hcontent
    rcases World.perform_persist_text (w := w.undergoAll (gaps.headD [])) (r := k.room)
        (u := k.participant.user) hcontent with ⟨e, -, heq⟩ | ⟨name, store, -, -, -, heq, -⟩
    · rw [send_of_ne hcontent, post_eq, Program.amid_step]
      simp only [heq, Program.Course.cons_world, Program.amid_done, Program.undergoAll_gaps]
    · rw [heq] at herror
      cases herror

/-- A text that is ignored changes neither the flag nor the world. -/
theorem ReadSide.amid_actOnText_of_ignored
    (htext : (w.undergoAll (gaps.headD [])).ignores k text = true) :
    ((actOnText k b text).amid gaps w).result = b ∧
      ((actOnText k b text).amid gaps w).world = w.undergoAll gaps.flatten := by
  unfold World.ignores at htext
  unfold actOnText
  cases hparse : ClientFrame.parse? text with
  | none => exact ⟨rfl, rfl⟩
  | some f =>
    rw [hparse] at htext
    cases f with
    | chat content =>
      have hmap := Program.amid_map (Posting.send k.room k.participant.user content) (fun _ => b)
        gaps w
      have hrefused := (Bool.or_eq_true _ _).mp htext
      rw [decide_eq_true_eq, Bool.not_eq_true'] at hrefused
      exact ⟨congrArg (·.result) hmap,
        (congrArg (·.world) hmap).trans (Posting.amid_send_of_refused hrefused)⟩
    | joinCall | leaveCall => cases htext

end Handling

namespace Listener

variable {k : Handle} {idle : Duration} {now : Time} {side : ReadSide} {w : World} {m : Occurrence}
  {l l' : Listener} {a : Arrival} {gaps : List (List Deed)}

/-- Handling an ignored frame is doing nothing while others act. -/
theorem meet_of_ignored (ha : a.isIgnored k (w.undergoAll (gaps.headD [])) = true) :
    meet k idle now side w (.comes a gaps) = meet k idle now side w (.others gaps.flatten) := by
  cases a with
  | item i =>
    cases i with
    | text s =>
      obtain ⟨hresult, hworld⟩ := ReadSide.amid_actOnText_of_ignored (b := side.inCall) ha
      have htake : (side.take k idle now (.item (.text s))).amid gaps w = _ :=
        Program.amid_map (ReadSide.actOnText k side.inCall s)
          (fun inCall => (Except.ok { side with inCall := inCall } : Except Ending ReadSide)) gaps w
      show Listener.mk _ _ = ⟨_, _⟩
      rw [htake]
      simp only [Program.Course.map, hresult, hworld]
      rfl
    | binary | ping => rfl
    | pong | close => cases ha
  | failed | ended => cases ha

/-! ## One frame left out -/

/-- The close signal is not tripped as long as a side listens, for it would be noticed. -/
def Attentive (k : Handle) (l : Listener) : Prop :=
  ∀ side, l.reading = .ok side → l.world.hub.isCancelled k.id = false

theorem attentive_notice : Attentive k (notice k now l) := by
  intro side hside
  rw [world_notice]
  unfold notice at hside
  split at hside
  next e he =>
    rw [he] at hside
    cases hside
  next =>
    split at hside
    next => cases hside
    next hun => exact Bool.eq_false_iff.mpr hun

/-- A side looks at the close signal after all that it hears. -/
theorem attentive_hear (hl : l.Attentive k) : (l.hear k idle m).Attentive k := by
  unfold hear
  split
  next => exact hl
  next =>
    split
    next => exact fun side' h => (nomatch h)
    next => exact attentive_notice

/-- A listener beside one that missed some frames: they are the same, or the deadline is over by
a time and the other one has yet to notice. -/
inductive Lags (t : Time) : Listener → Listener → Prop where
  | same (l : Listener) : Lags t l l
  | late {side : ReadSide} (w : World) (h : side.deadline < t) :
      Lags t ⟨.error (.idleTimeout, side.deadline), w⟩ ⟨.ok side, w⟩

theorem Lags.ending_eq {t : Time} (h : Lags t l l') : l'.ending = l.ending := by
  cases h <;> rfl

theorem Lags.world_eq {t : Time} (h : Lags t l l') : l'.world = l.world := by
  cases h <;> rfl

/-- At the next occurrence the other one notices. -/
theorem Lags.hear_eq {t : Time} (h : Lags t l l') (ht : t ≤ m.time) :
    l'.hear k idle m = l.hear k idle m := by
  cases h with
  | same => rfl
  | late w hlate => exact hear_of_late (Nat.lt_of_lt_of_le hlate ht)

/-- A frame that is heard and ignored is as good as what others do meanwhile. -/
theorem listen_residue (hl : Attentive k ⟨.ok side, w⟩) (hle : m.time ≤ side.deadline)
    (hm : m.isIgnored k w = true) :
    listen k idle ⟨.ok side, w⟩ m.residue = hear k idle ⟨.ok side, w⟩ m := by
  obtain ⟨t, d⟩ := m
  cases d with
  | others ds => cases hm
  | comes a gaps =>
    have hhear : hear k idle ⟨.ok side, w⟩ ⟨t, .comes a gaps⟩ =
        notice k t ⟨.ok side, w.undergoAll gaps.flatten⟩ := by
      rw [hear_of_le hle, meet_of_ignored hm]
      rfl
    rw [hhear]
    rcases Occurrence.residue_cases ⟨t, .comes a gaps⟩ with ⟨hnone, hempty⟩ | hone
    · replace hempty : gaps.flatten = [] := hempty
      rw [hnone, hempty]
      exact (notice_of_untripped (hl side rfl)).symm
    · rw [hone]
      exact hear_of_le hle

/-- A frame after the deadline tells one listener that it is over, and the other one may not
have noticed. -/
theorem lags_residue_of_late (hlate : side.deadline < m.time) :
    Lags m.time ⟨.error (.idleTimeout, side.deadline), w⟩
      (listen k idle ⟨.ok side, w⟩ m.residue) := by
  rcases m.residue_cases with ⟨hnone, -⟩ | hone
  · rw [hnone]
    exact .late w hlate
  · have hover : hear k idle ⟨.ok side, w⟩ ⟨m.time, .others m.doing.deeds⟩ =
        ⟨.error (.idleTimeout, side.deadline), w⟩ := hear_of_late hlate
    rw [hone, listen_cons, hover]
    exact .same _

/-- A frame left out keeps two listeners together. -/
theorem Lags.residue {t : Time} (h : Lags t l l') (hl : l.Attentive k) (ht : t ≤ m.time)
    (hm : l.reading.isOk = true → m.isIgnored k l.world = true) :
    Lags m.time (l.hear k idle m) (l'.listen k idle m.residue) := by
  cases h with
  | same =>
    obtain ⟨reading, w⟩ := l
    cases reading with
    | error r =>
      rw [listen_of_error rfl]
      exact .same _
    | ok side =>
      by_cases hlate : side.deadline < m.time
      · rw [hear_of_late hlate]
        exact lags_residue_of_late hlate
      · rw [listen_residue hl (Nat.le_of_not_lt hlate) (hm rfl)]
        exact .same _
  | late w hlate => exact lags_residue_of_late (Nat.lt_of_lt_of_le hlate ht)

/-! ## Any frames left out -/

theorem listen_append (ms ms' : List Occurrence) :
    l.listen k idle (ms ++ ms') = (l.listen k idle ms).listen k idle ms' :=
  List.foldl_append

/-- Every frame left out is ignored where it is heard. -/
def Harmless (k : Handle) (idle : Duration) (l : Listener) (out : Nat → Bool)
    (ms : List Occurrence) : Prop :=
  ∀ n (hn : n < ms.length), out n = true → (l.listen k idle (ms.take n)).reading.isOk = true →
    ms[n].isIgnored k (l.listen k idle (ms.take n)).world = true

instance {out : Nat → Bool} {ms : List Occurrence} : Decidable (Harmless k idle l out ms) :=
  inferInstanceAs (Decidable (∀ n (_ : n < ms.length), _))

theorem Harmless.tail {out : Nat → Bool} {ms : List Occurrence}
    (h : Harmless k idle l out (m :: ms)) :
    Harmless k idle (l.hear k idle m) (fun n => out (n + 1)) ms :=
  fun n hn => h (n + 1) (Nat.succ_lt_succ hn)

/-- One occurrence, left out or not, keeps two listeners together; when it is not left out they are
the same after it. -/
theorem Lags.head {t : Time} {out : Nat → Bool} {ms : List Occurrence} (h : Lags t l l')
    (hl : l.Attentive k) (ht : t ≤ m.time) (hout : Harmless k idle l out (m :: ms)) :
    Lags m.time (l.hear k idle m) (l'.listen k idle (if out 0 then m.residue else [m])) ∧
      (out 0 = false → l'.listen k idle [m] = l.hear k idle m) := by
  have hnext : l'.hear k idle m = l.hear k idle m := h.hear_eq ht
  refine ⟨?_, fun _ => hnext⟩
  cases hzero : out 0 with
  | true => exact h.residue hl ht (hout 0 (Nat.succ_pos _) hzero)
  | false =>
    show Lags _ _ (l'.hear k idle m)
    rw [hnext]
    exact .same _

/-- Frames left out keep two listeners together; after each frame that is not left out they are
the same. -/
theorem Lags.listen_thinned {t : Time} {out : Nat → Bool} {ms : List Occurrence} (h : Lags t l l')
    (hl : l.Attentive k) (horder : Ordered t ms) (hout : Harmless k idle l out ms) :
    (∀ n < ms.length, out n = false →
      l'.listen k idle (thinned out (ms.take (n + 1))) = l.listen k idle (ms.take (n + 1))) ∧
      ∃ t', Lags t' (l.listen k idle ms) (l'.listen k idle (thinned out ms)) := by
  induction ms generalizing l l' t out with
  | nil => exact ⟨fun n hn => absurd hn (Nat.not_lt_zero n), t, h⟩
  | cons m ms ih =>
    obtain ⟨hlags, hsame⟩ := h.head hl (horder.1 m List.mem_cons_self) hout
    obtain ⟨hkept, t', hend⟩ := ih hlags (attentive_hear hl) horder.tail hout.tail
    refine ⟨fun n hn hstays => ?_, t', ?_⟩
    · cases n with
      | zero =>
        show l'.listen k idle ((if out 0 then m.residue else [m]) ++ []) = l.hear k idle m
        rw [hstays, List.append_nil]
        exact hsame hstays
      | succ n =>
        show l'.listen k idle (_ ++ RoomHub.thinned (fun n => out (n + 1)) (ms.take (n + 1))) = _
        rw [listen_append]
        exact hkept n (Nat.lt_of_succ_lt_succ hn) hstays
    · show Lags t' _ (l'.listen k idle (_ ++ RoomHub.thinned (fun n => out (n + 1)) ms))
      rw [listen_append]
      exact hend

/-- A reading side among occurrences in the order of time, and any of its frames left out that are
ignored where they are heard: texts that are no frames, chats without a content or that the store
would not take then, binary messages and pings. After every other occurrence the world, the deadline
and what is remembered of the call are the same, and so are the reason and the time of its end,
and the world then. -/
theorem ignored_frames_leave_no_trace (k : Handle) (idle : Duration) (now : Time) (w : World)
    (ms : List Occurrence) (out : Nat → Bool) (horder : Ordered now ms)
    (hout : Harmless k idle (start k idle now w) out ms) :
    let l := start k idle now w
    (∀ n < ms.length, out n = false →
      l.listen k idle (thinned out (ms.take (n + 1))) = l.listen k idle (ms.take (n + 1))) ∧
    (l.listen k idle (thinned out ms)).ending = (l.listen k idle ms).ending ∧
    (l.listen k idle (thinned out ms)).world = (l.listen k idle ms).world := by
  intro l
  obtain ⟨hkept, t, hlags⟩ := (Lags.same l).listen_thinned attentive_notice horder hout
  exact ⟨hkept, hlags.ending_eq, hlags.world_eq⟩

/-- The room of a client that talks, and its member. -/
def clumsyWorld : World :=
  { talkersWorld with store := .ofSeed [⟨⟨⟨7⟩⟩, "lobby", [⟨⟨⟨5⟩⟩, "ann"⟩]⟩] }

/-- Two chats that are stored and a pong, among frames that are ignored: the store is out of
order for a while. -/
def clumsy : List Occurrence :=
  [⟨100000000, .comes (.item (.text "hello")) []⟩,
    ⟨200000000, .comes (.item (.text "\x7b\"type\":\"chat\"\x7d")) []⟩,
    ⟨300000000, .comes (.item (.text "\x7b\"type\":\"chat\",\"content\":\"one\"\x7d")) []⟩,
    ⟨400000000, .comes (.item (.text "\x7b\"type\":\"chat\",\"content\":\"two\"\x7d"))
      [[.setOutage (Outage.none.set .persist (some "down"))], [.setOutage .none]]⟩,
    ⟨700000000, .comes (.item (.pong [])) []⟩, ⟨800000000, .comes (.item (.binary [])) []⟩,
    ⟨850000000, .comes (.item (.ping [])) []⟩,
    ⟨900000000, .comes (.item (.text "\x7b\"type\":\"chat\",\"content\":\"three\"\x7d")) []⟩]

/-- The places of the ignored frames. -/
def clumsyOut (n : Nat) : Bool := n ∈ [0, 1, 3, 5, 6]

/-- Frames that are ignored for each of the reasons are left out, and neither the ending nor the
store tells. -/
theorem ignored_frames_leave_no_trace_clumsy :
    Ordered 0 clumsy ∧
      Harmless talker (.ofSeconds 1) (start talker (.ofSeconds 1) 0 clumsyWorld) clumsyOut clumsy ∧
      (let l := (start talker (.ofSeconds 1) 0 clumsyWorld).listen talker (.ofSeconds 1)
          (thinned clumsyOut clumsy)
       l.ending = (.idleTimeout, 1700000000) ∧ l.world.store.lastMessageId = 2) := by
  have horder : Ordered 0 clumsy := by decide +kernel
  have hout : Harmless talker (.ofSeconds 1) (start talker (.ofSeconds 1) 0 clumsyWorld) clumsyOut
      clumsy := by decide +kernel
  obtain ⟨-, hending, hworld⟩ := ignored_frames_leave_no_trace talker (.ofSeconds 1) 0 clumsyWorld
    clumsy clumsyOut horder hout
  exact ⟨horder, hout, hending.trans (by decide +kernel),
    (congrArg (·.store.lastMessageId) hworld).trans (by decide +kernel)⟩

end Listener

end RoomHub
