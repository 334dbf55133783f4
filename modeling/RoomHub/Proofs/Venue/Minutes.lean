import RoomHub.Proofs.Venue.Errands
import RoomHub.Proofs.Venue.Confidence

/-!
# What was said and what was told

A venue keeps what was sent. `Minutes` keep beside it which texts the reading sides took,
and for each sending whose task made it and after how many texts. They are notes only:
`run_venue` takes them away again.

Storing a message and telling it are two operations, so messages of different people may be
told in another order than they were stored. One connection reads its next text only when it
has done with the last one, and so:

> `recorded_run`: what was told for a connection, and what it is about to tell, stems from
> its texts, in their order, with numbers that grow;
> `chats_keep_the_order_of_their_speaker`: so does what any other connection got of it.
-/

namespace RoomHub

/-! ## What a message is stored as -/

section Stored

variable {w : World} {r : RoomId} {u : UserId} {d : Draft} {m : Message}

/-- A message that was stored has the next number, the sender's name and the draft's content. -/
theorem Store.persist_eq_ok {s s' : Store} {now : Instant}
    (h : s.persist now r u d = (.ok m, s')) :
    (∃ name, m = ⟨s.lastMessageId + 1, r, u, name, d.content, d.kind, d.mediaUrl, now⟩) ∧
      s'.lastMessageId = m.id := by
  unfold persist at h
  split at h
  next => cases h
  next =>
    split at h
    next => cases h
    next name _ =>
      cases h
      exact ⟨⟨name, rfl⟩, rfl⟩

/-- A message that was stored has the next number, and the room, the user and the content
that it was stored with. -/
theorem World.persist_eq_ok (h : (w.perform (.persist r u d)).1 = .ok m) :
    (∃ name, m
      = ⟨w.store.lastMessageId + 1, r, u, name, d.content, d.kind, d.mediaUrl, w.clock⟩) ∧
      (w.perform (.persist r u d)).2.store.lastMessageId = m.id := by
  rcases w.perform_persist r u d with ⟨e, heq⟩ | heq
  · rw [heq] at h
    cases h
  · rw [heq] at h ⊢
    exact Store.persist_eq_ok (Prod.ext h rfl)

/-- The number of the last message never falls. -/
theorem World.last_perform (op : Operation) (w : World) :
    w.store.lastMessageId ≤ (w.perform op).2.store.lastMessageId := by
  cases op with
  | persist r u d =>
    rcases w.perform_persist r u d with ⟨e, heq⟩ | heq
    · rewrite [heq]
      exact Int.le_refl _
    · rewrite [heq]
      rcases w.store.persist_cases w.clock r u d with ⟨e, hrefused⟩ |
        ⟨m, s', hstored, -, -, hlast, -⟩
      · rewrite [hrefused]
        exact Int.le_refl _
      · rw [hstored]
        show _ ≤ s'.lastMessageId
        omega
  | _ => exact Int.le_refl _

end Stored

/-- What an operation sends goes to each connection once at most. -/
theorem Operation.once_of_mem_sends {h : Hub} (hg : h.registry.Mirrored) {op : Operation}
    {s : Sending} (hs : s ∈ op.sends h) : s.Once := by
  unfold sends at hs
  split at hs
  next a _ => exact Hub.once_of_mem_dispatch (Hub.nodup_dispatches hg a) hs
  next => cases hs

/-! ## Minutes -/

/-- Whose task it was that sent something, and how many texts it had read by then. -/
structure Origin where
  speaker : ConnectionId
  number : Nat
  deriving DecidableEq, Repr

/-- The message that an event tells on behalf of a connection, and after how many texts. -/
def Origin.told? (c : ConnectionId) (origin : Option Origin) (e : Event) :
    Option (Nat × Message) :=
  match origin with
  | some o => if o.speaker = c then e.chat?.map (o.number, ·) else none
  | none => none

namespace Venue

/-- What a move sends, with the answers. -/
def sends (v : Venue) : Move → List Sending
  | .act i a =>
    match v.guests[i]? with
    | some g => Guest.sends a g v.world
    | none => []
  | .announce m => Operation.sends (.broadcast m.room (.chat m)) v.world.hub
  | _ => []

/-- The text that is read with a move, and the connection it comes from. -/
def hears (v : Venue) : Move → List (ConnectionId × String)
  | .act i a =>
    match v.guests[i]? with
    | some g => (g.hears? a).toList.map (g.id, ·)
    | none => []
  | _ => []

/-- What a move sends is appended to the log. -/
theorem log_apply (cfg : HubSettings) (v : Venue) (move : Move) :
    (v.apply cfg move).log = v.log ++ v.sends move := by
  cases move with
  | act i a =>
    simp only [apply, act, sends]
    cases v.guests[i]? with
    | none => exact (List.append_nil _).symm
    | some g => rfl
  | request id site upgradable request =>
    simp only [apply]
    split <;> exact (List.append_nil _).symm
  | announce | persist => rfl
  | createRoom | addMember | setOutage | setClock | setNow =>
    exact (List.append_nil _).symm

end Venue

/-- A venue, the texts that were read in it, oldest first, and everything that was sent with
where it comes from. -/
structure Minutes where
  venue : Venue
  heard : List (ConnectionId × String)
  sent : List (Option Origin × Sending)

namespace Minutes

/-- Nothing has happened yet. -/
def opening (seed : List Seed.Room) (clock : Instant) (outage : Outage) : Minutes :=
  ⟨.opening seed clock outage, [], []⟩

/-- The texts that were read from a connection. -/
def texts (m : Minutes) (c : ConnectionId) : List String :=
  (m.heard.filter (·.1 = c)).map (·.2)

/-- Where that comes from which a move sends. -/
def origin? (m : Minutes) : Venue.Move → Option Origin
  | .act i _ => (m.venue.guests[i]?).map fun g => ⟨g.id, (m.texts g.id).length⟩
  | _ => none

/-- The minutes after a move. -/
def apply (cfg : HubSettings) (m : Minutes) (move : Venue.Move) : Minutes where
  venue := m.venue.apply cfg move
  heard := m.heard ++ m.venue.hears move
  sent := m.sent ++ (m.venue.sends move).map (m.origin? move, ·)

/-- The minutes after a run. -/
def run (cfg : HubSettings) (m : Minutes) (moves : List Venue.Move) : Minutes :=
  moves.foldl (apply cfg) m

/-- What was told on behalf of a connection. -/
def said (m : Minutes) (c : ConnectionId) : List (Nat × Message) :=
  m.sent.filterMap fun entry => Origin.told? c entry.1 entry.2.event

/-- The events that were queued to a connection, with where each comes from. -/
def stream (m : Minutes) (d : ConnectionId) : List (Option Origin × Event) :=
  m.sent.flatMap fun entry => (Sending.stream d [entry.2]).map (entry.1, ·)

variable {cfg : HubSettings} {m : Minutes} {c d : ConnectionId}

/-- Minutes leave a run as it is. -/
theorem run_venue (m : Minutes) (moves : List Venue.Move) :
    (m.run cfg moves).venue = m.venue.run cfg moves := by
  induction moves generalizing m with
  | nil => rfl
  | cons move moves ih => exact ih (m.apply cfg move)

/-! ## What a move adds -/

/-- A move adds the texts that it reads from a connection. -/
theorem texts_apply (m : Minutes) (move : Venue.Move) (c : ConnectionId) :
    (m.apply cfg move).texts c
      = m.texts c ++ ((m.venue.hears move).filter (·.1 = c)).map (·.2) := by
  unfold texts apply
  rw [List.filter_append, List.map_append]

/-- A move adds the messages that it tells on behalf of a connection. -/
theorem said_apply (m : Minutes) (move : Venue.Move) (c : ConnectionId) :
    (m.apply cfg move).said c
      = m.said c ++ (m.venue.sends move).filterMap
          fun s => Origin.told? c (m.origin? move) s.event := by
  unfold said apply
  rw [List.filterMap_append, List.filterMap_map]
  rfl

section Act

variable {i : Nat} {g : Guest} {a : Act}

/-- An act of a guest adds the text that the guest hears. -/
theorem texts_act_self (hget : m.venue.guests[i]? = some g) :
    (m.apply cfg (.act i a)).texts g.id = m.texts g.id ++ (g.hears? a).toList := by
  rw [texts_apply]
  simp only [Venue.hears, hget]
  cases g.hears? a <;> simp

theorem texts_act_other (hget : m.venue.guests[i]? = some g) (hc : g.id ≠ c) :
    (m.apply cfg (.act i a)).texts c = m.texts c := by
  rw [texts_apply]
  simp only [Venue.hears, hget]
  cases g.hears? a <;> simp [hc]

/-- What a guest tells is told on its own behalf, after all the texts that it has read so far. -/
theorem said_act_self (hget : m.venue.guests[i]? = some g) :
    (m.apply cfg (.act i a)).said g.id = m.said g.id
      ++ (Sending.chats (Guest.sends a g m.venue.world)).map ((m.texts g.id).length, ·) := by
  rw [said_apply]
  simp only [Venue.sends, origin?, hget, Option.map_some, Origin.told?, if_true]
  unfold Sending.chats
  rw [List.map_filterMap]

theorem said_act_other (hget : m.venue.guests[i]? = some g) (hc : g.id ≠ c) :
    (m.apply cfg (.act i a)).said c = m.said c := by
  rw [said_apply]
  simp [Venue.sends, origin?, hget, Origin.told?, hc]

/-- What is no act of a guest is not said by anybody. -/
theorem apply_of_not_act (cfg : HubSettings) (m : Minutes) {move : Venue.Move}
    (hmove : ∀ i a, move ≠ .act i a) (c : ConnectionId) :
    (m.apply cfg move).texts c = m.texts c ∧ (m.apply cfg move).said c = m.said c := by
  have hhears : m.venue.hears move = [] := by
    cases move with
    | act i a => exact absurd rfl (hmove i a)
    | _ => rfl
  have horigin : m.origin? move = none := by
    cases move with
    | act i a => exact absurd rfl (hmove i a)
    | _ => rfl
  rw [texts_apply, said_apply, hhears, horigin]
  simp [Origin.told?]

/-- An act of a guest that does not exist is nothing. -/
theorem apply_of_no_guest (hget : m.venue.guests[i]? = none) : m.apply cfg (.act i a) = m := by
  unfold apply
  simp [Venue.apply, Venue.act, Venue.hears, Venue.sends, hget]

end Act

end Minutes

/-! ## What was said stems from what was read -/

/-- A message stems from one of the texts that were read from a connection, counted from
one: the text asks for it, and it was stored for the user and the room of the connection. -/
def Stems (texts : List String) (who : Option Handle) (q : Nat × Message) : Prop :=
  (∃ k, who = some k ∧ q.2.room = k.room ∧ q.2.user = k.participant.user) ∧
  ∃ earlier text later, texts = earlier ++ text :: later ∧ q.1 = earlier.length + 1 ∧
    ClientFrame.toPost? text = some q.2.content

/-- Messages stem from texts, each from a later text than the one before and with a higher
number, and the last number given out is not below any of them. -/
structure Spoken (texts : List String) (who : Option Handle) (last : Int)
    (said : List (Nat × Message)) : Prop where
  increasing : said.Pairwise fun a b => a.1 < b.1 ∧ a.2.id < b.2.id
  bounded : ∀ q ∈ said, q.2.id ≤ last
  stems : ∀ q ∈ said, Stems texts who q

/-- What was said is in order, and stays so when the errand is done: the content that is to
be stored is that of the last text, of which nothing was said; the message that is to be
told comes after everything that was said. -/
def Errand.Due (texts : List String) (who : Option Handle) (last : Int)
    (said : List (Nat × Message)) : Errand → Prop
  | .idle => Spoken texts who last said
  | .store k content =>
    Spoken texts who last said ∧ who = some k ∧ (∀ q ∈ said, q.1 < texts.length) ∧
      ∃ earlier text, texts = earlier ++ [text] ∧ ClientFrame.toPost? text = some content
  | .tell m => Spoken texts who last (said ++ [(texts.length, m)])

section Said

variable {texts : List String} {who who' : Option Handle} {last last' : Int}
  {said : List (Nat × Message)} {q : Nat × Message} {k : Handle} {text : String} {e e' : Errand}

/-- A message stems from a text that has been read. -/
theorem Stems.number_le (h : Stems texts who q) : q.1 ≤ texts.length := by
  obtain ⟨-, earlier, text, later, rfl, hnumber, -⟩ := h
  rw [hnumber, List.length_append, List.length_cons]
  omega

/-- A message stems from its text however many more are read. -/
theorem Stems.append (h : Stems texts who q) (text : String) :
    Stems (texts ++ [text]) who q := by
  obtain ⟨hwho, earlier, said, later, rfl, hnumber, hsaid⟩ := h
  refine ⟨hwho, earlier, said, later ++ [text], ?_, hnumber, hsaid⟩
  rw [List.append_assoc, List.cons_append]

theorem Stems.mono (h : Stems texts who q) (hwho : ∀ k, who = some k → who' = some k) :
    Stems texts who' q := by
  obtain ⟨⟨k, hk, hroom, huser⟩, htext⟩ := h
  exact ⟨⟨k, hwho k hk, hroom, huser⟩, htext⟩

theorem spoken_nil : Spoken texts who last [] where
  increasing := List.Pairwise.nil
  bounded q hq := by cases hq
  stems q hq := by cases hq

/-- Messages are still in order when their sender becomes known and higher numbers are given out. -/
theorem Spoken.mono (h : Spoken texts who last said) (hwho : ∀ k, who = some k → who' = some k)
    (hlast : last ≤ last') : Spoken texts who' last' said where
  increasing := h.increasing
  bounded q hq := Int.le_trans (h.bounded q hq) hlast
  stems q hq := (h.stems q hq).mono hwho

/-- Messages are still in order when another text is read. -/
theorem Spoken.heard (h : Spoken texts who last said) (text : String) :
    Spoken (texts ++ [text]) who last said where
  increasing := h.increasing
  bounded := h.bounded
  stems q hq := (h.stems q hq).append text

theorem Errand.Due.mono (h : e.Due texts who last said)
    (hwho : ∀ k, who = some k → who' = some k) (hlast : last ≤ last') :
    e.Due texts who' last' said := by
  cases e with
  | idle => exact Spoken.mono h hwho hlast
  | store k content => exact ⟨h.1.mono hwho hlast, hwho k h.2.1, h.2.2⟩
  | tell m => exact Spoken.mono h hwho hlast

/-- Whatever is still to be done, what was said so far is in order. -/
theorem Errand.Due.spoken (h : e.Due texts who last said) : Spoken texts who last said := by
  cases e with
  | idle => exact h
  | store k content => exact h.1
  | tell m =>
    have hsub : said ⊆ said ++ [(texts.length, m)] := List.subset_append_left _ _
    exact ⟨(List.pairwise_append.mp h.increasing).1, fun q hq => h.bounded q (hsub hq),
      fun q hq => h.stems q (hsub hq)⟩

/-- A text that is read is later than everything that was said. -/
theorem Spoken.due_ofText (h : Spoken texts (some k) last said) (text : String) :
    (Errand.ofText k text).Due (texts ++ [text]) (some k) last said := by
  unfold Errand.ofText
  split
  next content hcontent =>
    refine ⟨h.heard text, rfl, fun q hq => ?_, texts, text, rfl, hcontent⟩
    have hle := (h.stems q hq).number_le
    rw [List.length_append, List.length_singleton]
    omega
  next => exact h.heard text

/-- A message that was stored has a higher number than everything that was said. -/
theorem Errand.Due.stored {content : String} {m : Message}
    (h : (Errand.store k content).Due texts who last said) (hid : last < m.id)
    (hroom : m.room = k.room) (huser : m.user = k.participant.user)
    (hcontent : m.content = content) : (Errand.tell m).Due texts who m.id said := by
  obtain ⟨hsaid, hwho, hlate, earlier, text, rfl, htext⟩ := h
  have hstems : Stems (earlier ++ [text]) who ((earlier ++ [text]).length, m) := by
    refine ⟨⟨k, hwho, hroom, huser⟩, earlier, text, [], rfl, by simp, ?_⟩
    rw [hcontent]
    exact htext
  refine ⟨?_, fun q hq => ?_, fun q hq => ?_⟩
  · rw [List.pairwise_append]
    refine ⟨hsaid.increasing, List.pairwise_singleton _ _, fun a ha b hb => ?_⟩
    rw [List.mem_singleton.mp hb]
    exact ⟨hlate a ha, Int.lt_of_le_of_lt (hsaid.bounded a ha) hid⟩
  · rcases List.mem_append.mp hq with hold | hnew
    · exact Int.le_of_lt (Int.lt_of_le_of_lt (hsaid.bounded q hold) hid)
    · rewrite [List.mem_singleton.mp hnew]
      exact Int.le_refl _
  · rcases List.mem_append.mp hq with hold | hnew
    · exact hsaid.stems q hold
    · rw [List.mem_singleton.mp hnew]
      exact hstems

/-- What an operation does about an errand keeps what was said in order. -/
theorem Errand.Due.turns {w : World} {op : Operation}
    (hdue : e.Due texts who w.store.lastMessageId said)
    (hturns : e.Turns op (w.perform op).1 e') :
    e'.Due texts who (w.perform op).2.store.lastMessageId
      (said ++ (Sending.chats (op.sends w.hub)).map (texts.length, ·)) := by
  have hlast := World.last_perform op w
  generalize hanswer : (w.perform op).1 = answer at hturns
  cases hturns with
  | quiet hop =>
    rw [Operation.chats_sends hop.1]
    show Spoken _ _ _ (said ++ [])
    rw [List.append_nil]
    exact Spoken.mono hdue (fun _ hk => hk) hlast
  | refused =>
    show Spoken _ _ _ (said ++ [])
    rw [List.append_nil]
    exact hdue.1.mono (fun _ hk => hk) hlast
  | stored =>
    obtain ⟨⟨name, hm⟩, hnumber⟩ := World.persist_eq_ok hanswer
    show Spoken _ _ _ (said ++ [] ++ _)
    rw [List.append_nil, hnumber]
    refine hdue.stored ?_ ?_ ?_ ?_
    · rw [hm]
      exact Int.lt_succ _
    all_goals rw [hm]
  | @told m =>
    have htold : Operation.Tells (some m) (.broadcast m.room (.chat m)) := rfl
    rw [Operation.chats_sends htold]
    exact Spoken.mono hdue (fun _ hk => hk) hlast

end Said

/-! ## Every run -/

/-- An act is an operation on the world, or leaves the store and its methods alone. -/
theorem Guest.world_change {cfg : HubSettings} {now : Time} {g g' : Guest} {w w' : World}
    {sent : List Sending} (hc : g.Change cfg now w g' w' sent) :
    (∃ op, w' = (w.perform op).2) ∨ (w'.store = w.store ∧ w'.outage = w.outage) := by
  cases hc with
  | took => exact Or.inl ⟨_, rfl⟩
  | wrote _ _ _ hw => rcases hw with rfl | rfl <;> exact Or.inr ⟨rfl, rfl⟩
  | still | answered | unopened | opened | joined | refused | heard | arrived | acted | drained
  | left | finished | tripped | swept => exact Or.inr ⟨rfl, rfl⟩

namespace Venue

variable {cfg : HubSettings} {v v' : Venue}

/-- The last number given out never goes down. -/
theorem last_change (hc : Change cfg v v') :
    v.world.store.lastMessageId ≤ v'.world.store.lastMessageId := by
  cases hc with
  | begun => exact Int.le_refl _
  | acted hget hact =>
    rcases Guest.world_change hact with ⟨op, rfl⟩ | ⟨hstore, -⟩
    · exact World.last_perform op _
    · exact Int.le_of_eq (congrArg Store.lastMessageId hstore).symm
  | stored => exact World.last_perform _ _
  | announced => exact World.last_perform _ _
  | around w now hhub hgrows hmessages hlast => exact Int.le_of_eq hlast.symm

/-- What a move sends goes to each connection once at most. -/
theorem once_of_mem_sends (hg : v.world.hub.registry.Mirrored) {move : Move} {s : Sending}
    (hs : s ∈ v.sends move) : s.Once := by
  cases move with
  | act i a =>
    simp only [sends] at hs
    cases hget : v.guests[i]? with
    | none =>
      rw [hget] at hs
      cases hs
    | some g =>
      rw [hget] at hs
      cases a with
      | step =>
        replace hs : s ∈ g.stepSends v.world := hs
        unfold Guest.stepSends at hs
        split at hs
        next => exact Operation.once_of_mem_sends hg hs
        next => cases hs
      | _ => cases hs
  | announce m =>
    replace hs : s ∈ Operation.sends (.broadcast m.room (.chat m)) v.world.hub := hs
    exact Operation.once_of_mem_sends hg hs
  | _ => cases hs

end Venue

namespace Minutes

variable {cfg : HubSettings} {m : Minutes} {c d : ConnectionId}

/-- What was told for a guest stems from what was read from it, and so does what its task
is about to tell. -/
def Records (m : Minutes) (g : Guest) : Prop :=
  ∃ e : Errand, g.phase.Runs e ∧
    e.Due (m.texts g.id) g.phase.handle? m.venue.world.store.lastMessageId (m.said g.id)

/-- The venue is in order, every sending went to each connection once at most, every guest
is on record, and of nobody else there is any. -/
structure Recorded (m : Minutes) : Prop where
  orderly : m.venue.Orderly
  once : ∀ entry ∈ m.sent, entry.2.Once
  guests : ∀ g ∈ m.venue.guests, m.Records g
  strangers : ∀ c, (∀ g ∈ m.venue.guests, g.id ≠ c) → m.texts c = [] ∧ m.said c = []

theorem recorded_opening (seed : List Seed.Room) (clock : Instant) (outage : Outage) :
    Recorded (opening seed clock outage) where
  orderly := Venue.orderly_opening seed clock outage
  once entry hentry := by cases hentry
  guests g hg := by cases hg
  strangers c _ := ⟨rfl, rfl⟩

/-- A guest stays on record when no more is read from it and told for it. -/
theorem Records.mono {m' : Minutes} {g : Guest} (h : m.Records g)
    (htexts : m'.texts g.id = m.texts g.id) (hsaid : m'.said g.id = m.said g.id)
    (hlast : m.venue.world.store.lastMessageId ≤ m'.venue.world.store.lastMessageId) :
    m'.Records g := by
  obtain ⟨e, hruns, hdue⟩ := h
  refine ⟨e, hruns, ?_⟩
  rw [htexts, hsaid]
  exact hdue.mono (fun _ hk => hk) hlast

/-- An act keeps its own guest on record. -/
theorem Records.act {i : Nat} {g : Guest} {a : Act} (h : m.Records g)
    (hget : m.venue.guests[i]? = some g) :
    (m.apply cfg (.act i a)).Records (g.act cfg m.venue.now a m.venue.world).1 := by
  obtain ⟨e, hruns, hdue⟩ := h
  obtain ⟨e', hpursuit, hruns'⟩ := Guest.pursuit_act cfg m.venue.now m.venue.world a hruns
  have hchange : g.Change cfg m.venue.now m.venue.world _ _ _ := Guest.change_act a g _
  have hhandle : ∀ k, g.phase.handle? = some k →
      (g.act cfg m.venue.now a m.venue.world).1.phase.handle? = some k :=
    fun k hk => Guest.handle?_change hchange hk
  have hworld : (m.apply cfg (.act i a)).venue.world
      = (g.act cfg m.venue.now a m.venue.world).2 := by
    simp only [apply, Venue.apply, Venue.act, hget]
    rfl
  refine ⟨e', hruns', ?_⟩
  rw [Guest.id_change hchange, texts_act_self hget, said_act_self hget, hworld]
  generalize g.hears? a = text at hpursuit
  generalize Guest.sends a g m.venue.world = sent at hpursuit
  generalize (g.act cfg m.venue.now a m.venue.world).1 = g' at hpursuit hhandle
  generalize (g.act cfg m.venue.now a m.venue.world).2 = w' at hpursuit
  cases hpursuit with
  | @heard text s _ hp _ =>
    have hknown : g.phase.handle? = some s.handle := by
      rw [hp]
      rfl
    show Errand.Due _ _ _ (m.said g.id ++ []) _
    rw [List.append_nil, hhandle _ hknown]
    rw [hknown] at hdue
    exact Spoken.due_ofText hdue text
  | took hnext hturns =>
    show Errand.Due (m.texts g.id ++ []) _ _ _ _
    rw [List.append_nil]
    exact (hdue.turns hturns).mono hhandle (Int.le_refl _)
  | kept hsame hstore =>
    show Errand.Due (m.texts g.id ++ []) _ _ (m.said g.id ++ []) _
    rw [List.append_nil, List.append_nil, hstore]
    exact hdue.mono hhandle (Int.le_refl _)

/-- Nobody is sent the same thing twice. -/
theorem Recorded.once_apply (h : Recorded m) (move : Venue.Move) :
    ∀ entry ∈ (m.apply cfg move).sent, entry.2.Once := by
  intro entry hentry
  rcases List.mem_append.mp hentry with hold | hnew
  · exact h.once entry hold
  · obtain ⟨s, hs, rfl⟩ := List.mem_map.mp hnew
    exact Venue.once_of_mem_sends h.orderly.inStep.mirrored hs

/-- What is no act of a guest changes no guest, and only brings guests who are new. -/
theorem guests_of_not_act (cfg : HubSettings) (m : Minutes) {move : Venue.Move}
    (hmove : ∀ i a, move ≠ .act i a) :
    ∃ new, (m.apply cfg move).venue.guests = m.venue.guests ++ new ∧
      ∀ g ∈ new, (∃ id site upgradable request, g = .fresh id site upgradable request) ∧
        ∀ u ∈ m.venue.guests, u.id ≠ g.id := by
  have hnobody : ∃ new, m.venue.guests = m.venue.guests ++ new ∧ ∀ g ∈ new,
      (∃ id site upgradable request, g = Guest.fresh id site upgradable request) ∧
        ∀ u ∈ m.venue.guests, u.id ≠ g.id :=
    ⟨[], (List.append_nil _).symm, fun g hg => by cases hg⟩
  cases move with
  | act i a => exact absurd rfl (hmove i a)
  | request id site upgradable request =>
    simp only [apply, Venue.apply]
    split
    next => exact hnobody
    next hnone =>
      refine ⟨_, rfl, fun g hg => ?_⟩
      rw [List.mem_singleton.mp hg]
      refine ⟨⟨id, site, upgradable, request, rfl⟩, fun u hu heq => hnone ?_⟩
      exact List.any_eq_true.mpr ⟨u, hu, decide_eq_true heq⟩
  | _ => exact hnobody

/-- What a move makes of the guests: an act changes its own; nothing is noted of any other; and
a guest who is new comes with nothing noted either. -/
theorem guests_apply (ho : m.venue.Orderly) (move : Venue.Move) :
    ∀ g' ∈ (m.apply cfg move).venue.guests,
      (∃ i a g, move = .act i a ∧ m.venue.guests[i]? = some g ∧
        g' = (g.act cfg m.venue.now a m.venue.world).1) ∨
      (((∃ id site upgradable request, g' = .fresh id site upgradable request ∧
          ∀ u ∈ m.venue.guests, u.id ≠ id) ∨ g' ∈ m.venue.guests) ∧
        (m.apply cfg move).texts g'.id = m.texts g'.id ∧
        (m.apply cfg move).said g'.id = m.said g'.id) := by
  intro g' hg'
  by_cases hact : ∃ i a, move = .act i a
  · obtain ⟨i, a, rfl⟩ := hact
    cases hget : m.venue.guests[i]? with
    | none =>
      rw [apply_of_no_guest hget] at hg' ⊢
      exact Or.inr ⟨Or.inr hg', rfl, rfl⟩
    | some g =>
      have hguests : (m.apply cfg (.act i a)).venue.guests
          = m.venue.guests.set i (g.act cfg m.venue.now a m.venue.world).1 := by
        simp only [apply, Venue.apply, Venue.act, hget]
        rfl
      obtain ⟨j, hj⟩ := List.mem_iff_getElem?.mp hg'
      rw [hguests] at hj
      by_cases hij : i = j
      · subst hij
        rw [List.getElem?_set_self (List.getElem?_eq_some_iff.mp hget).1] at hj
        exact Or.inl ⟨i, a, g, rfl, hget, (Option.some.inj hj).symm⟩
      · rw [List.getElem?_set_ne hij] at hj
        have hne : g.id ≠ g'.id := fun heq => hij (ho.index_eq hget hj heq.symm)
        exact Or.inr ⟨Or.inr (List.mem_of_getElem? hj), texts_act_other hget hne,
          said_act_other hget hne⟩
  · have hnot : ∀ i a, move ≠ .act i a := fun i a heq => hact ⟨i, a, heq⟩
    have hsame := m.apply_of_not_act cfg hnot g'.id
    obtain ⟨new, hguests, hnew⟩ := m.guests_of_not_act cfg hnot
    rw [hguests] at hg'
    rcases List.mem_append.mp hg' with hold | hg'
    · exact Or.inr ⟨Or.inr hold, hsame⟩
    · obtain ⟨⟨id, site, upgradable, request, rfl⟩, hstranger⟩ := hnew g' hg'
      exact Or.inr ⟨Or.inl ⟨id, site, upgradable, request, rfl, hstranger⟩, hsame⟩

/-- Of a connection that is not there after a move nothing is noted with it. -/
theorem strangers_apply (move : Venue.Move)
    (hc : ∀ g ∈ (m.apply cfg move).venue.guests, g.id ≠ c) :
    (∀ g ∈ m.venue.guests, g.id ≠ c) ∧ (m.apply cfg move).texts c = m.texts c ∧
      (m.apply cfg move).said c = m.said c := by
  by_cases hact : ∃ i a, move = .act i a
  · obtain ⟨i, a, rfl⟩ := hact
    cases hget : m.venue.guests[i]? with
    | none =>
      rw [apply_of_no_guest hget] at hc ⊢
      exact ⟨hc, rfl, rfl⟩
    | some g =>
      have hchange : g.Change cfg m.venue.now m.venue.world _ _ _ := Guest.change_act a g _
      have hid := Guest.id_change hchange
      have hids : m.venue.guests.map (·.id) = (m.apply cfg (.act i a)).venue.guests.map (·.id) := by
        simp only [apply, Venue.apply, Venue.act, hget]
        exact (Venue.map_id_put hget hid).symm
      have hbefore : ∀ u ∈ m.venue.guests, u.id ≠ c := by
        intro u hu heq
        have hmem : u.id ∈ m.venue.guests.map (·.id) := List.mem_map_of_mem hu
        rw [hids] at hmem
        obtain ⟨u', hu', hsame⟩ := List.mem_map.mp hmem
        exact hc u' hu' (hsame.trans heq)
      have hne := hbefore g (List.mem_of_getElem? hget)
      exact ⟨hbefore, texts_act_other hget hne, said_act_other hget hne⟩
  · have hnot : ∀ i a, move ≠ .act i a := fun i a heq => hact ⟨i, a, heq⟩
    obtain ⟨new, hguests, -⟩ := m.guests_of_not_act cfg hnot
    refine ⟨fun g hg => hc g ?_, m.apply_of_not_act cfg hnot c⟩
    rw [hguests]
    exact List.mem_append_left _ hg

/-- Every guest stays on record, whatever happens. -/
theorem recorded_apply (h : Recorded m) (move : Venue.Move) : Recorded (m.apply cfg move) := by
  have hchange : Venue.Change cfg m.venue _ := Venue.change_apply m.venue move
  refine ⟨Venue.orderly_change h.orderly hchange, h.once_apply move, fun g' hg' => ?_,
    fun c hc => ?_⟩
  · rcases guests_apply h.orderly move g' hg' with ⟨i, a, g, rfl, hget, rfl⟩ |
      ⟨⟨id, site, upgradable, request, rfl, hstranger⟩ | hg, htexts, hsaid⟩
    · exact (h.guests g (List.mem_of_getElem? hget)).act hget
    · -- nothing was said by who is new, whose request only reads
      have hnone : (m.apply cfg move).said id = [] := hsaid.trans (h.strangers id hstranger).2
      refine ⟨.idle, ⟨rfl, (Http.reads_answer site upgradable request).runs⟩, ?_⟩
      show Spoken _ _ _ ((m.apply cfg move).said id)
      rw [hnone]
      exact spoken_nil
    · exact (h.guests g' hg).mono htexts hsaid (Venue.last_change hchange)
  · obtain ⟨hbefore, htexts, hsaid⟩ := strangers_apply move hc
    rw [htexts, hsaid]
    exact h.strangers c hbefore

/-- Along any run, every guest stays on record. -/
theorem recorded_run (h : Recorded m) (moves : List Venue.Move) : Recorded (m.run cfg moves) := by
  induction moves generalizing m with
  | nil => exact h
  | cons move moves ih => exact ih (recorded_apply h move)

/-! ## What others get of it -/

/-- Taking the notes away from what was queued to a connection leaves what was queued. -/
theorem stream_map_snd (m : Minutes) (d : ConnectionId) :
    (m.stream d).map (·.2) = Sending.stream d (m.sent.map (·.2)) := by
  unfold stream
  induction m.sent with
  | nil => rfl
  | cons entry sent ih =>
    have hhead : ((Sending.stream d [entry.2]).map (entry.1, ·)).map (·.2)
        = Sending.stream d [entry.2] := by
      rw [List.map_map]
      exact List.map_id _
    rw [List.flatMap_cons, List.map_append, ih, hhead, ← Sending.stream_append]
    rfl

/-- What a connection was told on behalf of another is part of what was told for it. -/
theorem stream_sublist (honce : ∀ entry ∈ m.sent, entry.2.Once) (c d : ConnectionId) :
    ((m.stream d).filterMap fun entry => Origin.told? c entry.1 entry.2).Sublist (m.said c) := by
  unfold stream said
  generalize m.sent = sent at honce
  induction sent with
  | nil => exact List.Sublist.refl _
  | cons entry sent ih =>
    rw [List.flatMap_cons, List.filterMap_append, List.filterMap_cons,
      Sending.stream_singleton (honce entry List.mem_cons_self)]
    have hrest := ih fun entry hentry => honce entry (List.mem_cons_of_mem _ hentry)
    cases htold : Origin.told? c entry.1 entry.2.event with
    | none => split <;> simpa [htold] using hrest
    | some q =>
      split
      next => simpa [htold] using hrest
      next => simpa using hrest.cons q

/-- What the minutes say was sent is the log of the venue. -/
theorem log_run {moves : List Venue.Move} (hlog : m.sent.map (·.2) = m.venue.log) :
    (m.run cfg moves).sent.map (·.2) = (m.run cfg moves).venue.log := by
  induction moves generalizing m with
  | nil => exact hlog
  | cons move moves ih =>
    refine ih ?_
    show (m.sent ++ _).map (·.2) = (m.venue.apply cfg move).log
    rw [Venue.log_apply, List.map_append, hlog, List.map_map]
    exact congrArg _ (List.map_id _)

/-- After any run, what was queued to a connection `d` on behalf of a connection `c` is
this: messages that stem from the texts that were read from `c`, one message at most from
each, in the order of the texts, with numbers that grow, for the user and the room of `c`. -/
theorem chats_keep_the_order_of_their_speaker (cfg : HubSettings) (seed : List Seed.Room)
    (clock : Instant) (outage : Outage) (moves : List Venue.Move) :
    let m := (opening seed clock outage).run cfg moves
    let v := (Venue.opening seed clock outage).run cfg moves
    m.venue = v ∧ ∀ c d,
      let told := (m.stream d).filterMap fun entry => Origin.told? c entry.1 entry.2
      (m.stream d).map (·.2) = Sending.stream d v.log ∧
      told.Pairwise (fun a b => a.1 < b.1 ∧ a.2.id < b.2.id) ∧
      ∀ q ∈ told,
        (∃ g ∈ v.guests, g.id = c ∧ ∃ k, g.phase.handle? = some k ∧ q.2.room = k.room ∧
          q.2.user = k.participant.user) ∧
        ∃ earlier text later, m.texts c = earlier ++ text :: later ∧
          q.1 = earlier.length + 1 ∧ ClientFrame.parse? text = some (.chat q.2.content) := by
  intro m v
  have hvenue : m.venue = v := run_venue _ moves
  have hrecorded : Recorded m := recorded_run (recorded_opening seed clock outage) moves
  have hlog : m.sent.map (·.2) = m.venue.log := log_run rfl
  refine ⟨hvenue, fun c d => ?_⟩
  intro told
  have hsublist : told.Sublist (m.said c) := stream_sublist hrecorded.once c d
  refine ⟨?_, ?_⟩
  · rw [stream_map_snd, hlog, hvenue]
  · by_cases hknown : ∃ g ∈ m.venue.guests, g.id = c
    · obtain ⟨g, hg, rfl⟩ := hknown
      obtain ⟨e, -, hdue⟩ := hrecorded.guests g hg
      have hspoken := hdue.spoken
      refine ⟨hspoken.increasing.sublist hsublist, fun q hq => ?_⟩
      obtain ⟨⟨k, hk, hroom, huser⟩, earlier, text, later, htexts, hnumber, htext⟩ :=
        hspoken.stems q (hsublist.subset hq)
      rw [hvenue] at hg
      exact ⟨⟨g, hg, rfl, k, hk, hroom, huser⟩, earlier, text, later, htexts, hnumber,
        (ClientFrame.toPost?_eq_some.mp htext).1⟩
    · -- a connection that was never there has said nothing
      have hsaid := (hrecorded.strangers c fun g hg hid => hknown ⟨g, hg, hid⟩).2
      rw [hsaid] at hsublist
      rw [List.sublist_nil.mp hsublist]
      exact ⟨List.Pairwise.nil, fun q hq => by cases hq⟩

/-- After what she says when she comes, ann sends something that cannot be read, and then
takes her leave. -/
def talking : List Venue.Move :=
  Venue.coming ++
    [.act 0 (.arrive (.item (.text "hello again"))), .act 0 .proceed,
      .act 0 (.arrive (.item (.text "[\"chat\",\"bye\"]"))), .act 0 .step, .act 0 .step,
      .act 0 .proceed]

/-- The minutes of that. -/
def talked : Minutes :=
  (opening [⟨⟨⟨7⟩⟩, "lobby", [⟨⟨⟨5⟩⟩, "ann"⟩]⟩] .epoch .none).run .default talking

/-- Ann's first text and her third come back to her, and nothing else of hers. -/
theorem chats_keep_the_order_of_their_speaker_talked :
    let told := (talked.stream ⟨⟨1⟩⟩).filterMap fun entry =>
      Origin.told? ⟨⟨1⟩⟩ entry.1 entry.2
    told.map (fun q => (q.1, q.2.id, q.2.content)) = [(1, 1, "hello"), (3, 2, "bye")] ∧
      told.Pairwise (fun a b => a.1 < b.1 ∧ a.2.id < b.2.id) ∧
      ∀ q ∈ told, ∃ text ∈ talked.texts ⟨⟨1⟩⟩,
        ClientFrame.parse? text = some (.chat q.2.content) := by
  intro told
  have hsaid : told.map (fun q => (q.1, q.2.id, q.2.content))
      = [(1, 1, "hello"), (3, 2, "bye")] := by decide +kernel
  obtain ⟨-, hall⟩ := chats_keep_the_order_of_their_speaker .default
    [⟨⟨⟨7⟩⟩, "lobby", [⟨⟨⟨5⟩⟩, "ann"⟩]⟩] .epoch .none talking
  obtain ⟨-, horder, hstems⟩ := hall ⟨⟨1⟩⟩ ⟨⟨1⟩⟩
  refine ⟨hsaid, horder, fun q hq => ?_⟩
  obtain ⟨-, earlier, text, later, htexts, -, htext⟩ := hstems q hq
  have hmem : text ∈ earlier ++ text :: later :=
    List.mem_append_right _ List.mem_cons_self
  rw [← htexts] at hmem
  exact ⟨text, hmem, htext⟩

end Minutes

end RoomHub
