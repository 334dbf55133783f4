import Mathlib.Order.Bounds.Basic
import RoomHub.Proofs.Interludes
import RoomHub.Session

/-!
# How long a reading side listens

A `Listener` is a reading side in the world. What happens to it is a list of occurrences: something
comes from the client and is handled at once, while others act, or others act alone. It listens
until its deadline, and ends with the first close, failure or end of the connection before that;
and it notices a tripped close signal.

Of all that a client sends only a pong moves the deadline. So an ending is told by the pongs and
by what ends a connection, the `vitals`:

> `reading_meet_of_pong`, `reading_meet_of_stop`, `reading_meet_of_none`: what an occurrence does
> to the reading side;
> `ending_listen`: the side ends at the least time that is an idle timeout after the last pong
> until then, or with the first thing that ends the connection when that comes first;
> `ending_congr`: so listeners end alike when the same vitals come to them;
> `Session.readWithin_listen`: a session that reads all there is hears it as a listener does.
-/

namespace RoomHub

/-! ## Occurrences -/

/-- What happens: something comes and is handled while others act, or others act alone. -/
inductive Doing where
  | comes (arrival : Arrival) (gaps : List (List Deed))
  | others (deeds : List Deed)

/-- Something that happens, and when. -/
structure Occurrence where
  time : Time
  doing : Doing

/-- A reading side that listens, or how it ended and when, and the world. -/
structure Listener where
  reading : Except (Ending × Time) ReadSide
  world : World

namespace Listener

/-- The listener once it has looked at the close signal. -/
def notice (k : Handle) (now : Time) (l : Listener) : Listener :=
  match l.reading with
  | .error _ => l
  | .ok _ =>
    if l.world.hub.isCancelled k.id then { l with reading := .error (.cancelled, now) } else l

/-- A listener that begins. -/
def start (k : Handle) (idle : Duration) (now : Time) (w : World) : Listener :=
  notice k now ⟨.ok (.start idle now), w⟩

/-- What is done at a time while the side listens. -/
def meet (k : Handle) (idle : Duration) (now : Time) (side : ReadSide) (w : World) :
    Doing → Listener
  | .comes a gaps =>
    let x := (side.take k idle now a).amid gaps w
    ⟨x.result.mapError (·, now), x.world⟩
  | .others ds => ⟨.ok side, w.undergoAll ds⟩

/-- An occurrence. A side whose deadline is before it has ended there, and one that has ended hears
nothing any more. -/
def hear (k : Handle) (idle : Duration) (l : Listener) (m : Occurrence) : Listener :=
  match l.reading with
  | .error _ => l
  | .ok side =>
    if side.deadline < m.time then { l with reading := .error (.idleTimeout, side.deadline) }
    else notice k m.time (meet k idle m.time side l.world m.doing)

/-- Some occurrences, one after the other. -/
def listen (k : Handle) (idle : Duration) (l : Listener) (ms : List Occurrence) : Listener :=
  ms.foldl (hear k idle) l

/-- How a listener ends, and when, if nothing else happens. -/
def ending (l : Listener) : Ending × Time :=
  match l.reading with
  | .ok side => (.idleTimeout, side.deadline)
  | .error e => e

/-- The close signal is not tripped while the side listens. -/
def Untripped (k : Handle) (idle : Duration) (l : Listener) (ms : List Occurrence) : Prop :=
  ∀ n, (l.listen k idle (ms.take n)).world.hub.isCancelled k.id = false

end Listener

/-! ## Vitals -/

/-- What matters for how long a side listens. -/
inductive Vital where
  | pong
  | stop (ending : Ending)
  deriving DecidableEq, Repr

/-- Whether something that comes matters for how long a side listens. -/
def Arrival.vital? : Arrival → Option Vital
  | .item (.pong _) => some .pong
  | .item (.close _) => some (.stop .peerClosed)
  | .failed => some (.stop .readError)
  | .ended => some (.stop .peerClosed)
  | .item (.text _) | .item (.binary _) | .item (.ping _) => none

def Doing.vital? : Doing → Option Vital
  | .comes a _ => a.vital?
  | .others _ => none

/-- What matters in some occurrences, each with its time. -/
def vitals (ms : List Occurrence) : List (Time × Vital) :=
  ms.filterMap fun m => m.doing.vital?.map (m.time, ·)

section Lulls

variable {start idle t u b : Time} {vs : List (Time × Vital)} {e : Ending}

/-- The time of the last pong until a time, or the time at which listening began. -/
def lastPong (start : Time) (vs : List (Time × Vital)) (t : Time) : Time :=
  vs.foldl (fun last v => if v.2 = .pong ∧ v.1 ≤ t then v.1 else last) start

/-- The times that are an idle timeout after the last pong until then. -/
def lulls (start : Time) (idle : Nat) (vs : List (Time × Vital)) : Set Time :=
  {t | t = lastPong start vs t + idle}

/-- The first thing that ends a connection, and when. -/
def firstStop (vs : List (Time × Vital)) : Option (Ending × Time) :=
  vs.findSome? fun v =>
    match v.2 with
    | .stop e => some (e, v.1)
    | .pong => none

/-- What ends the connection, if it comes by the lull, and else the lull. -/
def verdict (lull : Time) (vs : List (Time × Vital)) : Ending × Time :=
  match firstStop vs with
  | some (e, t) => if t ≤ lull then (e, t) else (.idleTimeout, lull)
  | none => (.idleTimeout, lull)

/-- A pong in time moves the beginning; anything else does not count. -/
theorem lastPong_cons (v : Time × Vital) :
    lastPong start (v :: vs) t =
      lastPong (if v.2 = .pong ∧ v.1 ≤ t then v.1 else start) vs t := rfl

/-- The last pong is one of the pongs, unless there was none. -/
theorem lastPong_cases (start : Time) (vs : List (Time × Vital)) (t : Time) :
    lastPong start vs t = start ∨ ∃ v ∈ vs, v.1 ≤ t ∧ lastPong start vs t = v.1 := by
  induction vs generalizing start with
  | nil => exact Or.inl rfl
  | cons v vs ih =>
    rw [lastPong_cons]
    split
    next hpong =>
      rcases ih v.1 with heq | ⟨v', hmem, hle, heq⟩
      · exact Or.inr ⟨v, List.mem_cons_self, hpong.2, heq⟩
      · exact Or.inr ⟨v', List.mem_cons_of_mem v hmem, hle, heq⟩
    next =>
      rcases ih start with heq | ⟨v', hmem, hle, heq⟩
      · exact Or.inl heq
      · exact Or.inr ⟨v', List.mem_cons_of_mem v hmem, hle, heq⟩

theorem le_lastPong (hvs : ∀ v ∈ vs, start ≤ v.1) : start ≤ lastPong start vs t := by
  rcases lastPong_cases start vs t with heq | ⟨v, hmem, -, heq⟩
  · exact heq.ge
  · exact heq ▸ hvs v hmem

theorem lastPong_of_lt (hvs : ∀ v ∈ vs, t < v.1) : lastPong start vs t = start := by
  rcases lastPong_cases start vs t with heq | ⟨v, hmem, hle, -⟩
  · exact heq
  · exact absurd (hvs v hmem) (Nat.not_lt.mpr hle)

/-- A lull takes an idle timeout at least. -/
theorem le_of_mem_lulls (hvs : ∀ v ∈ vs, start ≤ v.1) (ht : t ∈ lulls start idle vs) :
    start + idle ≤ t := by
  have hlast : start ≤ lastPong start vs t := le_lastPong hvs
  have heq : t = lastPong start vs t + idle := ht
  unfold Time at *
  omega

/-- When nothing comes by the first deadline, that is the lull. -/
theorem isLeast_lulls_of_lt (hvs : ∀ v ∈ vs, start + idle < v.1) :
    IsLeast (lulls start idle vs) (start + idle) := by
  refine ⟨?_, fun t ht => le_of_mem_lulls (fun v hv => ?_) ht⟩
  · show _ = lastPong start vs (start + idle) + idle
    rw [lastPong_of_lt hvs]
  · exact Nat.le_of_lt (Nat.lt_of_le_of_lt (Nat.le_add_right start idle) (hvs v hv))

/-- What ends a connection is no pong, so the lulls are the same without it. -/
theorem lulls_cons_stop : lulls start idle ((u, .stop e) :: vs) = lulls start idle vs := by
  ext t
  show t = lastPong start ((u, .stop e) :: vs) t + idle ↔ t = lastPong start vs t + idle
  rw [lastPong_cons, if_neg fun h => (nomatch h.1)]

/-- After a pong that came by the deadline it is as if listening began there. -/
theorem lulls_cons_pong (hu : u ≤ start + idle) (hvs : ∀ v ∈ vs, u ≤ v.1) :
    lulls start idle ((u, .pong) :: vs) = lulls u idle vs := by
  ext t
  show t = lastPong start ((u, .pong) :: vs) t + idle ↔ t = lastPong u vs t + idle
  rw [lastPong_cons]
  by_cases hut : u ≤ t
  · rw [if_pos ⟨rfl, hut⟩]
  · -- before the pong neither list knows of any, and neither deadline has come
    have hlate : ∀ v ∈ vs, t < v.1 := fun v hv =>
      Nat.lt_of_lt_of_le (Nat.lt_of_not_le hut) (hvs v hv)
    rw [if_neg fun h => hut h.2, lastPong_of_lt hlate, lastPong_of_lt hlate]
    unfold Time at *
    omega

/-- There is a lull, and a first one. -/
theorem exists_isLeast_lulls (hsorted : vs.Pairwise (·.1 ≤ ·.1)) :
    ∃ b, IsLeast (lulls start idle vs) b := by
  induction vs generalizing start with
  | nil => exact ⟨_, isLeast_lulls_of_lt fun v hv => (nomatch hv)⟩
  | cons v vs ih =>
    obtain ⟨hfirst, hrest⟩ := List.pairwise_cons.mp hsorted
    obtain ⟨u, kind⟩ := v
    by_cases hu : u ≤ start + idle
    · cases kind with
      | pong =>
        rw [lulls_cons_pong hu hfirst]
        exact ih hrest
      | stop e =>
        rw [lulls_cons_stop]
        exact ih hrest
    · refine ⟨_, isLeast_lulls_of_lt (List.forall_mem_cons.mpr ⟨Nat.lt_of_not_le hu, ?_⟩)⟩
      intro v hv
      exact Nat.lt_of_lt_of_le (Nat.lt_of_not_le hu) (hfirst v hv)

theorem verdict_cons_pong : verdict b ((u, .pong) :: vs) = verdict b vs := rfl

theorem verdict_cons_stop (hu : u ≤ b) : verdict b ((u, .stop e) :: vs) = (e, u) := by
  show (if u ≤ b then _ else _) = _
  rw [if_pos hu]

/-- What comes after the lull is not heard. -/
theorem verdict_of_lt (hvs : ∀ v ∈ vs, b < v.1) : verdict b vs = (.idleTimeout, b) := by
  unfold verdict firstStop
  split
  next e t hfound =>
    obtain ⟨v, hmem, hv⟩ := List.exists_of_findSome?_eq_some hfound
    have hlate := hvs v hmem
    split at hv
    next =>
      cases hv
      rw [if_neg (Nat.not_le.mpr hlate)]
    next => cases hv
  next => rfl

end Lulls

/-! ## What an occurrence does to the reading side -/

namespace Listener

variable {k : Handle} {idle : Duration} {now : Time} {l : Listener} {side : ReadSide} {w : World}
  {m : Occurrence} {ms : List Occurrence} {d : Doing} {e : Ending}

theorem world_notice : (notice k now l).world = l.world := by
  unfold notice
  split
  next => rfl
  next => split <;> rfl

theorem notice_of_untripped (hun : l.world.hub.isCancelled k.id = false) : notice k now l = l := by
  unfold notice
  split
  next => rfl
  next => rw [if_neg (by rw [hun]; exact Bool.false_ne_true)]

theorem listen_cons : l.listen k idle (m :: ms) = (l.hear k idle m).listen k idle ms := rfl

/-- A side that has ended hears nothing any more. -/
theorem listen_of_error {r : Ending × Time} (h : l.reading = .error r) :
    l.listen k idle ms = l := by
  induction ms with
  | nil => rfl
  | cons m ms ih =>
    have hhear : l.hear k idle m = l := by
      unfold hear
      rw [h]
    rw [listen_cons, hhear, ih]

/-- An occurrence after the deadline finds that the side has ended there. -/
theorem hear_of_late (hlate : side.deadline < m.time) :
    hear k idle ⟨.ok side, w⟩ m = ⟨.error (.idleTimeout, side.deadline), w⟩ :=
  if_pos hlate

/-- An occurrence up to the deadline is met, and then the signal is looked at. -/
theorem hear_of_le (hle : m.time ≤ side.deadline) :
    hear k idle ⟨.ok side, w⟩ m = notice k m.time (meet k idle m.time side w m.doing) :=
  if_neg (Nat.not_lt.mpr hle)

/-- A pong moves the deadline. -/
theorem reading_meet_of_pong (hd : d.vital? = some .pong) :
    (meet k idle now side w d).reading = .ok { side with deadline := now + idle.toNanos } := by
  cases d with
  | others ds => cases hd
  | comes a gaps =>
    cases a with
    | item i => cases i <;> first | rfl | cases hd
    | failed | ended => cases hd

/-- A close, a failure or the end of the connection ends the side there and then. -/
theorem reading_meet_of_stop (hd : d.vital? = some (.stop e)) :
    (meet k idle now side w d).reading = .error (e, now) := by
  cases d with
  | others ds => cases hd
  | comes a gaps =>
    cases a with
    | item i => cases i <;> cases hd; rfl
    | failed | ended => cases hd; rfl

/-- Nothing else moves the deadline. -/
theorem reading_meet_of_none (hd : d.vital? = none) :
    ∃ inCall, (meet k idle now side w d).reading = .ok { side with inCall := inCall } := by
  cases d with
  | others ds => exact ⟨side.inCall, rfl⟩
  | comes a gaps =>
    cases a with
    | item i =>
      cases i with
      | text s =>
        have hmap := Program.amid_map (ReadSide.actOnText k side.inCall s)
          (fun inCall => (Except.ok { side with inCall := inCall } : Except Ending ReadSide)) gaps w
        refine ⟨_, congrArg (fun x : Program.Course _ => x.result.mapError (·, now)) hmap⟩
      | binary | ping => exact ⟨side.inCall, rfl⟩
      | pong | close => cases hd
    | failed | ended => cases hd

/-- A side that goes on after something was met in time has a deadline that is not over. -/
theorem le_deadline_of_meet {side' : ReadSide} (hle : now ≤ side.deadline)
    (h : (meet k idle now side w d).reading = .ok side') : now ≤ side'.deadline := by
  cases hd : d.vital? with
  | none =>
    obtain ⟨inCall, heq⟩ : ∃ inCall, (meet k idle now side w d).reading =
        .ok { side with inCall := inCall } := reading_meet_of_none hd
    rw [heq] at h
    cases h
    exact hle
  | some v =>
    cases v with
    | pong =>
      rw [reading_meet_of_pong hd] at h
      cases h
      exact Nat.le_add_right now idle.toNanos
    | stop e =>
      rw [reading_meet_of_stop hd] at h
      cases h

/-! ## How listening ends -/

theorem Untripped.tail (hun : Untripped k idle l (m :: ms)) :
    Untripped k idle (l.hear k idle m) ms := fun n => hun (n + 1)

/-- An occurrence that is heard while the close signal is not tripped is what is done then. -/
theorem Untripped.hear_eq (hun : Untripped k idle ⟨.ok side, w⟩ (m :: ms))
    (hle : m.time ≤ side.deadline) {reading : Except (Ending × Time) ReadSide}
    (hreading : (meet k idle m.time side w m.doing).reading = reading) :
    hear k idle ⟨.ok side, w⟩ m = ⟨reading, (meet k idle m.time side w m.doing).world⟩ := by
  have hafter : (hear k idle ⟨.ok side, w⟩ m).world.hub.isCancelled k.id = false := hun 1
  rw [hear_of_le hle] at hafter ⊢
  rw [world_notice] at hafter
  rw [notice_of_untripped hafter, ← hreading]

/-- Occurrences in the order of time. -/
def Ordered (start : Time) (ms : List Occurrence) : Prop :=
  (∀ m ∈ ms, start ≤ m.time) ∧ ms.Pairwise (·.time ≤ ·.time)

instance {start : Time} : Decidable (Ordered start ms) := by
  unfold Ordered
  infer_instance

instance : Decidable (Untripped k idle l ms) :=
  decidable_of_iff (∀ n < ms.length + 1,
      (l.listen k idle (ms.take n)).world.hub.isCancelled k.id = false) (by
    refine ⟨fun h n => ?_, fun h n _ => h n⟩
    by_cases hn : n < ms.length + 1
    · exact h n hn
    · rw [List.take_of_length_le (by omega), ← List.take_length (l := ms)]
      exact h ms.length (Nat.lt_succ_self _))

theorem Ordered.tail {start : Time} (h : Ordered start (m :: ms)) : Ordered m.time ms :=
  List.pairwise_cons.mp h.2

theorem Ordered.weaken {start earlier : Time} (h : Ordered start ms) (hle : earlier ≤ start) :
    Ordered earlier ms :=
  ⟨fun m hm => Nat.le_trans hle (h.1 m hm), h.2⟩

theorem forall_vitals {P : Time → Prop} (h : ∀ m ∈ ms, P m.time) : ∀ v ∈ vitals ms, P v.1 := by
  intro v hv
  obtain ⟨m, hm, hvital⟩ := List.mem_filterMap.mp hv
  obtain ⟨kind, -, rfl⟩ := Option.map_eq_some_iff.mp hvital
  exact h m hm

theorem vitals_cons (m : Occurrence) (ms : List Occurrence) :
    vitals (m :: ms) = (m.doing.vital?.map (m.time, ·)).toList ++ vitals ms := by
  unfold vitals
  cases h : m.doing.vital? <;> simp [h]

/-- A listener ends at the first lull, or with what ends the connection by then. -/
theorem ending_listen {last b : Time} (hdeadline : side.deadline = last + idle.toNanos)
    (horder : Ordered last ms) (hun : Untripped k idle ⟨.ok side, w⟩ ms)
    (hb : IsLeast (lulls last idle.toNanos (vitals ms)) b) :
    (listen k idle ⟨.ok side, w⟩ ms).ending = verdict b (vitals ms) := by
  induction ms generalizing last side w with
  | nil =>
    have hlull : b = last + idle.toNanos := hb.1
    show (Ending.idleTimeout, side.deadline) = (.idleTimeout, b)
    rw [hdeadline, hlull]
  | cons m ms ih =>
    rw [listen_cons]
    have hrest := horder.tail
    by_cases hlate : side.deadline < m.time
    · -- nothing that is still to come is heard
      have hvs : ∀ v ∈ vitals (m :: ms), last + idle.toNanos < v.1 := by
        rw [← hdeadline]
        exact forall_vitals (List.forall_mem_cons.mpr
          ⟨hlate, fun m' hm' => Nat.lt_of_lt_of_le hlate (hrest.1 m' hm')⟩)
      have hlull : b = last + idle.toNanos := hb.unique (isLeast_lulls_of_lt hvs)
      rw [hear_of_late hlate, listen_of_error rfl, verdict_of_lt (hlull ▸ hvs), hlull, ← hdeadline]
      rfl
    · have hle : m.time ≤ side.deadline := Nat.le_of_not_lt hlate
      have huntail := hun.tail
      rw [vitals_cons] at hb ⊢
      cases hvital : m.doing.vital? with
      | none =>
        rw [hvital] at hb
        obtain ⟨inCall, hreading⟩ := reading_meet_of_none hvital
        rw [hun.hear_eq hle hreading] at huntail ⊢
        have hsame : ({ side with inCall := inCall } : ReadSide).deadline =
            last + idle.toNanos := hdeadline
        exact ih hsame (hrest.weaken (horder.1 m List.mem_cons_self)) huntail hb
      | some v =>
        rw [hvital] at hb
        replace hb : IsLeast (lulls last idle.toNanos ((m.time, v) :: vitals ms)) b := hb
        have hlater : ∀ v ∈ vitals ms, m.time ≤ v.1 := forall_vitals hrest.1
        cases v with
        | pong =>
          rw [lulls_cons_pong (hdeadline ▸ hle) hlater] at hb
          rw [hun.hear_eq hle (reading_meet_of_pong hvital)] at huntail ⊢
          exact (ih rfl hrest huntail hb).trans verdict_cons_pong.symm
        | stop e =>
          have hlast : ∀ v ∈ (m.time, Vital.stop e) :: vitals ms, last ≤ v.1 :=
            List.forall_mem_cons.mpr ⟨horder.1 m List.mem_cons_self,
              forall_vitals fun m' hm' => horder.1 m' (List.mem_cons_of_mem m hm')⟩
          have hby : m.time ≤ b := Nat.le_trans (hdeadline ▸ hle) (le_of_mem_lulls hlast hb.1)
          rw [hun.hear_eq hle (reading_meet_of_stop hvital), listen_of_error rfl]
          exact (verdict_cons_stop hby).symm

/-! ## From the beginning -/

/-- A listener whose signal is not tripped begins by listening. -/
theorem start_eq (hun : Untripped k idle (start k idle now w) ms) :
    start k idle now w = ⟨.ok (.start idle now), w⟩ := by
  have hbefore : (start k idle now w).world.hub.isCancelled k.id = false := hun 0
  unfold start at hbefore ⊢
  rw [world_notice] at hbefore
  exact notice_of_untripped hbefore

/-- What a listener hears ends it as its vitals say. -/
theorem ending_eq_verdict (horder : Ordered now ms)
    (hun : Untripped k idle (start k idle now w) ms) :
    ∃ b, IsLeast (lulls now idle.toNanos (vitals ms)) b ∧
      ((start k idle now w).listen k idle ms).ending = verdict b (vitals ms) := by
  have hsorted : (vitals ms).Pairwise (·.1 ≤ ·.1) := by
    refine horder.2.filterMap _ fun m m' hle v hv v' hv' => ?_
    obtain ⟨_, -, rfl⟩ := Option.map_eq_some_iff.mp hv
    obtain ⟨_, -, rfl⟩ := Option.map_eq_some_iff.mp hv'
    exact hle
  obtain ⟨b, hb⟩ : ∃ b, IsLeast (lulls now idle.toNanos (vitals ms)) b :=
    exists_isLeast_lulls hsorted
  refine ⟨b, hb, ?_⟩
  have hstart := start_eq hun
  rw [hstart] at hun ⊢
  exact ending_listen rfl horder hun hb

/-- Two listeners that began at the same time, and of what matters heard the same, end alike. -/
theorem ending_congr {w' : World} {ms' : List Occurrence} (horder : Ordered now ms)
    (horder' : Ordered now ms') (hun : Untripped k idle (start k idle now w) ms)
    (hun' : Untripped k idle (start k idle now w') ms') (hsame : vitals ms' = vitals ms) :
    ((start k idle now w').listen k idle ms').ending =
      ((start k idle now w).listen k idle ms).ending := by
  obtain ⟨b, hb, hending⟩ := ending_eq_verdict horder hun
  obtain ⟨b', hb', hending'⟩ := ending_eq_verdict horder' hun'
  rw [hsame] at hb' hending'
  rw [hending, hending', hb'.unique hb]

end Listener

/-! ## What others do meanwhile -/

/-- What others do in an occurrence. -/
def Doing.deeds : Doing → List Deed
  | .comes _ gaps => gaps.flatten
  | .others ds => ds

/-- What is left of an occurrence when nothing comes then: what others do. -/
def Occurrence.residue (m : Occurrence) : List Occurrence :=
  if m.doing.deeds.isEmpty then [] else [⟨m.time, .others m.doing.deeds⟩]

/-- What is left of an occurrence is what others do in it, or nothing when they do nothing. -/
theorem Occurrence.residue_cases (m : Occurrence) :
    (m.residue = [] ∧ m.doing.deeds = []) ∨ m.residue = [⟨m.time, .others m.doing.deeds⟩] := by
  unfold residue
  split
  next hempty => exact Or.inl ⟨rfl, List.isEmpty_iff.mp hempty⟩
  next => exact Or.inr rfl

/-! ## A session that reads all there is -/

namespace Session

open Listener (hear listen meet notice)

variable {cfg : HubSettings} {now : Time} {side : ReadSide}

/-- Reading on and on from a socket finds these arrivals, and leaves this socket. -/
inductive Finds (cfg : HubSettings) :
    WebSocket.Socket → List Arrival → WebSocket.Socket → Prop where
  | nil {socket : WebSocket.Socket} : Finds cfg socket [] socket
  | cons {socket last : WebSocket.Socket} {a : Arrival} {as : List Arrival}
      (h : arrivalOf (socket.read cfg.maxFrame).1 = some a)
      (rest : Finds cfg (socket.read cfg.maxFrame).2 as last) : Finds cfg socket (a :: as) last

/-- What comes at one time. -/
def atOnce (now : Time) (as : List Arrival) : List Occurrence := as.map fun a => ⟨now, .comes a []⟩

/-- What a session has read, beside a listener that heard it. -/
structure Heard (cfg : HubSettings) (now : Time) (last : WebSocket.Socket) (l : Listener)
    (r : Session × World) : Prop where
  ended : ∀ e t, l.reading = .error (e, t) → r.1.reading = .error e ∧ r.2 = l.world ∧ t = now
  waits : ∀ side, l.reading = .ok side → arrivalOf (last.read cfg.maxFrame).1 = none →
    r.1.reading = side.wait now ∧ r.2 = l.world

section Reading

variable {fuel : Nat} {s : Session} {w : World} {last : WebSocket.Socket}

/-- A session that reads finds a tripped signal first. -/
theorem readWithin_of_cancelled (hreading : s.reading = .ok side)
    (htripped : s.isCancelled w = true) :
    readWithin cfg now (fuel + 1) s w = ({ s with reading := .error .cancelled }, w) := by
  unfold readWithin
  rw [hreading, htripped]
  rfl

/-- A session that finds nothing to read waits, until its deadline at most. -/
theorem readWithin_of_waiting (hreading : s.reading = .ok side)
    (hun : s.isCancelled w = false) (hwait : arrivalOf (s.socket.read cfg.maxFrame).1 = none) :
    (readWithin cfg now (fuel + 1) s w).1.reading = side.wait now ∧
      (readWithin cfg now (fuel + 1) s w).2 = w := by
  unfold readWithin
  rw [hreading]
  simp only [hun, Bool.false_eq_true, if_false, hwait, and_self]

/-- A session that finds something to read takes it and reads on. -/
theorem readWithin_of_arrival {a : Arrival} (hreading : s.reading = .ok side)
    (hun : s.isCancelled w = false) (ha : arrivalOf (s.socket.read cfg.maxFrame).1 = some a) :
    readWithin cfg now (fuel + 1) s w =
      readWithin cfg now fuel
        { s with
          socket := (s.socket.read cfg.maxFrame).2
          reading := ((side.take s.handle cfg.idleTimeout now a).run w).1 }
        ((side.take s.handle cfg.idleTimeout now a).run w).2 := by
  conv_lhs => unfold readWithin
  rw [hreading]
  simp only [hun, Bool.false_eq_true, if_false, ha]

theorem readWithin_of_error {e : Ending} (hreading : s.reading = .error e) :
    readWithin cfg now fuel s w = (s, w) := by
  cases fuel with
  | zero => rfl
  | succ fuel =>
    unfold readWithin
    rw [hreading]

/-- A tripped close signal ends both at once. -/
theorem heard_of_cancelled {as : List Arrival} (hreading : s.reading = .ok side)
    (htripped : s.isCancelled w = true) :
    Heard cfg now last
      (listen s.handle cfg.idleTimeout (notice s.handle now ⟨.ok side, w⟩) (atOnce now as))
      (readWithin cfg now (fuel + 1) s w) := by
  have hnotice : notice s.handle now ⟨.ok side, w⟩ = ⟨.error (.cancelled, now), w⟩ :=
    if_pos htripped
  rw [hnotice, Listener.listen_of_error rfl, readWithin_of_cancelled hreading htripped]
  refine ⟨fun e t h => ?_, fun side' h => (nomatch h)⟩
  cases h
  exact ⟨rfl, rfl, rfl⟩

/-- A session that reads all there is hears it as a listener does, and then waits. -/
theorem readWithin_listen {as : List Arrival} (hreading : s.reading = .ok side)
    (hle : now ≤ side.deadline) (hfinds : Finds cfg s.socket as last) (hfuel : as.length ≤ fuel) :
    Heard cfg now last
      (listen s.handle cfg.idleTimeout (notice s.handle now ⟨.ok side, w⟩) (atOnce now as))
      (readWithin cfg now (fuel + 1) s w) := by
  induction as generalizing fuel s w side with
  | nil =>
    cases hfinds
    cases htripped : s.isCancelled w with
    | true => exact heard_of_cancelled hreading htripped
    | false =>
      have hnotice : notice s.handle now ⟨.ok side, w⟩ = ⟨.ok side, w⟩ :=
        Listener.notice_of_untripped htripped
      rw [hnotice]
      refine ⟨fun e t h => (nomatch h), fun side' h hwait => ?_⟩
      cases h
      exact readWithin_of_waiting hreading htripped hwait
  | cons a as ih =>
    cases htripped : s.isCancelled w with
    | true => exact heard_of_cancelled hreading htripped
    | false =>
      obtain ⟨n, rfl⟩ : ∃ n, fuel = n + 1 := Nat.exists_eq_add_one.mpr (Nat.lt_of_lt_of_le
        (Nat.succ_pos as.length) hfuel)
      cases hfinds with
      | cons ha hrest =>
        have hnotice : notice s.handle now ⟨.ok side, w⟩ = ⟨.ok side, w⟩ :=
          Listener.notice_of_untripped htripped
        obtain ⟨hresult, hworld⟩ := Program.amid_nil (side.take s.handle cfg.idleTimeout now a) w
        rw [hnotice, readWithin_of_arrival hreading htripped ha]
        show Heard cfg now last (listen s.handle cfg.idleTimeout
          (hear s.handle cfg.idleTimeout ⟨.ok side, w⟩ ⟨now, .comes a []⟩) (atOnce now as)) _
        rw [Listener.hear_of_le hle]
        have hmeet : meet s.handle cfg.idleTimeout now side w (.comes a []) =
            ⟨((side.take s.handle cfg.idleTimeout now a).run w).1.mapError (·, now),
              ((side.take s.handle cfg.idleTimeout now a).run w).2⟩ := by
          rw [← hresult, ← hworld]
          rfl
        cases htake : ((side.take s.handle cfg.idleTimeout now a).run w).1 with
        | error e =>
          rw [htake] at hmeet
          rw [hmeet, readWithin_of_error rfl]
          show Heard cfg now last (listen _ _ ⟨.error (e, now), _⟩ _) _
          rw [Listener.listen_of_error rfl]
          refine ⟨fun e' t h => ?_, fun side' h => (nomatch h)⟩
          cases h
          exact ⟨rfl, rfl, rfl⟩
        | ok side' =>
          rw [htake] at hmeet
          have hlater : now ≤ side'.deadline :=
            Listener.le_deadline_of_meet hle (congrArg Listener.reading hmeet)
          rw [hmeet]
          exact ih (s := { s with socket := _, reading := .ok side' }) rfl hlater hrest
            (Nat.le_of_succ_le_succ hfuel)

end Reading

end Session

end RoomHub
