import Mathlib.Data.Set.Card
import RoomHub.Proofs.CallMarks
import RoomHub.Proofs.Tables

/-!
# The call tracker as a family of counters

The tracker is a table of tables, in which users and rooms come and go. To those who mark users in
and out it is a counter for each user in each room, which goes up by one and down by one but not
below zero (`Mark.tally`), and a name that is the one given last. Nothing is asked of the series of
marks: a user may be marked out more often than in.

`Recalls t xs` says that a tracker holds the counters of a series of marks and the names given
last. A mark preserves it (`recalls_update`), so it holds after every series (`recalls_play`). What
a mark is answered and what it leaves behind depend on the entry of its user in its room only
(`play_entry`), so the marks of different users or rooms may be told in any order.

> `is_family_of_counters`: after every series of marks, the answers along the way and the counts
> are those of the counters, the snapshots list who is counted under the name given last, and the
> rooms are those with somebody counted; marks of different users or rooms are independent.
-/

namespace RoomHub

open Std (ExtTreeMap)
open Tables (Stands)

namespace Mark

variable {r : RoomId} {u : UserId} {p : Participant} {x : Mark} {xs : List Mark}

/-- What a mark does to a counter: one more, or one less unless it is at zero. -/
def step : Mark → Nat → Nat
  | .enter _ _, n => n + 1
  | .leave _ _, n => n - 1

/-- The counter of a user in a room after a series of marks, moved by the marks of that user in
that room. -/
def tally (r : RoomId) (u : UserId) (xs : List Mark) : Nat :=
  (xs.filter (·.IsAt r u)).foldl (fun n x => x.step n) 0

/-- Who enters the call of a room by a mark. -/
def entrant? (r : RoomId) : Mark → Option Participant
  | .enter r' p => if r' = r then some p else none
  | .leave _ _ => none

/-- Who entered the call of a room in a series of marks, one after the other. -/
def entrants (r : RoomId) (xs : List Mark) : List Participant := xs.filterMap (entrant? r)

/-- One more mark is a step of the counter it is for and of no other. -/
theorem tally_concat :
    tally r u (xs ++ [x]) = if x.IsAt r u then x.step (tally r u xs) else tally r u xs := by
  unfold tally
  rw [List.filter_append]
  by_cases hat : x.IsAt r u
  · rw [if_pos hat, List.filter_cons_of_pos (by simpa using hat), List.filter_nil,
      List.foldl_append, List.foldl_cons, List.foldl_nil]
  · rw [if_neg hat, List.filter_cons_of_neg (by simpa using hat), List.filter_nil,
      List.append_nil]

/-- A counter is never ahead of the number of marks, so it does not outgrow a machine word in a
series that the word can count. -/
theorem tally_le_length : tally r u xs ≤ xs.length := by
  induction xs using List.reverseRecOn with
  | nil => exact Nat.le_refl 0
  | append_singleton xs x ih =>
    rw [tally_concat, List.length_append, List.length_singleton]
    cases x <;> simp only [step] <;> split <;> omega

/-- Whoever enters a room is the latest of its entrants. -/
theorem entrants_enter {r' : RoomId} : entrants r (xs ++ [.enter r' p])
    = if r' = r then entrants r xs ++ [p] else entrants r xs := by
  unfold entrants
  rw [List.filterMap_append]
  split
  next hr => simp [entrant?, hr]
  next hr => simp [entrant?, hr]

/-- Leaving adds no entrant. -/
theorem entrants_leave {r' : RoomId} : entrants r (xs ++ [.leave r' u]) = entrants r xs := by
  unfold entrants
  rw [List.filterMap_append]
  exact List.append_nil _

/-- Marks of different users or rooms may change places, and each user is told the same in each
room as before. -/
theorem filter_swap {y : Mark} (hapart : ¬x.IsAt y.room y.user) (before after : List Mark) :
    (before ++ x :: y :: after).filter (·.IsAt r u)
      = (before ++ y :: x :: after).filter (·.IsAt r u) := by
  simp only [List.filter_append, List.filter_cons, decide_eq_true_eq]
  by_cases hx : x.IsAt r u
  · have hy : ¬y.IsAt r u := fun hy => hapart ⟨hx.1.trans hy.1.symm, hx.2.trans hy.2.symm⟩
    rw [if_neg hy, if_neg hy]
  · rw [if_neg hx, if_neg hx]

end Mark

namespace CallTracker

variable {t t' : CallTracker} {r : RoomId} {u : UserId} {p : Participant} {e : CallEntry}
variable {x y : Mark} {xs ys : List Mark}

/-! ## One mark -/

/-- Carries out a mark, and answers the new count. -/
def update : Mark → CallTracker → Nat × CallTracker
  | .enter r p, t => t.markIn r p
  | .leave r u, t => t.markOut r u

/-- An update changes the tracker as the mark alone does. -/
theorem update_snd : (t.update x).2 = t.mark x := by cases x <;> rfl

/-- A mark is answered by where the counter of its user stands then. -/
theorem update_fst : (t.update x).1 = x.step (t.count x.room x.user) := by
  cases x with
  | enter r p => rfl
  | leave r u =>
    show (t.markOut r u).1 = t.count r u - 1
    unfold markOut count
    cases (t.users r)[u]? <;> rfl

/-- A mark rewrites the slot of its user in its room and no other. -/
theorem slot?_update : (t.update x).2.slot? r u
    = if x.IsAt r u then x.rewrite (t.slot? r u) else t.slot? r u := by
  rw [update_snd, slot?_mark]

/-- A mark is a step of the counter of its user in its room and of no other. -/
theorem count_update : (t.update x).2.count r u
    = if x.IsAt r u then x.step (t.count r u) else t.count r u := by
  rw [update_snd]
  cases x with
  | enter r' p =>
    show (t.markIn r' p).2.count r u = _
    rw [count_markIn]
    refine ite_congr rfl (fun hat => ?_) fun _ => rfl
    obtain ⟨rfl, rfl⟩ := hat
    rfl
  | leave r' v =>
    show (t.markOut r' v).2.count r u = _
    rw [count_markOut]
    refine ite_congr rfl (fun hat => ?_) fun _ => rfl
    obtain ⟨rfl, rfl⟩ := hat
    rfl

/-- An update leaves no empty room and no counter at zero. -/
theorem kept_update (ht : Kept t) (x : Mark) : Kept (t.update x).2 := by
  rw [update_snd]
  exact kept_mark ht x

/-! ## A series of marks -/

/-- Carries out marks one after the other, and notes what each of them is answered. -/
def play : List Mark → CallTracker → List (Mark × Nat) × CallTracker
  | [], t => ([], t)
  | x :: xs, t =>
    let (answer, t) := t.update x
    let (notes, t) := play xs t
    ((x, answer) :: notes, t)

/-- What the marks of a user in a room were answered. -/
def answersAt (r : RoomId) (u : UserId) (notes : List (Mark × Nat)) : List Nat :=
  (notes.filter (·.1.IsAt r u)).map (·.2)

theorem play_cons : t.play (x :: xs)
    = ((x, (t.update x).1) :: ((t.update x).2.play xs).1, ((t.update x).2.play xs).2) :=
  rfl

/-- A series is played by playing its first part and then the rest. -/
theorem play_append : t.play (xs ++ ys)
    = ((t.play xs).1 ++ ((t.play xs).2.play ys).1, ((t.play xs).2.play ys).2) := by
  induction xs generalizing t with
  | nil => rfl
  | cons x xs ih => rw [List.cons_append, play_cons, ih, play_cons, List.cons_append]

/-- The answers for one place are those to the marks of that place. -/
theorem answersAt_cons {n : Nat} {notes : List (Mark × Nat)} : answersAt r u ((x, n) :: notes)
    = if x.IsAt r u then n :: answersAt r u notes else answersAt r u notes := by
  unfold answersAt
  by_cases hat : x.IsAt r u <;> simp [hat]

/-- After any series there is no empty room and no counter at zero. -/
theorem kept_play (ht : Kept t) (xs : List Mark) : Kept (t.play xs).2 := by
  induction xs generalizing t with
  | nil => exact ht
  | cons x xs ih => exact ih (kept_update ht x)

/-- What the marks of a user in a room are answered, and what they make of the entry, is the same
without all other marks. -/
theorem play_entry (hslot : t.slot? r u = t'.slot? r u) (xs : List Mark) :
    answersAt r u (t.play xs).1 = (t'.play (xs.filter (·.IsAt r u))).1.map (·.2) ∧
      (t.play xs).2.slot? r u = (t'.play (xs.filter (·.IsAt r u))).2.slot? r u := by
  induction xs generalizing t t' with
  | nil => exact ⟨rfl, hslot⟩
  | cons x xs ih =>
    by_cases hat : x.IsAt r u
    · -- both sides carry the mark out, and see the same entry
      have hentry : (t.update x).2.slot? r u = (t'.update x).2.slot? r u := by
        rw [slot?_update, slot?_update, hslot]
      have hanswer : (t.update x).1 = (t'.update x).1 := by
        rw [update_fst, update_fst, hat.1, hat.2, count_eq, count_eq, hslot]
      obtain ⟨hanswers, hend⟩ := ih hentry
      rw [List.filter_cons_of_pos (by simpa using hat), play_cons, play_cons, answersAt_cons,
        if_pos hat, List.map_cons, hanswers, hanswer]
      exact ⟨rfl, hend⟩
    · -- the mark is of somebody else, and leaves the entry alone
      have hentry : (t.update x).2.slot? r u = t'.slot? r u := by
        rw [slot?_update, if_neg hat, hslot]
      rw [List.filter_cons_of_neg (by simpa using hat), play_cons, answersAt_cons, if_neg hat]
      exact ih hentry

/-- Series in which each user is told the same in each room end alike. -/
theorem play_reordered (ht : Kept t)
    (hsame : ∀ r u, xs.filter (·.IsAt r u) = ys.filter (·.IsAt r u)) :
    (t.play xs).2 = (t.play ys).2 ∧
      ∀ r u, answersAt r u (t.play xs).1 = answersAt r u (t.play ys).1 := by
  refine ⟨(kept_play ht xs).ext (kept_play ht ys) fun r u => ?_, fun r u => ?_⟩
  · rw [(play_entry rfl xs).2, (play_entry rfl ys).2, hsame]
  · rw [(play_entry rfl xs).1, (play_entry rfl ys).1, hsame]

/-- Marks of different users or rooms are answered without regard to each other, and may change
places. -/
theorem update_comm (ht : Kept t) (hapart : ¬x.IsAt y.room y.user) :
    ((t.update x).2.update y).1 = (t.update y).1 ∧
      ((t.update y).2.update x).1 = (t.update x).1 ∧
      ((t.update x).2.update y).2 = ((t.update y).2.update x).2 := by
  have hapart' : ¬y.IsAt x.room x.user := fun h => hapart ⟨h.1.symm, h.2.symm⟩
  refine ⟨?_, ?_, (play_reordered ht fun r u => Mark.filter_swap hapart [] []).1⟩
  · rw [update_fst, update_fst, count_update, if_neg hapart]
  · rw [update_fst, update_fst, count_update, if_neg hapart']

/-! ## What a tracker recalls of a series -/

/-- A tracker holds the counters of a series of marks, and the names given last. -/
structure Recalls (t : CallTracker) (xs : List Mark) : Prop where
  kept : Kept t
  counted : ∀ r u, t.count r u = Mark.tally r u xs
  named : ∀ {r u e}, t.slot? r u = some e →
    Stands Participant.user e.participant (Mark.entrants r xs)

/-- A tracker that is new recalls the empty series. -/
theorem recalls_empty : Recalls empty [] where
  kept := kept_empty
  counted r u := by simp [count, users, empty, Mark.tally]
  named h := by simp [slot?, users, empty] at h

/-- A mark that enters gives the entry its name; any other mark leaves both the name and the
entrants of that user as they are. -/
theorem Recalls.named_update (h : Recalls t xs) (he : (t.update x).2.slot? r u = some e) :
    Stands Participant.user e.participant (Mark.entrants r (xs ++ [x])) := by
  cases x with
  | enter r' p =>
    have he' : (t.markIn r' p).2.slot? r u = some e := he
    rw [slot?_markIn] at he'
    rw [Mark.entrants_enter]
    split at he'
    next hat =>
      cases he'
      rw [if_pos hat.1]
      exact Tables.stands_concat.mpr (Or.inl rfl)
    next hat =>
      have hstands := h.named he'
      split
      next hr =>
        -- somebody else entered this room
        refine Tables.stands_concat.mpr (Or.inr ⟨fun huser => hat ⟨hr, ?_⟩, hstands⟩)
        exact huser.trans (h.kept.positive he').2
      next => exact hstands
  | leave r' v =>
    have he' : (t.markOut r' v).2.slot? r u = some e := he
    obtain ⟨e', hslot, hsame⟩ := exists_slot_of_markOut he'
    rw [Mark.entrants_leave, ← hsame]
    exact h.named hslot

/-- What the tracker recalls of a series is kept up by one more mark. -/
theorem recalls_update (h : Recalls t xs) (x : Mark) : Recalls (t.update x).2 (xs ++ [x]) where
  kept := kept_update h.kept x
  counted r u := by rw [count_update, Mark.tally_concat, h.counted]
  named he := h.named_update he

/-- After any series the tracker recalls it: counts, names and rooms are those of the series. -/
theorem recalls_play (xs : List Mark) : Recalls (empty.play xs).2 xs := by
  induction xs using List.reverseRecOn with
  | nil => exact recalls_empty
  | append_singleton xs x ih =>
    rw [play_append]
    exact recalls_update ih x

/-- Each mark is answered by where the counter of its user in its room stands after it. -/
theorem answers_play (xs : List Mark) : (empty.play xs).1
    = xs.mapIdx fun i x => (x, Mark.tally x.room x.user (xs.take (i + 1))) := by
  induction xs using List.reverseRecOn with
  | nil => rfl
  | append_singleton xs x ih =>
    have hlast : ((empty.play xs).2.update x).1
        = Mark.tally x.room x.user ((xs ++ [x]).take (xs.length + 1)) := by
      rw [List.take_of_length_le (by simp), Mark.tally_concat, if_pos ⟨rfl, rfl⟩, update_fst,
        (recalls_play xs).counted]
    rw [play_append, List.mapIdx_concat, ih, ← hlast]
    refine congrArg (· ++ _) (List.mapIdx_eq_mapIdx_iff.mpr fun i hi => ?_)
    rw [List.take_append_of_le_length (Nat.succ_le_of_lt hi)]

/-- Shown in a call is who is counted there, under the name given last. -/
theorem Recalls.shows_iff (h : Recalls t xs) :
    t.Shows r p ↔
      0 < Mark.tally r p.user xs ∧ Stands Participant.user p (Mark.entrants r xs) := by
  rw [← h.counted, ← h.kept.isSome_slot, Option.isSome_iff_exists]
  constructor
  · rintro ⟨e, he, rfl⟩
    exact ⟨⟨e, he⟩, h.named he⟩
  · rintro ⟨⟨e, he⟩, hlast⟩
    exact ⟨e, he, (h.named he).unique hlast (h.kept.positive he).2⟩

/-! ## Rooms -/

/-- No room is stored without users, and no user without a connection to count down. -/
theorem Kept.stored (ht : Kept t) {us : ExtTreeMap UserId CallEntry}
    (hus : t.rooms[r]? = some us) :
    us ≠ ∅ ∧ ∀ (u : UserId) (e : CallEntry), us[u]? = some e → 0 < e.count := by
  refine ⟨fun hempty => ht.noEmptyRoom r (hempty ▸ hus), fun u e he => ?_⟩
  have husers : t.users r = us := by
    unfold users
    rw [ExtTreeMap.getD_eq_getD_getElem?, hus, Option.getD_some]
  have hslot : t.slot? r u = some e := by
    unfold slot?
    rw [husers, he]
  exact (ht.positive hslot).1

/-- The rooms are as many as those with somebody counted. -/
theorem Kept.encard_rooms (ht : Kept t) : {r | ∃ u, 0 < t.count r u}.encard = t.roomCount := by
  have hrooms : {r | ∃ u, 0 < t.count r u} = (t.rooms.keys.toFinset : Set RoomId) := by
    ext r
    rw [Finset.mem_coe, List.mem_toFinset, ExtTreeMap.mem_keys, ExtTreeMap.mem_iff_contains,
      ht.contains_rooms]
    rfl
  rw [hrooms, Set.encard_coe_eq_coe_finsetCard,
    List.toFinset_card_of_nodup ExtTreeMap.nodup_keys, ExtTreeMap.length_keys]
  rfl

/-! ## Every series -/

/-- After any series of marks, balanced or not: each mark was answered by where the counter of its
user in its room stood after it, and that counter is the count. A snapshot lists who is counted in
the room, each once and under the name given last. The rooms are as many as those with somebody
counted, none is stored without users, and every entry has a connection to count down. What a user's
marks in a room are answered and leave behind is the same without all other marks, and in whatever
order the marks of different users or rooms come. -/
theorem is_family_of_counters (xs : List Mark) :
    let t := (empty.play xs).2
    (empty.play xs).1
      = xs.mapIdx (fun i x => (x, Mark.tally x.room x.user (xs.take (i + 1)))) ∧
    (∀ r u, t.count r u = Mark.tally r u xs ∧ Mark.tally r u xs ≤ xs.length) ∧
    (∀ r, Participant.IsRoster (t.snapshot r) fun p =>
      0 < Mark.tally r p.user xs ∧ Stands Participant.user p (Mark.entrants r xs)) ∧
    {r | ∃ u, 0 < Mark.tally r u xs}.encard = t.roomCount ∧
    (∀ (r : RoomId) (us : ExtTreeMap UserId CallEntry), t.rooms[r]? = some us →
      us ≠ ∅ ∧ ∀ (u : UserId) (e : CallEntry), us[u]? = some e → 0 < e.count) ∧
    (∀ r u,
      let own := xs.filter (·.IsAt r u)
      answersAt r u (empty.play xs).1 = (empty.play own).1.map (·.2) ∧
        t.slot? r u = (empty.play own).2.slot? r u) ∧
    (∀ ys, (∀ r u, xs.filter (·.IsAt r u) = ys.filter (·.IsAt r u)) →
      t = (empty.play ys).2 ∧
        ∀ r u, answersAt r u (empty.play xs).1 = answersAt r u (empty.play ys).1) ∧
    (∀ x y, ¬x.IsAt y.room y.user →
      ((t.update x).2.update y).1 = (t.update y).1 ∧
        ((t.update y).2.update x).1 = (t.update x).1 ∧
        ((t.update x).2.update y).2 = ((t.update y).2.update x).2) := by
  intro t
  have ht : Recalls t xs := recalls_play xs
  refine ⟨answers_play xs, fun r u => ⟨ht.counted r u, Mark.tally_le_length⟩, fun r => ?_, ?_,
    fun r us hus => ht.kept.stored hus, fun r u => play_entry rfl xs,
    fun ys hsame => play_reordered kept_empty hsame, fun x y => update_comm ht.kept⟩
  · exact ht.kept.isRoster_snapshot.congr fun p => ht.shows_iff
  · rw [← ht.kept.encard_rooms]
    simp only [ht.counted]

/-- Ann enters the call of the lobby twice, the second time as anna, and leaves it once. Bob leaves
it without having entered it, and leaves the call of the attic more often than he entered it. -/
def unbalanced : List Mark :=
  [.leave ⟨⟨7⟩⟩ ⟨⟨6⟩⟩, .enter ⟨⟨7⟩⟩ ⟨⟨⟨5⟩⟩, "ann"⟩, .enter ⟨⟨8⟩⟩ ⟨⟨⟨6⟩⟩, "bob"⟩,
    .enter ⟨⟨7⟩⟩ ⟨⟨⟨5⟩⟩, "anna"⟩, .leave ⟨⟨8⟩⟩ ⟨⟨6⟩⟩, .leave ⟨⟨8⟩⟩ ⟨⟨6⟩⟩, .leave ⟨⟨7⟩⟩ ⟨⟨5⟩⟩]

/-- The same marks, but bob enters the attic only after ann has entered the lobby as anna. -/
def unhurried : List Mark :=
  [.leave ⟨⟨7⟩⟩ ⟨⟨6⟩⟩, .enter ⟨⟨7⟩⟩ ⟨⟨⟨5⟩⟩, "ann"⟩, .enter ⟨⟨7⟩⟩ ⟨⟨⟨5⟩⟩, "anna"⟩,
    .enter ⟨⟨8⟩⟩ ⟨⟨⟨6⟩⟩, "bob"⟩, .leave ⟨⟨8⟩⟩ ⟨⟨6⟩⟩, .leave ⟨⟨8⟩⟩ ⟨⟨6⟩⟩, .leave ⟨⟨7⟩⟩ ⟨⟨5⟩⟩]

theorem is_family_of_counters_unbalanced :
    let t := (empty.play unbalanced).2
    (empty.play unbalanced).1.map (·.2) = [0, 1, 1, 2, 0, 0, 1] ∧
    (∃ us, t.rooms[(⟨⟨7⟩⟩ : RoomId)]? = some us ∧ us ≠ ∅) ∧
    ⟨⟨⟨5⟩⟩, "anna"⟩ ∈ t.snapshot ⟨⟨7⟩⟩ ∧ ⟨⟨⟨5⟩⟩, "ann"⟩ ∉ t.snapshot ⟨⟨7⟩⟩ ∧
    t = (empty.play unhurried).2 ∧
    ((t.update (.enter ⟨⟨8⟩⟩ ⟨⟨⟨5⟩⟩, "ann"⟩)).2.update (.leave ⟨⟨7⟩⟩ ⟨⟨5⟩⟩)).1 = 0 := by
  intro t
  obtain ⟨hanswers, -, hroster, -, hstored, -, hreordered, hapart⟩ :=
    is_family_of_counters unbalanced
  refine ⟨?_, ?_, ?_, ?_, ?_, ?_⟩
  · rw [hanswers]
    decide
  · obtain ⟨us, hus⟩ : ∃ us, t.rooms[(⟨⟨7⟩⟩ : RoomId)]? = some us :=
      Option.isSome_iff_exists.mp (by decide +kernel)
    exact ⟨us, hus, (hstored _ us hus).1⟩
  · refine ((hroster _).complete _).mpr ⟨by decide, ?_⟩
    exact Tables.stands_iff.mpr (by decide)
  · intro hann
    have hlast := Tables.stands_iff.mp (((hroster _).complete _).mp hann).2
    exact absurd hlast (by decide)
  · exact (hreordered unhurried fun r u => Mark.filter_swap (by decide) [_, _] [_, _, _]).1
  · rw [(hapart _ _ (by decide)).1]
    decide +kernel

end CallTracker

end RoomHub
