import RoomHub.Proofs.CallTracker

/-!
# Entering and leaving calls, in either order

A `Mark` is what the tracker is told: a connection enters a call, or leaves it. It rewrites
the entry of one user in one room (`slot?_mark`), so marks of different users or rooms
commute as they are. Two marks of one entry need a reason, since an entry that counts down
to nothing is dropped and made anew by the next one who enters: whoever leaves has to be
counted (`Backs`), and whoever enters has to be called the same.

> `mark_comm`: under these two conditions the order of two marks does not matter.
-/

namespace RoomHub

/-- A connection enters a call or leaves it. -/
inductive Mark where
  | enter (room : RoomId) (participant : Participant)
  | leave (room : RoomId) (user : UserId)

namespace Mark

/-- The room whose call a mark is about. -/
def room : Mark → RoomId
  | .enter r _ => r
  | .leave r _ => r

/-- The user whom a mark is about. -/
def user : Mark → UserId
  | .enter _ p => p.user
  | .leave _ u => u

/-- What a mark makes of the entry of its user. -/
def rewrite : Mark → Option CallEntry → Option CallEntry
  | .enter _ p, x => some ⟨(x.map (·.count)).getD 0 + 1, p⟩
  | .leave _ _, x => x.bind CallEntry.less

/-- The room and the user that a mark names. -/
def IsAt (x : Mark) (r : RoomId) (u : UserId) : Prop := x.room = r ∧ x.user = u

instance (x : Mark) (r : RoomId) (u : UserId) : Decidable (x.IsAt r u) :=
  inferInstanceAs (Decidable (_ ∧ _))

/-- Two marks of one entry commute where a leaving one finds somebody to count down, and
two entering ones write one name. -/
theorem rewrite_comm {x y : Mark} {e : Option CallEntry}
    (hx : ∀ r u, x = .leave r u → ∃ e', e = some e' ∧ 0 < e'.count)
    (hy : ∀ r u, y = .leave r u → ∃ e', e = some e' ∧ 0 < e'.count)
    (hname : ∀ r p r' p', x = .enter r p → y = .enter r' p' → p = p') :
    x.rewrite (y.rewrite e) = y.rewrite (x.rewrite e) := by
  have hmixed : ∀ r p r' u, (∃ e', e = some e' ∧ 0 < e'.count) →
      (Mark.enter r p).rewrite ((Mark.leave r' u).rewrite e)
        = (Mark.leave r' u).rewrite ((Mark.enter r p).rewrite e) := by
    intro r p r' u hcounted
    obtain ⟨e', rfl, hpos⟩ := hcounted
    simp only [rewrite, CallEntry.less, Option.bind_some, Option.map_some, Option.getD_some,
      Nat.add_sub_cancel]
    rw [if_neg (show e'.count ≠ 0 by omega)]
    by_cases hlast : e'.count - 1 = 0
    · -- the entry is dropped and made anew
      have hone : 0 + 1 = e'.count := by omega
      rw [if_pos hlast, Option.map_none, Option.getD_none, hone]
    · have hmore : e'.count - 1 + 1 = e'.count := by omega
      rw [if_neg hlast, Option.map_some, Option.getD_some, hmore]
  cases x with
  | enter r p =>
    cases y with
    | enter r' p' =>
      obtain rfl := hname r p r' p' rfl rfl
      rfl
    | leave r' u => exact hmixed r p r' u (hy r' u rfl)
  | leave r u =>
    cases y with
    | enter r' p => exact (hmixed r' p r u (hx r u rfl)).symm
    | leave r' u' => rfl

end Mark

namespace CallTracker

variable {t : CallTracker} {r : RoomId} {u : UserId} {x y : Mark}

/-- The tracker after a mark. -/
def mark : Mark → CallTracker → CallTracker
  | .enter r p, t => (t.markIn r p).2
  | .leave r u, t => (t.markOut r u).2

/-- A mark leaves no empty room and no counter at zero. -/
theorem kept_mark (ht : Kept t) (x : Mark) : Kept (t.mark x) := by
  cases x with
  | enter r p => exact kept_markIn ht
  | leave r u => exact kept_markOut ht

/-- A mark reads and rewrites the entry of its user, and nothing else. -/
theorem slot?_mark :
    (t.mark x).slot? r u = if x.IsAt r u then x.rewrite (t.slot? r u) else t.slot? r u := by
  cases x with
  | enter r' p =>
    show (t.markIn r' p).2.slot? r u = _
    rw [slot?_markIn]
    by_cases hat : r' = r ∧ p.user = u
    · rw [if_pos hat, if_pos (show (Mark.enter r' p).IsAt r u from hat), count_eq, hat.1, hat.2]
      rfl
    · rw [if_neg hat, if_neg (show ¬(Mark.enter r' p).IsAt r u from hat)]
  | leave r' v =>
    show (t.markOut r' v).2.slot? r u = _
    rw [slot?_markOut]
    by_cases hat : r' = r ∧ v = u
    · rw [if_pos hat, if_pos (show (Mark.leave r' v).IsAt r u from hat), hat.1, hat.2]
      rfl
    · rw [if_neg hat, if_neg (show ¬(Mark.leave r' v).IsAt r u from hat)]

/-- Whether a mark that takes somebody out of a call finds them counted. -/
def Backs (t : CallTracker) (x : Mark) : Prop :=
  ∀ r u, x = .leave r u → 0 < t.count r u

/-- Whoever leaves under this condition is counted at least once. -/
theorem Backs.exists_slot (hx : t.Backs x) (hat : x.IsAt r u) (r' : RoomId) (v : UserId)
    (h : x = .leave r' v) : ∃ e, t.slot? r u = some e ∧ 0 < e.count := by
  have hpos := hx r' v h
  subst h
  obtain ⟨hr, hu⟩ : r' = r ∧ v = u := hat
  rw [count_eq, hr, hu] at hpos
  cases he : t.slot? r u with
  | none =>
    rw [he] at hpos
    exact absurd hpos (Nat.lt_irrefl 0)
  | some e =>
    rw [he] at hpos
    exact ⟨e, rfl, hpos⟩

/-- Two marks commute, if what they take out is counted and what they write agrees. -/
theorem mark_comm (ht : Kept t) (hx : t.Backs x) (hy : t.Backs y)
    (hname : ∀ r p r' p', x = .enter r p → y = .enter r' p' → r = r' → p.user = p'.user →
      p = p') : (t.mark x).mark y = (t.mark y).mark x := by
  refine (kept_mark (kept_mark ht x) y).ext (kept_mark (kept_mark ht y) x) fun r u => ?_
  simp only [slot?_mark]
  by_cases hxat : x.IsAt r u
  · by_cases hyat : y.IsAt r u
    · simp only [if_pos hxat, if_pos hyat]
      refine Mark.rewrite_comm (hy.exists_slot hyat) (hx.exists_slot hxat) ?_
      intro r₂ p₂ r₁ p₁ hy₂ hx₁
      subst hx₁ hy₂
      exact (hname r₁ p₁ r₂ p₂ rfl rfl (hxat.1.trans hyat.1.symm)
        (hxat.2.trans hyat.2.symm)).symm
    · simp only [if_pos hxat, if_neg hyat]
  · simp only [if_neg hxat]

/-- The tracker when it is told something, or nothing. -/
def told (t : CallTracker) : Option Mark → CallTracker
  | some x => t.mark x
  | none => t

/-- The tracker may be told two things in either order, under the conditions of
`mark_comm`. -/
theorem told_comm {x y : Option Mark} (ht : Kept t) (hx : ∀ k ∈ x, t.Backs k)
    (hy : ∀ k ∈ y, t.Backs k)
    (hname : ∀ r p r' p', x = some (.enter r p) → y = some (.enter r' p') → r = r' →
      p.user = p'.user → p = p') : (t.told x).told y = (t.told y).told x := by
  cases x with
  | none => rfl
  | some k =>
    cases y with
    | none => rfl
    | some l =>
      refine mark_comm ht (hx k rfl) (hy l rfl) ?_
      intro r p r' p' hk hl
      exact hname r p r' p' (congrArg some hk) (congrArg some hl)

end CallTracker

end RoomHub
