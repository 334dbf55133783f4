import RoomHub.Id

/-!
# Tables of rooms without empty rows

The registry and the call tracker both keep a table for each room and drop a room whose
table became empty. Read through `getD · ∅` the dropping cannot be seen: `getD_prune`
says that storing a row sets that row and leaves the others. What the dropping buys is
`NoEmptyRow`, by which a room has an entry exactly when somebody is in it.
-/

namespace RoomHub.RoomTable

open Std (ExtTreeMap)

variable {κ ν : Type} [Ord κ]
variable {t : ExtTreeMap RoomId (ExtTreeMap κ ν)} {r r' : RoomId} {row : ExtTreeMap κ ν}

/-- No room is kept with an empty table. -/
def NoEmptyRow (t : ExtTreeMap RoomId (ExtTreeMap κ ν)) : Prop :=
  ∀ r : RoomId, t[r]? ≠ some (∅ : ExtTreeMap κ ν)

theorem noEmptyRow_empty : NoEmptyRow (∅ : ExtTreeMap RoomId (ExtTreeMap κ ν)) := by
  intro r
  simp

theorem noEmptyRow_insert (ht : NoEmptyRow t) (hrow : row ≠ ∅) :
    NoEmptyRow (t.insert r row) := by
  intro r'
  rw [ExtTreeMap.getElem?_insert]
  split
  · simpa using hrow
  · exact ht r'

section Pruning

variable [Std.TransOrd κ]

/-- Storing a row, or dropping it when it is empty, sets that row and no other. -/
theorem getD_prune :
    (if row.isEmpty then t.erase r else t.insert r row).getD r' ∅
      = if r = r' then row else t.getD r' ∅ := by
  split
  next hempty =>
    have hrow : row = ∅ := ExtTreeMap.isEmpty_iff.mp hempty
    rw [ExtTreeMap.getD_erase, hrow]
    simp only [Std.compare_eq_iff_eq]
  next =>
    rw [ExtTreeMap.getD_insert]
    simp only [Std.compare_eq_iff_eq]

/-- Writing a row back, or removing it where it has become empty, leaves no empty row. -/
theorem noEmptyRow_prune (ht : NoEmptyRow t) :
    NoEmptyRow (if row.isEmpty then t.erase r else t.insert r row) := by
  split
  next =>
    intro r'
    rw [ExtTreeMap.getElem?_erase]
    split
    · simp
    · exact ht r'
  next hempty =>
    exact noEmptyRow_insert ht fun hrow => hempty (ExtTreeMap.isEmpty_iff.mpr hrow)

end Pruning

/-- Without empty rows, a room has an entry exactly when its table has one. -/
theorem contains_iff [Std.TransOrd κ] [Std.LawfulEqOrd κ] (ht : NoEmptyRow t) :
    t.contains r = true ↔ ∃ (k : κ) (v : ν), (t.getD r ∅)[k]? = some v := by
  rw [ExtTreeMap.getD_eq_getD_getElem?, ExtTreeMap.contains_eq_isSome_getElem?]
  cases hrow : t[r]? with
  | none => simp
  | some row =>
    simp only [Option.isSome_some, Option.getD_some, true_iff]
    have hne : row ≠ ∅ := fun h => ht r (by rw [hrow, h])
    refine Classical.byContradiction fun hnone => hne ?_
    apply ExtTreeMap.ext_getElem?
    intro k
    rw [ExtTreeMap.getElem?_empty]
    cases hk : row[k]? with
    | none => rfl
    | some v => exact absurd ⟨k, v, hk⟩ hnone

/-- Tables without empty rows that read the same everywhere are the same. -/
theorem ext_getD {t' : ExtTreeMap RoomId (ExtTreeMap κ ν)} (ht : NoEmptyRow t)
    (ht' : NoEmptyRow t') (h : ∀ r, t.getD r ∅ = t'.getD r ∅) : t = t' := by
  apply ExtTreeMap.ext_getElem?
  intro r
  have hr : (t[r]?).getD ∅ = (t'[r]?).getD ∅ := by
    rw [← ExtTreeMap.getD_eq_getD_getElem?, ← ExtTreeMap.getD_eq_getD_getElem?]
    exact h r
  have hne := ht r
  have hne' := ht' r
  -- an absent room reads as an empty row, which no present room has
  cases hrow : t[r]? with
  | none =>
    cases hrow' : t'[r]? with
    | none => rfl
    | some row' =>
      rw [hrow, hrow', Option.getD_none, Option.getD_some] at hr
      rw [hrow', ← hr] at hne'
      exact absurd rfl hne'
  | some row =>
    cases hrow' : t'[r]? with
    | none =>
      rw [hrow, hrow', Option.getD_none, Option.getD_some] at hr
      rw [hrow, hr] at hne
      exact absurd rfl hne
    | some row' =>
      rw [hrow, hrow', Option.getD_some, Option.getD_some] at hr
      rw [hr]

end RoomHub.RoomTable
