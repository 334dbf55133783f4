import Std.Data.ExtTreeMap

/-!
# Tables filled from lists

A table that is filled from a list keeps, of all entries with one key, what the last of them says.
`Stands key x xs` says that `x` is such a last entry.

> `getElem?_foldl_insert`: a table after it was filled from a list;
> `getElem?_filled_iff`: an empty table holds then what the standing entries say.
-/

namespace RoomHub.Tables

open Std (ExtTreeMap)

variable {α κ ν : Type} {key : α → κ} {value : α → ν} {xs : List α} {x y : α} {k : κ} {v : ν}

/-- An entry of a list that no later one with its key takes the place of. -/
def Stands (key : α → κ) (x : α) (xs : List α) : Prop :=
  ∃ before after, xs = before ++ x :: after ∧ ∀ y ∈ after, key y ≠ key x

theorem Stands.mem (h : Stands key x xs) : x ∈ xs := by
  obtain ⟨before, after, rfl, -⟩ := h
  exact List.mem_append_right _ List.mem_cons_self

/-! ## Last entries -/

section Standing

variable [DecidableEq κ]

/-- A standing entry is the first one from the end. -/
theorem stands_iff : Stands key x xs ↔ xs.reverse.find? (key · = key x) = some x := by
  simp only [Stands, List.find?_eq_some_iff_append, decide_true, true_and, Bool.not_eq_true',
    decide_eq_false_iff_not]
  constructor
  · rintro ⟨before, after, rfl, hafter⟩
    exact ⟨after.reverse, before.reverse, by simp, fun y hy => hafter y (List.mem_reverse.mp hy)⟩
  · rintro ⟨after, before, hsplit, hafter⟩
    refine ⟨before.reverse, after.reverse, ?_, fun y hy => hafter y (List.mem_reverse.mp hy)⟩
    rw [← List.reverse_reverse xs, hsplit]
    simp

/-- Of the entries with one key, one stands. -/
theorem Stands.unique (hx : Stands key x xs) (hy : Stands key y xs) (hkey : key x = key y) :
    x = y := by
  have hfind := stands_iff.mp hx
  rw [hkey, stands_iff.mp hy] at hfind
  exact (Option.some.inj hfind).symm

/-- An entry that is added at the end stands, and those with other keys stand as before. -/
theorem stands_concat : Stands key x (xs ++ [y]) ↔ y = x ∨ (key y ≠ key x ∧ Stands key x xs) := by
  rw [stands_iff, stands_iff, List.reverse_append, List.reverse_singleton, List.singleton_append]
  by_cases hkey : key y = key x
  · have hfind : (y :: xs.reverse).find? (key · = key x) = some y :=
      List.find?_cons_of_pos (decide_eq_true hkey)
    rw [hfind, Option.some_inj]
    exact ⟨Or.inl, fun h => h.resolve_right fun hother => hother.1 hkey⟩
  · have hfind : (y :: xs.reverse).find? (key · = key x) = xs.reverse.find? (key · = key x) :=
      List.find?_cons_of_neg (by simpa using hkey)
    rw [hfind]
    refine ⟨fun h => Or.inr ⟨hkey, h⟩, fun h => ?_⟩
    rcases h with rfl | ⟨-, h⟩
    · exact absurd rfl hkey
    · exact h

/-- Of the entries with a key, if there are any, one stands. -/
theorem exists_stands (key : α → κ) (h : y ∈ xs) : ∃ x, Stands key x xs ∧ key x = key y := by
  cases hfind : xs.reverse.find? (key · = key y) with
  | none =>
    have hnot := List.find?_eq_none.mp hfind y (List.mem_reverse.mpr h)
    simp at hnot
  | some x =>
    have hkey : key x = key y := by simpa using List.find?_some hfind
    exact ⟨x, stands_iff.mpr (hkey ▸ hfind), hkey⟩

end Standing

/-! ## Filling a table -/

variable [Ord κ] [Std.TransOrd κ] [Std.LawfulEqOrd κ]

/-- What was written last at a key is all there is of it. -/
theorem insert_insert (t : ExtTreeMap κ ν) (k : κ) (v w : ν) :
    (t.insert k v).insert k w = t.insert k w := by
  refine ExtTreeMap.ext_getElem? fun k' => ?_
  simp only [ExtTreeMap.getElem?_insert]
  split <;> rfl

variable [DecidableEq κ]

/-- A later entry with the same key overwrites what an earlier one wrote. -/
theorem getElem?_foldl_insert (xs : List α) (t : ExtTreeMap κ ν) :
    (xs.foldl (fun t x => t.insert (key x) (value x)) t)[k]?
      = ((xs.reverse.find? (key · = k)).map value).or t[k]? := by
  induction xs generalizing t with
  | nil => rfl
  | cons x xs ih =>
    rw [List.foldl_cons, ih, List.reverse_cons, List.find?_append]
    cases xs.reverse.find? (key · = k) with
    | some y => rfl
    | none =>
      rw [ExtTreeMap.getElem?_insert]
      simp only [Std.compare_eq_iff_eq, Option.map_none, Option.none_or, List.find?_singleton,
        decide_eq_true_eq]
      split <;> rfl

/-- A table that is filled from a list holds what the standing entries say. -/
theorem getElem?_filled_iff :
    (xs.foldl (fun t x => t.insert (key x) (value x)) (∅ : ExtTreeMap κ ν))[k]? = some v ↔
      ∃ x, Stands key x xs ∧ key x = k ∧ value x = v := by
  rw [getElem?_foldl_insert, ExtTreeMap.getElem?_empty, Option.or_none, Option.map_eq_some_iff]
  constructor
  · rintro ⟨x, hfind, hvalue⟩
    have hkey : key x = k := by simpa using List.find?_some hfind
    exact ⟨x, stands_iff.mpr (hkey ▸ hfind), hkey, hvalue⟩
  · rintro ⟨x, hstands, rfl, hvalue⟩
    exact ⟨x, stands_iff.mp hstands, hvalue⟩

end RoomHub.Tables
