/-!
# Cutting a text at a character

A text is cut at every occurrence of a separator. There is always at least one part, and
writing the parts with the separator between them gives the text back (`join_split`).
-/

namespace RoomHub.Text

/-- The parts of a text between the occurrences of a separator. -/
def split (sep : Char) : List Char → List (List Char)
  | [] => [[]]
  | c :: cs =>
    if c = sep then [] :: split sep cs
    else match split sep cs with
      | [] => [[c]]
      | part :: parts => (c :: part) :: parts

/-- There is always a first part. -/
theorem split_ne_nil (sep : Char) (cs : List Char) : split sep cs ≠ [] := by
  cases cs with
  | nil => simp [split]
  | cons c cs =>
    unfold split
    split
    · simp
    · split <;> simp

/-- The parts, with the separator between them, are the text again. -/
theorem join_split (sep : Char) (cs : List Char) :
    [sep].intercalate (split sep cs) = cs := by
  induction cs with
  | nil => rfl
  | cons c cs ih =>
    obtain ⟨part, parts, h⟩ := List.exists_cons_of_ne_nil (split_ne_nil sep cs)
    rw [h] at ih
    by_cases hc : c = sep
    · subst hc
      simp only [split, if_true, h]
      rw [List.intercalate_cons_cons, ih]
      rfl
    · simp only [split, hc, if_false, h]
      cases parts with
      | nil => simpa using ih
      | cons part' parts =>
        rw [List.intercalate_cons_cons] at ih ⊢
        rw [← ih]
        rfl

/-- The parts of a text between the occurrences of a separator, as texts. -/
def splitText (sep : Char) (s : String) : List String :=
  (split sep s.toList).map String.ofList

end RoomHub.Text
