import RoomHub.Json.Trial
import RoomHub.Proofs.Json.RoundTrip

/-!
# What a trial comes to

An attempt to read a value as a whole succeeds exactly if nothing in it is spoiled:

> `trial_eq_read_iff`

and what was written for such a value has no marks, so it is tried as the value itself:

> `parseMarked?_render`
-/

namespace RoomHub.Json

open Text

/-! ## The outcome -/

/-- A container is read if its first part is and the others are. -/
theorem Trial.andThen_eq_read {first others : Trial} {last : Bool} :
    first.andThen last others = .read ↔ first = .read ∧ others = .read := by
  cases first with
  | read => simp [andThen]
  | behind => cases last <;> simp [andThen]
  | within => simp [andThen]

variable {mark : Char}

/-- A string is a text behind its mark exactly if it bears none. -/
theorem isSome_filter_contains {s : String} :
    ((some s).filter fun s => !s.toList.contains mark).isSome = true ↔
      s.toList.contains mark = false := by
  simp

mutual

/-- A value is read exactly if it is sound without the strings that bear the mark. -/
theorem trial_eq_read_iff : ∀ v : Json, v.trial mark = .read ↔ (v.spoil mark).sound = true
  | .null | .bool _ => ⟨fun _ => rfl, fun _ => rfl⟩
  | .number n => by
    simp only [trial, spoil, sound]
    cases n.finite with
    | true => simp
    | false => cases n.readOut <;> simp
  | .string none => by simp [trial, spoil, sound]
  | .string (some s) => by
    simp only [trial, spoil, sound, isSome_filter_contains]
    cases s.toList.contains mark <;> simp
  | .array items => itemsTrial_eq_read_iff items
  | .object members => membersTrial_eq_read_iff members

theorem itemsTrial_eq_read_iff : ∀ vs : List Json,
    itemsTrial mark vs = .read ↔ itemsSound (spoilItems mark vs) = true
  | [] => ⟨fun _ => rfl, fun _ => rfl⟩
  | v :: vs => by
    simp only [itemsTrial, spoilItems, itemsSound, Trial.andThen_eq_read, Bool.and_eq_true]
    rw [trial_eq_read_iff v, itemsTrial_eq_read_iff vs]

theorem membersTrial_eq_read_iff : ∀ ms : List (Option String × Json),
    membersTrial mark ms = .read ↔ membersSound (spoilMembers mark ms) = true
  | [] => ⟨fun _ => rfl, fun _ => rfl⟩
  | (none, v) :: ms => by simp [membersTrial, spoilMembers, membersSound]
  | (some k, v) :: ms => by
    simp only [membersTrial, spoilMembers, membersSound, Bool.and_eq_true, isSome_filter_contains,
      Option.all_some]
    rw [← trial_eq_read_iff v, ← membersTrial_eq_read_iff ms]
    by_cases hk : k.toList.contains mark = true
    · simp only [hk, if_true, reduceCtorEq, Bool.true_eq_false, false_and]
    · rw [if_neg hk, Trial.andThen_eq_read, Bool.eq_false_iff.mpr hk]
      simp only [true_and]

end

/-- A number beyond the range is passed at the end of an array, and not in front of an item. -/
example :
    trial '\uE000' (.array [.null, .number ⟨false, 1, some 999⟩]) = .behind ∧
      trial '\uE000' (.array [.number ⟨false, 1, some 999⟩, .null]) = .within := by
  decide

/-! ## Texts without marks -/

/-- Characters that stay as they are, whatever follows them. -/
def Unmarked (mark : Char) (cs : List Char) : Prop :=
  ∀ rest, markHalves mark (cs ++ rest) = cs ++ markHalves mark rest

theorem unmarked_nil : Unmarked mark [] := fun _ => rfl

theorem Unmarked.append {cs ds : List Char} (hcs : Unmarked mark cs) (hds : Unmarked mark ds) :
    Unmarked mark (cs ++ ds) := by
  intro rest
  rw [List.append_assoc, hcs, hds, List.append_assoc]

theorem unmarked_singleton {c : Char} (hc : c ≠ '\\') : Unmarked mark [c] := by
  intro rest
  rw [List.singleton_append, markHalves]
  · rfl
  · intro _ _ _ _ _ heq
    exact absurd heq hc
  · intro _ _ heq
    exact absurd heq hc

theorem Unmarked.cons {c : Char} {cs : List Char} (hc : c ≠ '\\') (hcs : Unmarked mark cs) :
    Unmarked mark (c :: cs) :=
  (unmarked_singleton hc).append hcs

/-- Nothing is marked where there is no escape. -/
theorem unmarked_of_plain {cs : List Char} (hcs : ∀ c ∈ cs, c ≠ '\\') : Unmarked mark cs := by
  induction cs with
  | nil => exact unmarked_nil
  | cons c cs ih =>
    exact .cons (hcs c List.mem_cons_self) (ih fun d hd => hcs d (List.mem_cons_of_mem c hd))

/-- An escape of one letter is not marked. -/
theorem unmarked_letter {e : Char} (he : e ≠ 'u') : Unmarked mark ['\\', e] := by
  intro rest
  show markHalves mark ('\\' :: e :: rest) = _
  rw [markHalves]
  · rfl
  · intro _ _ _ _ _ heq
    exact absurd heq he

/-- An escape of four digits is not marked unless it is the first half of a pair. -/
theorem markHalves_unit {a b c d : Char} {rest : List Char}
    (h : ¬(Hex.toNat? [a, b, c, d]).any isHigh = true) :
    markHalves mark ('\\' :: 'u' :: a :: b :: c :: d :: rest)
      = '\\' :: 'u' :: markHalves mark (a :: b :: c :: d :: rest) := by
  by_cases hquote : ∃ after, rest = '"' :: after
  · obtain ⟨after, rfl⟩ := hquote
    rw [markHalves, if_neg h]
  · rw [markHalves]
    intro _ _ _ _ after _ heq
    simp only [List.cons.injEq] at heq
    exact hquote ⟨after, heq.2.2.2.2⟩

/-- The escape of a control character is not marked. -/
theorem unmarked_unit {n : Nat} (hn : n < 0x20) :
    Unmarked mark ('\\' :: 'u' :: Hex.ofNat 4 n) := by
  have hunit : Hex.toNat? (Hex.ofNat 4 n) = some n := toNat?_control hn
  have hdigits : Unmarked mark (Hex.ofNat 4 n) := by
    refine unmarked_of_plain fun c hc => ?_
    rintro rfl
    have hslash := Hex.exists_toNat?_iff.mp ⟨n, hunit⟩ '\\' hc
    revert hslash
    decide
  have hhigh : ¬isHigh n = true := Bool.eq_false_iff.mp (isHigh_control hn).1
  intro rest
  have hrest := hdigits rest
  simp only [Hex.ofNat, List.cons_append, List.nil_append] at hunit hrest ⊢
  rw [markHalves_unit (by rwa [hunit]), hrest]

/-- However a character is escaped, no part of it is marked. -/
theorem unmarked_escape (c : Char) : Unmarked mark (escape c) := by
  rcases escape_cases c with ⟨e, -, hu, heq⟩ | ⟨hc, heq⟩ | ⟨-, hslash, -, heq⟩
  · rw [heq]
    exact unmarked_letter hu
  · rw [heq]
    exact unmarked_unit hc
  · rw [heq]
    exact unmarked_singleton hslash

/-- No text is marked between its quotes. -/
theorem unmarked_quote (s : String) : Unmarked mark (quote (some s)) := by
  have hbody (cs : List Char) : Unmarked mark (cs.flatMap escape) := by
    induction cs with
    | nil => exact unmarked_nil
    | cons c cs ih => exact (unmarked_escape c).append ih
  exact .cons (by decide) ((hbody s.toList).append (unmarked_singleton (by decide)))

/-- No number is marked, since none has a backslash in it. -/
theorem unmarked_render (n : Numeral) : Unmarked mark n.render := by
  have hdigits (k : Nat) : Unmarked mark (Decimal.ofNat k) := by
    refine unmarked_of_plain fun c hc => ?_
    rintro rfl
    exact absurd (Decimal.isDigit_of_mem_ofNat k _ hc) (by decide)
  have hsign (negative : Bool) : Unmarked mark (if negative then ['-'] else []) := by
    cases negative with
    | true => exact unmarked_singleton (by decide)
    | false => exact unmarked_nil
  have hinteger (e : Int) : Unmarked mark (Decimal.ofInt e) := by
    unfold Decimal.ofInt
    split
    next => exact .cons (by decide) (hdigits _)
    next => exact hdigits _
  rw [render_eq]
  refine (hsign _).append ((hdigits _).append ?_)
  cases n.scale with
  | none => exact unmarked_nil
  | some e => exact .cons (by decide) (hinteger e)

mutual

/-- What is written for a sound value is not marked. -/
theorem unmarked_chars : ∀ v : Json, v.sound = true → Unmarked mark v.chars
  | .null, _ | .bool true, _ | .bool false, _ => fun _ => rfl
  | .number n, _ => unmarked_render n
  | .string (some s), _ => unmarked_quote s
  | .array items, h =>
    .cons (by decide) ((unmarked_itemChars items h).append (unmarked_singleton (by decide)))
  | .object members, h =>
    .cons (by decide) ((unmarked_memberChars members h).append (unmarked_singleton (by decide)))

theorem unmarked_itemChars : ∀ vs : List Json, itemsSound vs = true →
    Unmarked mark (itemChars vs)
  | [], _ => unmarked_nil
  | [v], h => unmarked_chars v (Bool.and_eq_true_iff.mp h).1
  | v :: w :: ws, h =>
    (unmarked_chars v (Bool.and_eq_true_iff.mp h).1).append
      (.cons (by decide) (unmarked_itemChars (w :: ws) (Bool.and_eq_true_iff.mp h).2))

theorem unmarked_memberChars : ∀ ms : List (Option String × Json), membersSound ms = true →
    Unmarked mark (memberChars ms)
  | [], _ => unmarked_nil
  | [(some k, v)], h => by
    simp only [membersSound, Bool.and_eq_true] at h
    exact (unmarked_quote k).append (.cons (by decide) (unmarked_chars v h.1.2))
  | (some k, v) :: m :: ms, h => by
    simp only [membersSound, Option.isSome_some, Bool.true_and, Bool.and_eq_true] at h
    exact (unmarked_quote k).append (.cons (by decide) ((unmarked_chars v h.1).append
      (.cons (by decide) (unmarked_memberChars (m :: ms) (by simpa [membersSound] using h.2)))))
  | (none, v) :: ms, h => by simp [membersSound] at h

end

/-- The bytes of a sound value are read as the value, and nothing is marked. -/
theorem parseMarked?_render {v : Json} (hv : v.sound = true) :
    parseMarked? mark (Utf8.bytes v.render) = some v := by
  have hchars : Unmarked mark v.chars := unmarked_chars v hv
  have hmarks : markHalves mark v.chars = v.chars := by
    simpa [markHalves] using hchars []
  have hread := parse?_render v
  unfold parse? at hread
  unfold parseMarked?
  rw [Utf8.text?_bytes, Option.getD_some]
  unfold render at hread ⊢
  rw [String.toList_ofList] at hread ⊢
  rw [hmarks, hread]

end RoomHub.Json
