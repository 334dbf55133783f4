import RoomHub.Json

/-!
# Reading records back

An object that was written as a record, with no name twice, has exactly the fields of the
record:

> `fields?_record`: whatever fields are asked for, in whatever order.
-/

namespace RoomHub

/-! ## Integers -/

/-- The integers of 64 bits. -/
def IsInt64 (i : Int) : Prop := Int64.minValue.toInt ≤ i ∧ i ≤ Int64.maxValue.toInt

instance (i : Int) : Decidable (IsInt64 i) := inferInstanceAs (Decidable (_ ∧ _))

/-- The number literal of an integer stands for that integer. -/
theorem Numeral.toInt?_ofInt (i : Int) : (Numeral.ofInt i).toInt? = some i := by
  unfold toInt? ofInt
  by_cases hi : i < 0
  · have habs : -(i.natAbs : Int) = i := by omega
    simp only [hi, decide_true, if_true]
    rw [if_neg (by omega), habs]
  · have habs : (i.natAbs : Int) = i := by omega
    simp only [hi, decide_false, Bool.false_eq_true, if_false, habs]

/-- What reads as an integer is what is written for it. -/
theorem Numeral.eq_ofInt_of_toInt? {n : Numeral} {i : Int} (h : n.toInt? = some i) :
    n = .ofInt i := by
  obtain ⟨negative, significand, scale⟩ := n
  unfold toInt? at h
  cases scale with
  | some e => cases h
  | none =>
    cases negative with
    | true =>
      by_cases hzero : significand = 0
      · rw [if_pos rfl, if_pos hzero] at h
        cases h
      · rw [if_pos rfl, if_neg hzero] at h
        cases h
        simp [ofInt]
        omega
    | false =>
      cases h
      simp [ofInt]

namespace Json

/-- An integer of 64 bits is read as itself. -/
theorem asInt64?_int {i : Int} (hi : IsInt64 i) : asInt64? (.int i) = some i := by
  show (Numeral.ofInt i).toInt?.filter _ = some i
  rw [Numeral.toInt?_ofInt, Option.filter_some, if_pos]
  simpa [IsInt64] using hi

/-- Only the literal of an integer of 64 bits is read as one. -/
theorem asInt64?_eq_some {v : Json} {i : Int} (h : asInt64? v = some i) :
    v = .int i ∧ IsInt64 i := by
  cases v with
  | number n =>
    obtain ⟨hread, hrange⟩ := Option.filter_eq_some_iff.mp h
    refine ⟨congrArg number (Numeral.eq_ofInt_of_toInt? hread), ?_⟩
    simpa [IsInt64] using hrange
  | _ => cases h

theorem asString?_text (s : String) : asString? (.text s) = some s := rfl

theorem asString?_eq_some {v : Json} {s : String} (h : asString? v = some s) : v = .text s := by
  cases v with
  | string t => exact congrArg string h
  | _ => cases h

/-- A value that names a variant: its name, or the one member of an object, with `null` in it. -/
def IsVariant (name : String) (v : Json) : Prop :=
  v = .text name ∨ v = .record [(name, .null)]

/-- A variant is named in these two ways and in no other. -/
theorem asVariant?_eq_some {v : Json} {name : String} :
    asVariant? v = some name ↔ IsVariant name v := by
  constructor
  · intro h
    unfold asVariant? at h
    split at h
    next => exact .inl (congrArg string h)
    next => exact .inr (by rw [h]; rfl)
    next => cases h
  · rintro (rfl | rfl) <;> rfl

/-! ## Fields -/

/-- A field is there when one member has its name. -/
theorem member?_eq_some_some {ms : List (Option String × Json)} {name : String} {v : Json} :
    member? ms name = some (some v) ↔ membersNamed name ms = [v] := by
  unfold member?
  split
  next hnone => simp [hnone]
  next w hone => simp [hone]
  next hmany =>
    constructor
    · intro h
      cases h
    · intro h
      exact absurd h (hmany v)

/-- A member is absent exactly when no key of that name occurs. -/
theorem member?_eq_some_none {ms : List (Option String × Json)} {name : String} :
    member? ms name = some none ↔ membersNamed name ms = [] := by
  unfold member?
  split
  next hnone => simp [hnone]
  next w hone => simp [hone]
  next hsome _ =>
    constructor
    · intro h
      cases h
    · intro h
      exact absurd h hsome

/-- Every item of a list is read, or the list is not. -/
theorem mapM_eq_some_iff {α β : Type} {f : α → Option β} {as : List α} {bs : List β} :
    as.mapM f = some bs ↔ as.map f = bs.map some := by
  induction as generalizing bs with
  | nil =>
    rw [List.mapM_nil, List.map_nil, eq_comm (a := []), List.map_eq_nil_iff, eq_comm (a := bs)]
    exact Option.some_inj
  | cons a as ih =>
    simp only [List.mapM_cons, Option.pure_def, Option.bind_eq_bind, Option.bind_eq_some_iff, ih,
      Option.some.injEq, List.map_cons]
    constructor
    · rintro ⟨b, hb, bs, hbs, rfl⟩
      rw [List.map_cons, hb, hbs]
    · intro h
      cases bs with
      | nil => cases h
      | cons b bs =>
        rw [List.map_cons, List.cons.injEq] at h
        exact ⟨b, h.1, bs, h.2, rfl⟩

section Read

variable {names : List String} {fs : List (Option Json)} {i : Nat} {name : String} {w : Json}

/-- A field that was read from an object is the one member of its name. -/
theorem membersNamed_of_fields? {ms : List (Option String × Json)}
    (h : (object ms).fields? names = some fs) (hname : names[i]? = some name)
    (hfield : fs[i]? = some (some w)) : membersNamed name ms = [w] := by
  simp only [fields?, Option.ite_none_right_eq_some] at h
  have hread := congrArg (·[i]?) (mapM_eq_some_iff.mp h.2)
  exact member?_eq_some_some.mp (by simpa [hname, hfield] using hread)

/-- A field that was read is the one member of its name, or stands at its place in an array. -/
theorem of_fields? {v : Json} (h : v.fields? names = some fs) (hname : names[i]? = some name)
    (hfield : fs[i]? = some (some w)) :
    (∃ ms, v = .object ms ∧ membersNamed name ms = [w]) ∨
      (∃ items, v = .array items ∧ items[i]? = some w) := by
  cases v with
  | object ms => exact .inl ⟨ms, rfl, membersNamed_of_fields? h hname hfield⟩
  | array items =>
    right
    refine ⟨items, rfl, ?_⟩
    simp only [fields?, Option.ite_none_right_eq_some, Option.some.injEq] at h
    rw [← h.2] at hfield
    by_cases hi : i < items.length
    · rw [List.getElem?_append_left (by simpa using hi)] at hfield
      simpa using hfield
    · rw [List.getElem?_append_right (by simpa using hi)] at hfield
      simp [List.getElem?_replicate] at hfield
  | _ => cases h

end Read

section Record

variable {ms : List (String × Json)} (hnames : (ms.map (·.1)).Nodup)

include hnames

/-- A name that occurs once has one value. -/
theorem membersNamed_record (name : String) :
    membersNamed name (ms.map fun m => (some m.1, m.2)) = (ms.lookup name).toList := by
  induction ms with
  | nil => rfl
  | cons m ms ih =>
    obtain ⟨key, v⟩ := m
    obtain ⟨hfirst, hrest⟩ := List.nodup_cons.mp hnames
    have hothers := ih hrest
    by_cases hkey : name = key
    · subst hkey
      have hnone : ms.lookup name = none := by
        rw [List.lookup_eq_none_iff]
        intro m hm
        rw [bne_iff_ne]
        exact fun heq => hfirst (List.mem_map.mpr ⟨m, hm, heq.symm⟩)
      rw [hnone] at hothers
      rw [List.lookup_cons_self, List.map_cons]
      unfold membersNamed at hothers ⊢
      rw [List.filter_cons_of_pos (by simp), List.map_cons, hothers]
      rfl
    · rw [List.lookup_cons, beq_eq_false_iff_ne.mpr hkey, ← hothers, List.map_cons]
      unfold membersNamed
      rw [List.filter_cons_of_neg (by simpa using Ne.symm hkey)]

/-- In an object whose keys are all Unicode text and distinct, a member is found by `lookup`. -/
theorem member?_record (name : String) :
    member? (ms.map fun m => (some m.1, m.2)) name = some (ms.lookup name) := by
  unfold member?
  rw [membersNamed_record hnames]
  cases ms.lookup name <;> rfl

/-- A record has the fields it was written with. -/
theorem fields?_record (names : List String) :
    (record ms).fields? names = some (names.map fun name => ms.lookup name) := by
  have hkeys : (ms.map fun m => (some m.1, m.2)).all (·.1.isSome) = true := by
    rw [List.all_map]
    exact List.all_eq_true.mpr fun _ _ => rfl
  have hread : member? (ms.map fun m => (some m.1, m.2)) = fun name => pure (ms.lookup name) :=
    funext fun name => member?_record hnames name
  show (if _ then _ else _) = _
  rw [if_pos hkeys, hread, List.mapM_pure]
  rfl

end Record

end Json

end RoomHub
