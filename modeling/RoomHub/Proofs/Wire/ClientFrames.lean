import RoomHub.Proofs.Json.Grammar
import RoomHub.Proofs.Json.Records
import RoomHub.Wire.ClientFrame

/-!
# What a client's frame says

A frame that is written as an object is told by its members named `type` and `content`, and by
nothing else: neither by their order, nor by what stands beside them, nor by the way in which the
text spells the object.

> `ofMembers?_eq_some_iff`: what the members have to be;
> `ofMembers?_congr`: which of them matter;
> `decoded_by_their_grammar`: both for the texts.
-/

namespace RoomHub.ClientFrame

open Json (membersNamed IsTextOf)

variable {ms ms' : List (Option String × Json)} {f : ClientFrame} {t : String}

/-- What the members of an object have to be for it to be a frame. -/
def Describes (ms : List (Option String × Json)) : ClientFrame → Prop
  | chat s => membersNamed "type" ms = [.text "chat"] ∧
      (membersNamed "content" ms = [.text s] ∨ (membersNamed "content" ms = [] ∧ s = ""))
  | joinCall => membersNamed "type" ms = [.text "call_join"]
  | leaveCall => membersNamed "type" ms = [.text "call_leave"]

theorem asString?_eq_some_iff {v : Json} {s : String} :
    v.asString? = some s ↔ v = .text s := by
  constructor
  · exact Json.asString?_eq_some
  · rintro rfl
    rfl

/-- The content matters for a chat frame only. -/
theorem ofType?_eq_some_iff {type : Json} {contents : List Json} :
    ofType? type contents = some f ↔ match f with
      | chat s => type = .text "chat" ∧ (contents = [.text s] ∨ (contents = [] ∧ s = ""))
      | joinCall => type = .text "call_join"
      | leaveCall => type = .text "call_leave" := by
  unfold ofType?
  split
  next heq =>
    cases Json.asString?_eq_some heq
    cases f <;> simp [Json.text, eq_comm]
  next content heq =>
    cases Json.asString?_eq_some heq
    cases f <;> simp [Json.text, asString?_eq_some_iff]
  next heq =>
    cases Json.asString?_eq_some heq
    cases f <;> simp [Json.text]
  next heq =>
    cases Json.asString?_eq_some heq
    cases f <;> simp [Json.text]
  next hjoin hleave hempty hone =>
    refine iff_of_false nofun fun h => ?_
    cases f with
    | chat s =>
      obtain ⟨rfl, rfl | ⟨rfl, -⟩⟩ := h
      · exact hone _ rfl rfl
      · exact hempty rfl rfl
    | joinCall => exact hjoin (h ▸ rfl)
    | leaveCall => exact hleave (h ▸ rfl)

/-- An object is read as the frame that its members describe. -/
theorem ofMembers?_eq_some_iff : ofMembers? ms = some f ↔ Describes ms f := by
  unfold ofMembers?
  split
  next type htype =>
    rw [ofType?_eq_some_iff]
    unfold Describes
    cases f <;> simp [htype]
  next hnone =>
    refine iff_of_false nofun fun h => ?_
    cases f with
    | chat s => exact hnone _ h.1
    | joinCall => exact hnone _ h
    | leaveCall => exact hnone _ h

/-- Whether a member has one of the two names that a frame knows. -/
def isOwn (m : Option String × Json) : Bool := m.1 = some "type" || m.1 = some "content"

/-- A frame's own members are found among those of its names. -/
theorem membersNamed_filter {name : String} (hname : name = "type" ∨ name = "content") :
    membersNamed name (ms.filter isOwn) = membersNamed name ms := by
  unfold membersNamed
  rw [List.filter_filter]
  congr 1
  refine List.filter_congr fun m _ => ?_
  unfold isOwn
  by_cases hm : m.1 = some name
  · rcases hname with rfl | rfl <;> simp [hm]
  · simp [hm]

/-- The members of a name in another order are the same ones in another order. -/
theorem membersNamed_perm (h : ms'.Perm ms) (name : String) :
    (membersNamed name ms').Perm (membersNamed name ms) := (h.filter _).map _

/-- Members that a frame does not know, and the order of those that it knows, do not matter. -/
theorem describes_congr (h : (ms'.filter isOwn).Perm (ms.filter isOwn)) :
    Describes ms' f ↔ Describes ms f := by
  have hone {name : String} (hname : name = "type" ∨ name = "content") (v : Json) :
      membersNamed name ms' = [v] ↔ membersNamed name ms = [v] := by
    have hperm := membersNamed_perm h name
    rw [membersNamed_filter hname, membersNamed_filter hname] at hperm
    rw [← List.perm_singleton, ← List.perm_singleton]
    exact ⟨hperm.symm.trans, hperm.trans⟩
  have hnone : membersNamed "content" ms' = [] ↔ membersNamed "content" ms = [] := by
    have hperm := membersNamed_perm h "content"
    rw [membersNamed_filter (Or.inr rfl), membersNamed_filter (Or.inr rfl)] at hperm
    rw [← List.length_eq_zero_iff, ← List.length_eq_zero_iff, hperm.length_eq]
  cases f with
  | chat s =>
    exact and_congr (hone (Or.inl rfl) _)
      (or_congr (hone (Or.inr rfl) _) (and_congr_left fun _ => hnone))
  | joinCall => exact hone (Or.inl rfl) _
  | leaveCall => exact hone (Or.inl rfl) _

/-- Neither the order of the members nor those of other names matter to a frame. -/
theorem ofMembers?_congr (h : (ms'.filter isOwn).Perm (ms.filter isOwn)) :
    ofMembers? ms' = ofMembers? ms := by
  refine Option.ext fun f => ?_
  rw [ofMembers?_eq_some_iff, ofMembers?_eq_some_iff, describes_congr h]

/-! ## Texts -/

/-- The text of an object of plain keys is read by its members. -/
theorem parse?_of_object (ht : Json.parse? t = some (.object ms))
    (hplain : (Json.object ms).plain = true) : parse? t = ofMembers? ms := by
  unfold parse? ofJson?
  rw [ht, Option.bind_some, hplain]
  rfl

/-- A text of an object that can be used as a whole is read as a chat exactly if its only `type` is
`chat` and its only `content` is the text of the chat, or it has none and the chat is empty; and as
joining or leaving the call exactly if its only `type` says so; and otherwise not at all. It is one
of the texts of the object, and every other of them is read alike, with whatever spaces between the
tokens and whichever way the strings are spelled; so is every text of an object that has the same
members of the two names, in whatever order and among whichever others. In particular a string is
read as it is, from all of its spellings. -/
theorem decoded_by_their_grammar (ht : Json.parse? t = some (.object ms))
    (hplain : (Json.object ms).plain = true) :
    (∀ s, parse? t = some (.chat s) ↔ membersNamed "type" ms = [.text "chat"] ∧
      (membersNamed "content" ms = [.text s] ∨ (membersNamed "content" ms = [] ∧ s = ""))) ∧
    (parse? t = some .joinCall ↔ membersNamed "type" ms = [.text "call_join"]) ∧
    (parse? t = some .leaveCall ↔ membersNamed "type" ms = [.text "call_leave"]) ∧
    (parse? t = none ↔ ∀ f, ¬Describes ms f) ∧
    IsTextOf (.object ms) t ∧
    (∀ t', IsTextOf (.object ms) t' → parse? t' = parse? t) ∧
    (∀ t' ms', Json.parse? t' = some (.object ms') → (Json.object ms').plain = true →
      (ms'.filter isOwn).Perm (ms.filter isOwn) → parse? t' = parse? t) ∧
    (∀ s t' ms', IsTextOf (.object ms') t' → (Json.object ms').plain = true →
      membersNamed "type" ms' = [.text "chat"] → membersNamed "content" ms' = [.text s] →
      parse? t' = some (.chat s)) := by
  have hread := parse?_of_object ht hplain
  have hsound : (Json.object ms).sound = true := ((Bool.and_eq_true _ _).mp hplain).2
  refine ⟨fun s => ?_, ?_, ?_, ?_, (Json.isTextOf_iff_parse? hsound).mpr ht, ?_, ?_, ?_⟩
  · rw [hread]
    exact ofMembers?_eq_some_iff
  · rw [hread]
    exact ofMembers?_eq_some_iff
  · rw [hread]
    exact ofMembers?_eq_some_iff
  · rw [hread, Option.eq_none_iff_forall_not_mem]
    exact forall_congr' fun f => not_congr ofMembers?_eq_some_iff
  · intro t' ht'
    rw [parse?_of_object (Json.parse?_of_isTextOf ht') hplain, hread]
  · intro t' ms' ht' hplain' hsame
    rw [parse?_of_object ht' hplain', hread]
    exact ofMembers?_congr hsame
  · intro s t' ms' ht' hplain' htype hcontent
    rw [parse?_of_object (Json.parse?_of_isTextOf ht') hplain', ofMembers?_eq_some_iff]
    exact ⟨htype, Or.inl hcontent⟩

/-- The text of a frame with its type at the end, letters and a surrogate pair behind backslashes,
and a member that means nothing. -/
def spelledFrame : String :=
  "\x7b \"content\" : \"caf\\u00E9 \\uD83d\\uDE00\", \"x\":[1e2,null] ,"
    ++ "\"type\" : \"ch\\u0061t\"\x7d"

/-- The members that it spells. -/
def spelledMembers : List (Option String × Json) :=
  [(some "content", .text "café 😀"), (some "x", .array [.number ⟨false, 1, some 2⟩, .null]),
    (some "type", .text "chat")]

/-- A frame with its type at the end, escapes, and a member that means nothing. -/
theorem decoded_by_their_grammar_spelled :
    Json.parse? spelledFrame = some (.object spelledMembers) ∧
    (Json.object spelledMembers).plain = true ∧
    parse? spelledFrame = some (.chat "café 😀") := by
  have ht : Json.parse? spelledFrame = some (.object spelledMembers) :=
    Json.parse?_of_map_render (by decide +kernel)
  have hplain : (Json.object spelledMembers).plain = true := by decide +kernel
  obtain ⟨hchat, -⟩ := decoded_by_their_grammar ht hplain
  exact ⟨ht, hplain, (hchat _).mpr ⟨rfl, Or.inl rfl⟩⟩

end RoomHub.ClientFrame
