import RoomHub.Proofs.Id
import RoomHub.Proofs.Json.Records
import RoomHub.Token

/-!
# Headers and claims that can be read

What is written for claims is read as these claims:

> `reading?_toJson`

and what is read at all has the four claims as its members, each once:

> `reading?_eq_some`; `algorithm?_eq_some` for the header.
-/

namespace RoomHub.Token

/-! ## Headers -/

/-- A header that names an algorithm, as a variant: an object with that one member, or the array of
all fields in order. -/
def NamesAlgorithm (alg : String) (v : Json) : Prop :=
  ∃ w, Json.IsVariant alg w ∧
    ((∃ members, v = .object members ∧ Json.membersNamed "alg" members = [w]) ∨
      (∃ items, v = .array items ∧ items.length = headerFields.length ∧ items[1]? = some w))

/-- A header is read as an algorithm only when it names it. -/
theorem algorithm?_eq_some {v : Json} {alg : String} (h : algorithm? v = some alg) :
    NamesAlgorithm alg v := by
  unfold algorithm? at h
  split at h
  next typ w cty jku jwk kid x5u x5c x5t x5tS256 hfields =>
    simp only [Option.bind_eq_bind, Option.bind_eq_some_iff] at h
    obtain ⟨name, hname, -, -, -, -, -, -, hresult⟩ := h
    rw [Option.ite_none_right_eq_some, Bool.and_eq_true] at hresult
    obtain ⟨⟨hall, -⟩, hresult⟩ := hresult
    obtain rfl := Option.some.inj hresult
    refine ⟨w, Json.asVariant?_eq_some.mp hname, ?_⟩
    rcases Json.of_fields? (i := 1) hfields rfl rfl with ⟨members, rfl, halg⟩ | ⟨items, rfl, halg⟩
    · exact .inl ⟨members, rfl, halg⟩
    · exact .inr ⟨items, rfl, of_decide_eq_true hall, halg⟩
  next => cases h

/-- The header of issued tokens names the algorithm. -/
theorem algorithm?_header : algorithm? header = some "HS256" := by
  decide

/-! ## Claims -/

/-- The members of an object of claims. -/
structure Claims.In (c : Claims) (members : List (Option String × Json)) : Prop where
  user : ∃ uid, Json.membersNamed "uid" members = [.text uid] ∧ Id.parse? .user uid = some c.user
  name : Json.membersNamed "username" members = [.text c.name]
  issuedAt : Json.membersNamed "iat" members = [.int c.issuedAt]
  expires : Json.membersNamed "exp" members = [.int c.expires]

/-- Claims that were read stand under their names. -/
theorem claims?_eq_some {members : List (Option String × Json)} {c : Claims}
    (h : claims? (.object members) = some c) : c.In members := by
  unfold claims? at h
  split at h
  next uid name iat exp hfields =>
    simp only [Option.pure_def, Option.bind_eq_bind, Option.bind_eq_some_iff] at h
    obtain ⟨user, ⟨uidText, huid, huser⟩, nameText, hname, issuedAt, hiat, expires, hexp,
      hresult⟩ := h
    cases hresult
    refine ⟨⟨uidText, ?_, huser⟩, ?_, ?_, ?_⟩
    · rw [← Json.asString?_eq_some huid]
      exact Json.membersNamed_of_fields? (i := 0) hfields rfl rfl
    · rw [← Json.asString?_eq_some hname]
      exact Json.membersNamed_of_fields? (i := 1) hfields rfl rfl
    · rw [← (Json.asInt64?_eq_some hiat).1]
      exact Json.membersNamed_of_fields? (i := 2) hfields rfl rfl
    · rw [← (Json.asInt64?_eq_some hexp).1]
      exact Json.membersNamed_of_fields? (i := 3) hfields rfl rfl
  next => cases h

/-- What was read is an object with the claims in it; if no audience was found, nothing that stands
for one is in it. -/
theorem reading?_eq_some {v : Json} {r : Reading} (h : reading? v = some r) :
    ∃ members, v = .object members ∧ r.claims.In members ∧
      (r.audience = false → ∀ w ∈ Json.membersNamed "aud" members, isAudience w = false) := by
  unfold reading? at h
  obtain ⟨c, hclaims, h⟩ := Option.bind_eq_some_iff.mp h
  cases v with
  | object members =>
    obtain ⟨aud, haud, hresult⟩ := Option.bind_eq_some_iff.mp h
    cases hresult
    refine ⟨members, rfl, claims?_eq_some hclaims, ?_⟩
    intro hnone w hw
    cases aud with
    | none =>
      rw [Json.member?_eq_some_none.mp haud] at hw
      cases hw
    | some a =>
      rw [Json.member?_eq_some_some.mp haud, List.mem_singleton] at hw
      subst hw
      exact hnone
  | _ => cases h

/-- The members that are written for claims. -/
def Claims.entries (c : Claims) : List (String × Json) :=
  [("uid", .text c.user.toText), ("username", .text c.name), ("iat", .int c.issuedAt),
    ("exp", .int c.expires)]

theorem Claims.nodup_entries (c : Claims) : (c.entries.map (·.1)).Nodup := by
  have hkeys : c.entries.map (·.1) = ["uid", "username", "iat", "exp"] := rfl
  rw [hkeys]
  decide

/-- Claims that are issued hold none of the others that are tried. -/
theorem allPass_toJson (mark : Char) (c : Claims) : allPass mark c.toJson = true := by
  have hobject : c.toJson = .object (c.entries.map fun m => (some m.1, m.2)) := rfl
  unfold allPass
  simp only [hobject, Json.member?_record c.nodup_entries]
  rfl

/-- An integer of 64 bits is a number in range. -/
theorem sound_int {i : Int} (hi : IsInt64 i) : (Json.int i).sound = true := by
  have hmin : Int64.minValue.toInt = -9223372036854775808 := by decide
  have hmax : Int64.maxValue.toInt = 9223372036854775807 := by decide
  have hlarge : 18446744073709551616 ≤ Numeral.overflow := by decide
  unfold IsInt64 at hi
  show decide (i.natAbs < Numeral.overflow) = true
  rw [decide_eq_true_eq]
  omega

section ReadBack

variable {c : Claims} (hiat : IsInt64 c.issuedAt) (hexp : IsInt64 c.expires)

include hiat hexp

/-- Written claims hold no number beyond the range and no broken text. -/
theorem sound_toJson : c.toJson.sound = true := by
  show ((Json.int c.issuedAt).sound && ((Json.int c.expires).sound && true)) = true
  rw [sound_int hiat, sound_int hexp]
  rfl

/-- Written claims are read back. -/
theorem claims?_toJson : claims? c.toJson = some c := by
  have hfields : c.toJson.fields? ["uid", "username", "iat", "exp"] =
      some [some (.text c.user.toText), some (.text c.name), some (.int c.issuedAt),
        some (.int c.expires)] :=
    Json.fields?_record c.nodup_entries _
  have huser : (Json.text c.user.toText).asString?.bind (Id.parse? .user) = some c.user := by
    rw [Json.asString?_text, Option.bind_some, Id.parse?_toText]
  unfold claims?
  simp only [hfields, huser, Json.asInt64?_int hiat, Json.asInt64?_int hexp]
  rfl

/-- The claims are read back, and no audience with them. -/
theorem reading?_toJson : reading? c.toJson = some ⟨c, false⟩ := by
  have hmember (name : String) :
      Json.member? (c.entries.map fun m => (some m.1, m.2)) name = some (c.entries.lookup name) :=
    Json.member?_record c.nodup_entries name
  have hobject : c.toJson = .object (c.entries.map fun m => (some m.1, m.2)) := rfl
  unfold reading?
  rw [claims?_toJson hiat hexp, hobject]
  simp only [hmember]
  rfl

end ReadBack

end RoomHub.Token
