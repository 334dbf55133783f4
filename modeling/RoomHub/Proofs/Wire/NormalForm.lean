import Mathlib.Data.List.Forall2
import RoomHub.Proofs.Json.RoundTrip
import RoomHub.Proofs.Wire.Payload

/-!
# The text that is written for a record

A record of any kind is read back from the text that is written for it. Many other texts read as
the same record; whichever is read, the record that was read is written as the one text that is
written for it, so that writing again changes nothing.

> `ofJson?_of_fields`: what an object or an array has to hold to be read as a record;
> `fits_of_ofJson?`: what is read is a record that can be written;
> `text_is_normal_form`: what follows for the texts.
-/

namespace RoomHub.Wire

/-- The names of the fields, in order. -/
def PayloadKind.names : PayloadKind → List String
  | message => ["id", "room_id", "user_id", "username", "content", "message_type", "media_url",
      "created_at"]
  | participant => ["id", "username"]
  | health => ["status"]
  | presence => ["room_id", "members", "participants", "call_users"]
  | callParticipants => ["room_id", "call_users"]
  | error => ["error"]

theorem PayloadKind.nodup_names (kind : PayloadKind) : kind.names.Nodup := by
  cases kind <;> decide

/-- A record of any kind. -/
inductive Payload where
  | message (m : MessagePayload)
  | participant (p : PersonPayload)
  | health (h : HealthPayload)
  | presence (p : PresencePayload)
  | callParticipants (c : CallPayload)
  | error (e : ErrorPayload)
  deriving DecidableEq, Repr

namespace Payload

/-- The kind of a record. -/
def kind : Payload → PayloadKind
  | message _ => .message
  | participant _ => .participant
  | health _ => .health
  | presence _ => .presence
  | callParticipants _ => .callParticipants
  | error _ => .error

/-- Whether the numbers of a record have 64 bits. -/
def Fits : Payload → Prop
  | message m => IsInt64 m.id
  | _ => True

/-- The JSON form. -/
def toJson : Payload → Json
  | message m => m.toJson
  | participant p => p.toJson
  | health h => h.toJson
  | presence p => p.toJson
  | callParticipants c => c.toJson
  | error e => e.toJson

/-- Reads a record of a kind. -/
def ofJson? : PayloadKind → Json → Option Payload
  | .message, v => (MessagePayload.ofJson? v).map message
  | .participant, v => (PersonPayload.ofJson? v).map participant
  | .health, v => (HealthPayload.ofJson? v).map health
  | .presence, v => (PresencePayload.ofJson? v).map presence
  | .callParticipants, v => (CallPayload.ofJson? v).map callParticipants
  | .error, v => (ErrorPayload.ofJson? v).map error

/-- The text that is written for a record. -/
def text (p : Payload) : String := p.toJson.render

/-- Reads the text of a record of a kind. -/
def read? (kind : PayloadKind) (text : String) : Option Payload :=
  (Json.parse? text).bind (ofJson? kind)

/-- The fields of a record in order; one that is left out is `none`. -/
def fields : Payload → List (Option Json)
  | message m => [some (.int m.id), some (.text m.room), some (.text m.user), some (.text m.name),
      some (.text m.content), some (.text m.kind), m.mediaUrl.map .text, some (.text m.createdAt)]
  | participant p => [some (.text p.id), some (.text p.name)]
  | health h => [some (.text h.status)]
  | presence p => [some (.text p.room), some (people p.members), some (people p.participants),
      some (people p.callUsers)]
  | callParticipants c => [some (.text c.room), some (people c.callUsers)]
  | error e => [some (.text e.error)]

variable {p q : Payload} {kind : PayloadKind} {v w : Json} {t u : String}

/-! ## What is read and what is written -/

/-- The normal form of a value is the record read from it, written again. -/
theorem normal?_eq (kind : PayloadKind) (v : Json) :
    kind.normal? v = (ofJson? kind v).map toJson := by
  cases kind <;>
    · unfold PayloadKind.normal? ofJson?
      rw [Option.map_map]
      rfl

/-- The normal form of a text is the text of the record read from it. -/
theorem normalise?_eq (kind : PayloadKind) (t : String) :
    kind.normalise? t = (read? kind t).map text := by
  unfold PayloadKind.normalise? read?
  rw [Option.map_bind]
  refine congrArg _ (funext fun v => ?_)
  rw [normal?_eq, Option.map_map]
  rfl

/-- Reading a record's text is reading its JSON. -/
theorem read?_text_eq (kind : PayloadKind) (p : Payload) :
    read? kind p.text = ofJson? kind p.toJson := by
  unfold read? text
  rw [Json.parse?_render]
  rfl

/-- The members that are written for a record. -/
def entries (p : Payload) : List (String × Json) :=
  (p.kind.names.zip p.fields).filterMap fun field => field.2.map (field.1, ·)

theorem toJson_eq_record (p : Payload) : p.toJson = .record p.entries := by
  cases p with
  | message m =>
    obtain ⟨id, room, user, name, content, kind, mediaUrl, createdAt⟩ := m
    cases mediaUrl <;> rfl
  | participant | health | presence | callParticipants | error => rfl

theorem nodup_entries (p : Payload) : (p.entries.map (·.1)).Nodup := by
  have hsub (names : List String) (fs : List (Option Json)) :
      List.Sublist (((names.zip fs).filterMap fun field => field.2.map (field.1, ·)).map (·.1))
        names := by
    induction names generalizing fs with
    | nil => exact List.nil_sublist _
    | cons name names ih =>
      cases fs with
      | nil => exact List.nil_sublist _
      | cons f fs =>
        cases f with
        | none => exact (ih fs).cons name
        | some v => exact (ih fs).cons_cons name
  exact (hsub _ _).nodup p.kind.nodup_names

/-- A record has its fields in its JSON form. -/
theorem fields?_toJson (p : Payload) : p.toJson.fields? p.kind.names = some p.fields := by
  rw [toJson_eq_record, Json.fields?_record p.nodup_entries]
  cases p with
  | message m =>
    obtain ⟨id, room, user, name, content, kind, mediaUrl, createdAt⟩ := m
    cases mediaUrl <;> rfl
  | participant | health | presence | callParticipants | error => rfl

/-- What may stand for a field: the field itself, or `null` if it is left out. -/
def StandsFor (g f : Option Json) : Prop := g = f ∨ (f = none ∧ g = some .null)

@[simp] theorem standsFor_some {g : Option Json} : StandsFor g (some v) ↔ g = some v := by
  unfold StandsFor
  simp

/-- Nothing but itself stands for a field that is there. -/
theorem eq_of_standsFor {fs gs : List (Option Json)} (h : List.Forall₂ StandsFor fs gs)
    (hall : ∀ g ∈ gs, g.isSome = true) : fs = gs := by
  induction h with
  | nil => rfl
  | cons hf _ ih =>
    obtain ⟨hg, hgs⟩ := List.forall_mem_cons.mp hall
    obtain ⟨v, rfl⟩ := Option.isSome_iff_exists.mp hg
    rw [standsFor_some.mp hf, ih hgs]

/-- A missing text, and `null` for it, are read as missing. -/
theorem optionalText?_of_standsFor {g : Option Json} {url : Option String}
    (h : StandsFor g (url.map .text)) : optionalText? g = some url := by
  obtain rfl | ⟨hnone, rfl⟩ := h
  · cases url <;> rfl
  · rw [Option.map_eq_none_iff.mp hnone]
    rfl

/-- What has the fields of a record is read as the record. -/
theorem ofJson?_of_fields {fs : List (Option Json)} (hfits : p.Fits)
    (hfields : v.fields? p.kind.names = some fs) (hfs : List.Forall₂ StandsFor fs p.fields) :
    ofJson? p.kind v = some p := by
  cases p with
  | message m =>
    obtain ⟨id, room, user, name, content, word, mediaUrl, createdAt⟩ := m
    -- the media address is the one field that something else may stand for
    simp only [fields, List.forall₂_cons_right_iff, List.forall₂_nil_right_iff,
      standsFor_some] at hfs
    obtain ⟨_, _, rfl, ⟨_, _, rfl, ⟨_, _, rfl, ⟨_, _, rfl, ⟨_, _, rfl, ⟨_, _, rfl, ⟨url, _, hurl,
      ⟨_, _, rfl, rfl, rfl⟩, rfl⟩, rfl⟩, rfl⟩, rfl⟩, rfl⟩, rfl⟩, rfl⟩ := hfs
    have hid : IsInt64 id := hfits
    simp only [kind, PayloadKind.names] at hfields
    simp only [kind, ofJson?, MessagePayload.ofJson?, hfields, optionalText?_of_standsFor hurl,
      Json.asInt64?_int hid, Json.asString?_text]
    rfl
  | participant | health | presence | callParticipants | error =>
    rw [eq_of_standsFor hfs (by simp [fields])] at hfields
    simp only [kind, PayloadKind.names, fields] at hfields
    simp only [kind, ofJson?, PersonPayload.ofJson?, HealthPayload.ofJson?,
      PresencePayload.ofJson?, CallPayload.ofJson?, ErrorPayload.ofJson?, hfields,
      Json.asString?_text, people?_people]
    rfl

theorem standsFor_refl (f : Option Json) : StandsFor f f := Or.inl rfl

/-- A record is read back from its JSON form. -/
theorem ofJson?_toJson (hfits : p.Fits) : ofJson? p.kind p.toJson = some p :=
  ofJson?_of_fields hfits p.fields?_toJson (List.forall₂_same.mpr fun f _ => standsFor_refl f)

/-- What is read is a record of the kind that was asked for, and its numbers have 64 bits. -/
theorem fits_of_ofJson? (h : ofJson? kind v = some p) : p.kind = kind ∧ p.Fits := by
  cases kind with
  | message =>
    obtain ⟨m, hm, rfl⟩ := Option.map_eq_some_iff.mp h
    refine ⟨rfl, ?_⟩
    unfold MessagePayload.ofJson? at hm
    split at hm
    next =>
      simp only [Option.pure_def, Option.bind_eq_bind, Option.bind_eq_some_iff] at hm
      obtain ⟨id, hid, _, _, _, _, _, _, _, _, _, _, _, _, _, _, hm⟩ := hm
      cases hm
      exact (Json.asInt64?_eq_some hid).2
    next => cases hm
  | participant | health | presence | callParticipants | error =>
    obtain ⟨_, -, rfl⟩ := Option.map_eq_some_iff.mp h
    exact ⟨rfl, trivial⟩

/-! ## Texts that are read -/

/-- Where there is one member of a name, or none, that is what is found. -/
theorem member?_of_toList {ms : List (Option String × Json)} {name : String} {g : Option Json}
    (h : Json.membersNamed name ms = g.toList) : Json.member? ms name = some g := by
  cases g with
  | none => exact Json.member?_eq_some_none.mpr h
  | some v => exact Json.member?_eq_some_some.mpr h

/-- Whether members hold the fields of a record: under the name of each field there is that one
field and nothing else, and under the name of a field that is left out nothing, or one `null`. -/
def Holds (ms : List (Option String × Json)) (names : List String)
    (fields : List (Option Json)) : Prop :=
  List.Forall₂ (fun name f => ∃ g : Option Json, Json.membersNamed name ms = g.toList ∧
    StandsFor g f) names fields

/-- Under the names of the fields there are values that stand for them. -/
theorem Holds.exists_fields {ms : List (Option String × Json)} {names : List String}
    {fields : List (Option Json)} (h : Holds ms names fields) :
    ∃ fs, names.mapM (Json.member? ms) = some fs ∧ List.Forall₂ StandsFor fs fields := by
  simp only [Json.mapM_eq_some_iff]
  induction h with
  | nil => exact ⟨[], rfl, .nil⟩
  | cons hfirst _ ih =>
    obtain ⟨g, hg, hstands⟩ := hfirst
    obtain ⟨fs, hfs, hrest⟩ := ih
    refine ⟨g :: fs, ?_, .cons hstands hrest⟩
    rw [List.map_cons, List.map_cons, hfs, member?_of_toList hg]

/-- An object that holds the fields is read, in whatever order they are and whatever else it
holds. -/
theorem ofJson?_object {ms : List (Option String × Json)} (hfits : p.Fits)
    (hkeys : ∀ m ∈ ms, m.1.isSome = true) (hms : Holds ms p.kind.names p.fields) :
    ofJson? p.kind (.object ms) = some p := by
  obtain ⟨fs, hread, hstands⟩ := hms.exists_fields
  refine ofJson?_of_fields hfits ?_ hstands
  show (if ms.all (·.1.isSome) then p.kind.names.mapM (Json.member? ms) else none) = _
  rw [if_pos (List.all_eq_true.mpr hkeys), hread]

/-- A record has a field for each name. -/
theorem length_fields (p : Payload) : p.fields.length = p.kind.names.length := by
  cases p <;> rfl

/-- An array of the fields in order is read, with `null` for one that is left out. -/
theorem ofJson?_array (hfits : p.Fits) :
    ofJson? p.kind (.array (p.fields.map (·.getD .null))) = some p := by
  have hlen : (p.fields.map (·.getD Json.null)).length = p.kind.names.length := by
    rw [List.length_map, length_fields]
  have hfields : (Json.array (p.fields.map (·.getD .null))).fields? p.kind.names
      = some (p.fields.map fun f => some (f.getD .null)) := by
    simp only [Json.fields?]
    rw [if_pos (Nat.le_of_eq hlen), hlen, Nat.sub_self, List.replicate_zero, List.append_nil,
      List.map_map]
    rfl
  refine ofJson?_of_fields hfits hfields ?_
  refine List.forall₂_map_left_iff.mpr (List.forall₂_same.mpr fun f _ => ?_)
  cases f with
  | none => exact Or.inr ⟨rfl, rfl⟩
  | some v => exact Or.inl rfl

/-! ## The normal form -/

/-- What is read from a text is read from its own text as well. -/
theorem read?_text_of_read? (h : read? kind t = some p) : read? kind p.text = some p := by
  obtain ⟨v, -, hv⟩ := Option.bind_eq_some_iff.mp h
  obtain ⟨rfl, hfits⟩ := fits_of_ofJson? hv
  rw [read?_text_eq]
  exact ofJson?_toJson hfits

/-- A text that is read as a record has that record's text as its normal form. -/
theorem normalise?_of_read? (h : read? kind t = some p) : kind.normalise? t = some p.text := by
  rw [normalise?_eq, h]
  rfl

/-- Texts are told apart by the records they are of. -/
theorem text_inj_of_read? (hp : read? kind t = some p) (hq : read? kind u = some q)
    (h : p.text = q.text) : p = q := by
  have hread := read?_text_of_read? hp
  rw [h, read?_text_of_read? hq] at hread
  exact (Option.some.inj hread).symm

/-- A record is read back from the text that is written for it. Whatever text a record is read
from, its own text reads as the record and is its own normal form; so bringing a text into normal
form twice is the same as once, and two texts have one normal form exactly if the same record is
read from them. Among the texts that a record is read from are all objects that hold its fields,
whatever their order and whatever stands beside them, with `null` or nothing for one that is left
out, and the array of the fields in their order. -/
theorem text_is_normal_form :
    (∀ p : Payload, p.Fits → read? p.kind p.text = some p) ∧
    (∀ kind t p, read? kind t = some p → read? kind p.text = some p ∧
      kind.normalise? t = some p.text ∧ kind.normalise? p.text = some p.text) ∧
    (∀ (kind : PayloadKind) t, (kind.normalise? t).bind kind.normalise? = kind.normalise? t) ∧
    (∀ kind t u p q, read? kind t = some p → read? kind u = some q →
      (kind.normalise? t = kind.normalise? u ↔ p = q)) ∧
    (∀ (p : Payload) t ms, p.Fits → Json.parse? t = some (.object ms) →
      (∀ m ∈ ms, m.1.isSome = true) → Holds ms p.kind.names p.fields → read? p.kind t = some p) ∧
    (∀ (p : Payload) t, p.Fits → Json.parse? t = some (.array (p.fields.map (·.getD .null))) →
      read? p.kind t = some p) := by
  refine ⟨?_, ?_, ?_, ?_, ?_, ?_⟩
  · intro p hfits
    rw [read?_text_eq]
    exact ofJson?_toJson hfits
  · intro kind t p h
    have hread := read?_text_of_read? h
    exact ⟨hread, normalise?_of_read? h, normalise?_of_read? hread⟩
  · intro kind t
    rw [normalise?_eq]
    cases h : read? kind t with
    | none => rfl
    | some p => exact normalise?_of_read? (read?_text_of_read? h)
  · intro kind t u p q hp hq
    rw [normalise?_of_read? hp, normalise?_of_read? hq]
    exact ⟨fun h => text_inj_of_read? hp hq (Option.some.inj h), fun h => h ▸ rfl⟩
  · intro p t ms hfits ht hkeys hms
    unfold read?
    rw [ht]
    exact ofJson?_object hfits hkeys hms
  · intro p t hfits ht
    unfold read?
    rw [ht]
    exact ofJson?_array hfits

/-- A message without a media address. -/
def shuffled : Payload :=
  .message ⟨7, "hall", "bob", "Bob 😀", "\"hi\"", "text", none, "now"⟩

/-- Its fields in an order of their own, with `null` for the address, one that means nothing, and
characters behind backslashes. -/
def shuffledText : String :=
  "\x7b\"media_url\":null, \"created_at\":\"n\\u006fw\", \"message_type\":\"text\",\n"
    ++ "\"extra\":[1.5],\"content\":\"\\u0022hi\\\"\",\"username\":\"Bob \\ud83d\\ude00\","
    ++ "\"user_id\":\"bob\",\"room_id\":\"hall\", \"id\" : 7 \x7d"

/-- The members that it spells. -/
def shuffledMembers : List (Option String × Json) :=
  [(some "media_url", .null), (some "created_at", .text "now"), (some "message_type", .text "text"),
    (some "extra", .array [.number ⟨false, 15, some (-1)⟩]), (some "content", .text "\"hi\""),
    (some "username", .text "Bob 😀"), (some "user_id", .text "bob"), (some "room_id", .text "hall"),
    (some "id", .int 7)]

/-- A message spelled in another order, with escapes and a stranger among its fields, has the normal
form of that message. -/
theorem text_is_normal_form_shuffled :
    read? .message shuffledText = some shuffled ∧
    PayloadKind.message.normalise? shuffledText = some shuffled.text ∧
    PayloadKind.message.normalise? shuffled.text = some shuffled.text := by
  obtain ⟨-, hnormal, -, -, hobject, -⟩ := text_is_normal_form
  have ht : Json.parse? shuffledText = some (.object shuffledMembers) :=
    Json.parse?_of_map_render (by decide +kernel)
  have hholds : Holds shuffledMembers shuffled.kind.names shuffled.fields :=
    .cons ⟨some _, rfl, Or.inl rfl⟩ <| .cons ⟨some _, rfl, Or.inl rfl⟩ <|
    .cons ⟨some _, rfl, Or.inl rfl⟩ <| .cons ⟨some _, rfl, Or.inl rfl⟩ <|
    .cons ⟨some _, rfl, Or.inl rfl⟩ <| .cons ⟨some _, rfl, Or.inl rfl⟩ <|
    .cons ⟨some _, rfl, Or.inr ⟨rfl, rfl⟩⟩ <| .cons ⟨some _, rfl, Or.inl rfl⟩ .nil
  have hfits : shuffled.Fits := by
    show IsInt64 7
    decide
  have hread := hobject shuffled shuffledText shuffledMembers hfits ht (by decide) hholds
  obtain ⟨-, htext, hself⟩ := hnormal _ _ _ hread
  exact ⟨hread, htext, hself⟩

end Payload
end RoomHub.Wire
