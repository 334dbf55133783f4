import RoomHub.Proofs.Json.Records
import RoomHub.Wire.Payload

/-!
# Records and their JSON forms

A record that clients are shown is found again in its JSON form:

> `MessagePayload.ofJson?_toJson`, when the number fits 64 bits;
> `PersonPayload.ofJson?_toJson`; `people?_people` for a list of people, in order.
-/

namespace RoomHub

namespace Json

/-- A list is read back when each item is. -/
theorem asList?_map {α β : Type} {f : Json → Option β} {g : α → Json} {h : α → β} {as : List α}
    (hread : ∀ a ∈ as, f (g a) = some (h a)) : asList? f (.array (as.map g)) = some (as.map h) := by
  have hmap : (as.map g).map f = (as.map h).map some := by
    rw [List.map_map, List.map_map]
    exact List.map_congr_left hread
  exact mapM_eq_some_iff.mpr hmap

end Json

namespace Wire

/-! ## Messages -/

/-- The members that are written for a message. -/
def MessagePayload.entries (m : MessagePayload) : List (String × Json) :=
  [("id", .int m.id), ("room_id", .text m.room), ("user_id", .text m.user),
    ("username", .text m.name), ("content", .text m.content), ("message_type", .text m.kind)] ++
    (m.mediaUrl.toList.map fun url => ("media_url", .text url)) ++
    [("created_at", .text m.createdAt)]

theorem MessagePayload.nodup_entries (m : MessagePayload) : (m.entries.map (·.1)).Nodup := by
  unfold entries
  cases m.mediaUrl with
  | none =>
    have hkeys : ["id", "room_id", "user_id", "username", "content", "message_type",
      "created_at"].Nodup := by decide
    exact hkeys
  | some url =>
    have hkeys : ["id", "room_id", "user_id", "username", "content", "message_type",
      "media_url", "created_at"].Nodup := by decide
    exact hkeys

/-- A message is found again in its JSON form. -/
theorem MessagePayload.ofJson?_toJson {m : MessagePayload} (hid : IsInt64 m.id) :
    ofJson? m.toJson = some m := by
  have hfields : m.toJson.fields? ["id", "room_id", "user_id", "username", "content",
      "message_type", "media_url", "created_at"] =
        some [some (.int m.id), some (.text m.room), some (.text m.user), some (.text m.name),
          some (.text m.content), some (.text m.kind), m.mediaUrl.map .text,
          some (.text m.createdAt)] := by
    refine (Json.fields?_record m.nodup_entries _).trans ?_
    unfold entries
    cases m.mediaUrl <;> rfl
  have hurl : optionalText? (m.mediaUrl.map .text) = some m.mediaUrl := by
    cases m.mediaUrl <;> rfl
  unfold ofJson?
  simp only [hfields, hurl, Json.asInt64?_int hid, Json.asString?_text]
  rfl

/-! ## People -/

/-- The members that are written for a participant. -/
def PersonPayload.entries (p : PersonPayload) : List (String × Json) :=
  [("id", .text p.id), ("username", .text p.name)]

theorem PersonPayload.nodup_entries (p : PersonPayload) : (p.entries.map (·.1)).Nodup := by
  have hkeys : ["id", "username"].Nodup := by decide
  exact hkeys

/-- A participant is read back. -/
theorem PersonPayload.ofJson?_toJson (p : PersonPayload) : ofJson? p.toJson = some p := by
  have hfields : p.toJson.fields? ["id", "username"] =
      some [some (.text p.id), some (.text p.name)] :=
    Json.fields?_record p.nodup_entries _
  unfold ofJson?
  simp only [hfields, Json.asString?_text]
  rfl

/-- A list of participants is read back. -/
theorem people?_people (ps : List PersonPayload) : people? (people ps) = some ps := by
  unfold people? people
  rw [Json.asList?_map (h := id) fun p _ => p.ofJson?_toJson, List.map_id]

end Wire
end RoomHub
