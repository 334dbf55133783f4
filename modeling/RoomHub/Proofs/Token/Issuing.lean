import RoomHub.Proofs.Json.Trial
import RoomHub.Proofs.Token.Checks
import RoomHub.Proofs.Token.Readings

/-!
# Verifying undoes issuing

The header and the claims of an issued token are read back, each layer by its own inverse,
so that nothing is left to decide but the expiry and the name:

> `verify_issue_eq`: all that can come of verifying an issued token;
> `verify_issue`: it proves the identity that it was issued for, as long as the name is not
> blank and its day is not over.
-/

namespace RoomHub

/-- A moment that a clock can show. -/
def Instant.OnClock (t : Instant) : Prop :=
  clockRange.1 ≤ t.millis ∧ t.millis ≤ clockRange.2

instance (t : Instant) : Decidable t.OnClock := inferInstanceAs (Decidable (_ ∧ _))

namespace Token

open Text

variable {mac : Crypto.Mac} {secret : Secret} {now : Int}

/-- A part of a token is decoded as the text of its JSON. -/
theorem decode?_part (v : Json) : Base64Url.decode? (part v) = some (Utf8.bytes v.render) :=
  Base64Url.decode?_encode _

/-- A header that names the algorithm is read, however it is written. -/
theorem readHeader_part {v : Json} (hv : algorithm? v = some "HS256") :
    readHeader (part v) = .ok "HS256" :=
  readHeader_eq_ok.mpr ⟨_, v, decode?_part v, Json.parseBytes?_render v, hv⟩

/-- Claims that were written are read back, with no audience. -/
theorem readClaims_toJson {c : Claims} (hiat : IsInt64 c.issuedAt) (hexp : IsInt64 c.expires) :
    readClaims (part c.toJson) = .ok ⟨c, false⟩ :=
  readClaims_eq_ok.mpr ⟨_, c.toJson, c.toJson, decode?_part c.toJson,
    Json.parseBytes?_render c.toJson, reading?_toJson hiat hexp,
    Json.parseMarked?_render (sound_toJson hiat hexp), allPass_toJson _ c⟩

/-- A header and claims under their tag. -/
def signed (mac : Crypto.Mac) (secret : Secret) (v : Json) (c : Claims) : List Char :=
  sealed (message (part v) (part c.toJson)) (tag mac secret (message (part v) (part c.toJson)))

/-- An issued token has the one header that is written. -/
theorem sign_eq (c : Claims) : sign mac secret c = String.ofList (signed mac secret header c) := rfl

/-- Whatever header names the algorithm, only the expiry and the name of signed claims are left to
judge. -/
theorem verify_signed {v : Json} {c : Claims} (hv : algorithm? v = some "HS256")
    (hiat : IsInt64 c.issuedAt) (hexp : IsInt64 c.expires) :
    verify mac secret now (String.ofList (signed mac secret v c)) =
      if c.expires < 0 then .error (.invalid (.missingClaim "exp"))
      else if c.expires < now then .error (.invalid .expired)
      else if isBlank c.name then .error .blankName
      else .ok ⟨c.user, c.name⟩ := by
  have hcheck : check mac secret now (signed mac secret v c) = judge now ⟨c, false⟩ :=
    check_sealed (readHeader_part hv) (readClaims_toJson hiat hexp)
  have hnonempty : signed mac secret v c ≠ [] := sealed_ne_nil _ _
  rw [verify_ofList hnonempty, hcheck, judge_eq]
  by_cases hneg : c.expires < 0
  · simp [hneg]
  by_cases hlate : c.expires < now
  · simp [hneg, hlate]
  · simp [hneg, hlate]

/-- The seconds of a clock's moments, and of those a day later, are integers of 64 bits. -/
theorem isInt64_of_onClock {t : Instant} (ht : t.OnClock) :
    IsInt64 t.seconds ∧ IsInt64 (t.seconds + lifetime) := by
  have hlow : -8334601228800000 ≤ t.nanos / 1000000 := ht.1
  have hhigh : t.nanos / 1000000 ≤ 8210266876799999 := ht.2
  have hmin : Int64.minValue.toInt = -9223372036854775808 := by decide
  have hmax : Int64.maxValue.toInt = 9223372036854775807 := by decide
  unfold IsInt64 Instant.seconds lifetime
  omega

/-- All that can come of verifying an issued token. -/
theorem verify_issue_eq {t : Instant} (ht : t.OnClock) (who : Participant) :
    verify mac secret now (issue mac secret who t) =
      if t.seconds + lifetime < 0 then .error (.invalid (.missingClaim "exp"))
      else if t.seconds + lifetime < now then .error (.invalid .expired)
      else if isBlank who.name then .error .blankName
      else .ok who := by
  obtain ⟨hiat, hexp⟩ := isInt64_of_onClock ht
  rw [issue, sign_eq, verify_signed algorithm?_header hiat hexp]

/-- A text is not blank when some character is not white space. -/
theorem isBlank_eq_false {s : String} :
    isBlank s = false ↔ ∃ c ∈ s.toList, isBlankChar c = false := by
  simp [isBlank]

/-- For every authenticator, secret, identity, moment of a clock and present second: a
token that was issued proves the identity it was issued for exactly when the name holds a
character that is not blank and the second a day after issuing is neither negative nor
past. Where only the name is at fault the payload is; everything else is no valid token. -/
theorem verify_issue (mac : Crypto.Mac) (secret : Secret) (who : Participant) (t : Instant)
    (ht : t.OnClock) (now : Int) :
    (verify mac secret now (issue mac secret who t) = .ok who ↔
      (∃ c ∈ who.name.toList, isBlankChar c = false) ∧
        0 ≤ t.seconds + 86400 ∧ now ≤ t.seconds + 86400) ∧
    ((∀ c ∈ who.name.toList, isBlankChar c = true) →
      0 ≤ t.seconds + 86400 → now ≤ t.seconds + 86400 →
        verify mac secret now (issue mac secret who t) = .error .blankName) ∧
    (¬(0 ≤ t.seconds + 86400 ∧ now ≤ t.seconds + 86400) →
      ∃ fault, verify mac secret now (issue mac secret who t) = .error (.invalid fault)) := by
  have hday : lifetime = 86400 := rfl
  rw [verify_issue_eq ht who, hday]
  by_cases hneg : t.seconds + 86400 < 0
  · rw [if_pos hneg]
    refine ⟨⟨nofun, by omega⟩, by omega, fun _ => ⟨_, rfl⟩⟩
  by_cases hlate : t.seconds + 86400 < now
  · rw [if_neg hneg, if_pos hlate]
    refine ⟨⟨nofun, by omega⟩, by omega, fun _ => ⟨_, rfl⟩⟩
  rw [if_neg hneg, if_neg hlate]
  cases hblank : isBlank who.name with
  | true =>
    have hall : ∀ c ∈ who.name.toList, isBlankChar c = true := List.all_eq_true.mp hblank
    refine ⟨⟨nofun, ?_⟩, fun _ _ _ => rfl, by omega⟩
    rintro ⟨⟨c, hc, hsolid⟩, -⟩
    rw [hall c hc] at hsolid
    cases hsolid
  | false =>
    obtain ⟨c, hc, hsolid⟩ := isBlank_eq_false.mp hblank
    refine ⟨⟨fun _ => ⟨⟨c, hc, hsolid⟩, by omega, by omega⟩, fun _ => rfl⟩, ?_, by omega⟩
    intro hall
    rw [hall c hc] at hsolid
    cases hsolid

/-- Two seconds before 1970 a token was issued, and it holds to its last second. -/
theorem verify_issue_before_epoch :
    (Instant.mk (-1500000000)).OnClock ∧
      verify (fun _ bs => bs) ⟨List.replicate 32 0, by decide⟩ 86398
        (issue (fun _ bs => bs) ⟨List.replicate 32 0, by decide⟩ ⟨⟨⟨0⟩⟩, " \"\n"⟩ ⟨-1500000000⟩) =
          .ok ⟨⟨⟨0⟩⟩, " \"\n"⟩ :=
  ⟨by decide, (verify_issue _ _ _ _ (by decide) _).1.mpr ⟨⟨'"', by decide, by decide⟩, by decide,
    by decide⟩⟩

end Token

end RoomHub
