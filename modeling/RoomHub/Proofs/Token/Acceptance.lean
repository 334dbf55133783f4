import RoomHub.Proofs.Token.Issuing

/-!
# Nothing but a signed, unexpired identity token is accepted

The checks are passed in their order, so an accepted token bears witness to all of them.
Its text is cut in one way only, and the tag is compared as a text: behind one header and
claims a second text is never accepted, whatever is changed and whatever dots it brings.

> `Genuine`: what an accepted token is;
> `genuine_of_check`: that it is, from the checks;
> `signature_of_check`: the one text behind a header and claims that is accepted.
-/

namespace RoomHub.Token

open Text

/-- A header, claims and a signature that prove an identity at a present second. -/
structure Genuine (mac : Crypto.Mac) (secret : Secret) (now : Int)
    (headerPart claimsPart signature : List Char) (who : Participant) : Prop where
  /-- Neither part holds a dot. -/
  undotted : '.' ∉ headerPart ∧ '.' ∉ claimsPart
  /-- The header is base64 of a JSON value that names the one algorithm. -/
  header : ∃ bs v, Base64Url.decode? headerPart = some bs ∧ Json.parseBytes? bs = some v ∧
    NamesAlgorithm "HS256" v
  /-- The signature is the tag of header and claims, as a text. -/
  signed : signature = Base64Url.encode
    (mac secret.bytes (Utf8.bytes (String.ofList (headerPart ++ '.' :: claimsPart))))
  /-- The claims are base64 of a JSON object with the identity, the integers of its time and no
  audience, which would be a text or a list of texts. -/
  claimed : ∃ bs members iat exp, Base64Url.decode? claimsPart = some bs ∧
    Json.parseBytes? bs = some (.object members) ∧
    Claims.In ⟨who.user, who.name, iat, exp⟩ members ∧ 0 ≤ exp ∧ now ≤ exp ∧
    ∀ w ∈ Json.membersNamed "aud" members, isAudience w = false
  /-- The name is not blank. -/
  named : ∃ c ∈ who.name.toList, isBlankChar c = false

variable {mac : Crypto.Mac} {secret : Secret} {now : Int}

theorem dot_not_mem_of_readHeader {cs : List Char} {alg : String} (h : readHeader cs = .ok alg) :
    '.' ∉ cs := by
  obtain ⟨bs, v, hbs, -⟩ := readHeader_eq_ok.mp h
  exact dot_not_mem_of_decode? hbs

theorem dot_not_mem_of_readClaims {cs : List Char} {r : Reading} (h : readClaims cs = .ok r) :
    '.' ∉ cs := by
  obtain ⟨bs, v, w, hbs, -⟩ := readClaims_eq_ok.mp h
  exact dot_not_mem_of_decode? hbs

/-- A text is cut at its first dot in one way. -/
theorem cut_unique {first first' rest rest' : List Char} (hfirst : '.' ∉ first)
    (hfirst' : '.' ∉ first') (h : first ++ '.' :: rest = first' ++ '.' :: rest') :
    first = first' ∧ rest = rest' := by
  have hrev : rest.reverse ++ '.' :: first.reverse = rest'.reverse ++ '.' :: first'.reverse := by
    simpa using congrArg List.reverse h
  have hcut : some (rest.reverse, first.reverse) = some (rest'.reverse, first'.reverse) := by
    rw [← splitLast?_append (fun hdot => hfirst (List.mem_reverse.mp hdot)), hrev,
      splitLast?_append fun hdot => hfirst' (List.mem_reverse.mp hdot)]
  simpa [and_comm] using hcut

/-- A token that proves an identity passes all checks, and its name is not blank. -/
theorem check_of_verify {token : String} {who : Participant}
    (h : verify mac secret now token = .ok who) :
    ∃ c, check mac secret now token.toList = .ok c ∧ isBlank c.name = false ∧
      who = ⟨c.user, c.name⟩ := by
  unfold verify at h
  split at h
  next => cases h
  split at h
  next => cases h
  next c hcheck =>
    split at h
    next => cases h
    next hblank =>
      cases h
      exact ⟨c, hcheck, Bool.eq_false_iff.mpr hblank, rfl⟩

/-- A text that does not pass all checks is no valid token. -/
theorem verify_of_not_check {token : List Char} (htoken : token ≠ [])
    (h : ∀ c, check mac secret now token ≠ .ok c) :
    ∃ fault, verify mac secret now (String.ofList token) = .error (.invalid fault) := by
  rw [verify_ofList htoken]
  cases hcheck : check mac secret now token with
  | error fault => exact ⟨fault, rfl⟩
  | ok c => exact absurd hcheck (h c)

/-- Behind a header and claims without dots, the only text that passes is their tag. -/
theorem signature_of_check {headerPart claimsPart signature : List Char} {c : Claims}
    (hheader : '.' ∉ headerPart) (hclaims : '.' ∉ claimsPart)
    (h : check mac secret now (sealed (message headerPart claimsPart) signature) = .ok c) :
    signature = tag mac secret (message headerPart claimsPart) := by
  obtain ⟨headerPart', claimsPart', r, htoken, hheader', hclaims', -⟩ := check_eq_ok.mp h
  unfold sealed message at htoken
  rw [List.append_assoc, List.append_assoc] at htoken
  obtain ⟨rfl, hrest⟩ := cut_unique hheader (dot_not_mem_of_readHeader hheader') htoken
  obtain ⟨rfl, hsignature⟩ := cut_unique hclaims (dot_not_mem_of_readClaims hclaims') hrest
  exact hsignature

/-- What passes all checks is genuine, when the name it claims is not blank. -/
theorem genuine_of_check {token : List Char} {c : Claims}
    (h : check mac secret now token = .ok c) (hname : isBlank c.name = false) :
    ∃ headerPart claimsPart signature,
      token = sealed (message headerPart claimsPart) signature ∧
        Genuine mac secret now headerPart claimsPart signature ⟨c.user, c.name⟩ := by
  obtain ⟨headerPart, claimsPart, r, htoken, hheader, hclaims, hjudge⟩ := check_eq_ok.mp h
  obtain ⟨rfl, hexpiry, hfresh, haudience⟩ := judge_eq_ok.mp hjudge
  obtain ⟨bs, v, hbs, hv, halg⟩ := readHeader_eq_ok.mp hheader
  obtain ⟨bs', v', w, hbs', hv', hr, -⟩ := readClaims_eq_ok.mp hclaims
  obtain ⟨members, rfl, hin, haud⟩ := reading?_eq_some hr
  refine ⟨headerPart, claimsPart, _, htoken, ?_⟩
  exact {
    undotted := ⟨dot_not_mem_of_readHeader hheader, dot_not_mem_of_readClaims hclaims⟩
    header := ⟨bs, v, hbs, hv, algorithm?_eq_some halg⟩
    signed := rfl
    claimed := ⟨bs', members, r.claims.issuedAt, r.claims.expires, hbs', hv', hin, hexpiry,
      hfresh, haud haudience⟩
    named := isBlank_eq_false.mp hname }

/-- For every authenticator, secret, present second and text: a text that proves an identity
is a header, claims and a signature with dots between them, all of them genuine. At no second
is another signature accepted behind this header and these claims, and with any of its
characters changed into any other the token is not valid. -/
theorem verify_sound (mac : Crypto.Mac) (secret : Secret) (now : Int) (token : String)
    (who : Participant) (h : verify mac secret now token = .ok who) :
    ∃ headerPart claimsPart signature : List Char,
      token.toList = headerPart ++ '.' :: claimsPart ++ '.' :: signature ∧
      Genuine mac secret now headerPart claimsPart signature who ∧
      (∀ now' signature' who',
        verify mac secret now'
          (String.ofList (headerPart ++ '.' :: claimsPart ++ '.' :: signature')) = .ok who' →
            signature' = signature) ∧
      ∀ (now' : Int) (i : Nat) (c : Char), i < signature.length → signature[i]? ≠ some c →
        ∃ fault, verify mac secret now'
          (String.ofList (headerPart ++ '.' :: claimsPart ++ '.' :: signature.set i c)) =
            .error (.invalid fault) := by
  obtain ⟨claims, hcheck, hname, rfl⟩ := check_of_verify h
  obtain ⟨headerPart, claimsPart, signature, htoken, hgenuine⟩ := genuine_of_check hcheck hname
  obtain ⟨hheader, hclaims⟩ := hgenuine.undotted
  refine ⟨headerPart, claimsPart, signature, htoken, hgenuine, ?_, ?_⟩
  · intro now' signature' who' hother
    obtain ⟨claims', hcheck', -⟩ := check_of_verify hother
    rw [String.toList_ofList] at hcheck'
    exact (signature_of_check hheader hclaims hcheck').trans hgenuine.signed.symm
  · intro now' i c hi hchange
    refine verify_of_not_check (sealed_ne_nil _ _) ?_
    intro claims' hcheck'
    have hset : signature.set i c = signature :=
      (signature_of_check hheader hclaims hcheck').trans hgenuine.signed.symm
    exact hchange (hset ▸ List.getElem?_set_self hi)

/-- A header that names the algorithm as an object, beside other members. -/
def variantHeader : Json :=
  .record [("kid", .null), ("alg", .record [("HS256", .null)]), ("zip", .array [])]

/-- An issued token, in the last second of its day, and one under a header that nobody issues. -/
theorem verify_sound_issued :
    (verify (fun _ _ => [7]) ⟨List.replicate 32 0, by decide⟩ 86400
        (issue (fun _ _ => [7]) ⟨List.replicate 32 0, by decide⟩ ⟨⟨⟨1⟩⟩, "Ada"⟩ .epoch) =
          .ok ⟨⟨⟨1⟩⟩, "Ada"⟩ ∧
      ∃ headerPart claimsPart signature : List Char,
        Genuine (fun _ _ => [7]) ⟨List.replicate 32 0, by decide⟩ 86400
          headerPart claimsPart signature ⟨⟨⟨1⟩⟩, "Ada"⟩) ∧
    (verify (fun _ _ => [7]) ⟨List.replicate 32 0, by decide⟩ 5
        (String.ofList (signed (fun _ _ => [7]) ⟨List.replicate 32 0, by decide⟩ variantHeader
          ⟨⟨⟨2⟩⟩, "Bob", -3, 5⟩)) = .ok ⟨⟨⟨2⟩⟩, "Bob"⟩ ∧
      ∃ headerPart claimsPart signature : List Char,
        Genuine (fun _ _ => [7]) ⟨List.replicate 32 0, by decide⟩ 5
          headerPart claimsPart signature ⟨⟨⟨2⟩⟩, "Bob"⟩) := by
  have hissued : verify (fun _ _ => [7]) ⟨List.replicate 32 0, by decide⟩ 86400
      (issue (fun _ _ => [7]) ⟨List.replicate 32 0, by decide⟩ ⟨⟨⟨1⟩⟩, "Ada"⟩ .epoch) =
        .ok ⟨⟨⟨1⟩⟩, "Ada"⟩ := by
    rw [verify_issue_eq (by decide), if_neg (by decide), if_neg (by decide), if_neg (by decide)]
  have hvariant : verify (fun _ _ => [7]) ⟨List.replicate 32 0, by decide⟩ 5
      (String.ofList (signed (fun _ _ => [7]) ⟨List.replicate 32 0, by decide⟩ variantHeader
        ⟨⟨⟨2⟩⟩, "Bob", -3, 5⟩)) = .ok ⟨⟨⟨2⟩⟩, "Bob"⟩ := by
    rw [verify_signed (by decide) (by decide) (by decide), if_neg (by decide), if_neg (by decide),
      if_neg (by decide)]
  obtain ⟨headerPart, claimsPart, signature, -, hgenuine, -⟩ := verify_sound _ _ _ _ _ hissued
  obtain ⟨headerPart', claimsPart', signature', -, hgenuine', -⟩ :=
    verify_sound _ _ _ _ _ hvariant
  exact ⟨⟨hissued, headerPart, claimsPart, signature, hgenuine⟩, hvariant, headerPart',
    claimsPart', signature', hgenuine'⟩

end RoomHub.Token
