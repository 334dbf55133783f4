import RoomHub.Proofs.Text.Base64Url
import RoomHub.Token

/-!
# What is checked of a token

A token is cut at its last two dots. Nothing that is base64 holds a dot, so a token whose
header and claims can be read is cut where it was put together, and of all texts behind the
second dot only the tag of what stands before it will do:

> `check_sealed`: a header and claims that can be read, under their own tag, come to the
> judgement of the claims;
> `check_eq_ok`: nothing else is accepted.
-/

namespace RoomHub.Token

open Text

/-! ## Dots -/

/-- A text is cut at its last dot. -/
theorem splitLast?_append {before behind : List Char} (hbehind : '.' ∉ behind) :
    splitLast? (before ++ '.' :: behind) = some (before, behind) := by
  have hall : ∀ c ∈ behind.reverse, decide (c ≠ '.') = true := by
    intro c hc
    exact decide_eq_true fun heq => hbehind (heq ▸ List.mem_reverse.mp hc)
  have hrev : (before ++ '.' :: behind).reverse = behind.reverse ++ '.' :: before.reverse := by
    simp
  have htake : (before ++ '.' :: behind).reverse.takeWhile (· ≠ '.') = behind.reverse := by
    rw [hrev, List.takeWhile_append_of_pos hall, List.takeWhile_cons_of_neg (by decide),
      List.append_nil]
  have hdrop : (before ++ '.' :: behind).reverse.dropWhile (· ≠ '.') = '.' :: before.reverse := by
    rw [hrev, List.dropWhile_append_of_pos hall, List.dropWhile_cons_of_neg (by decide)]
  unfold splitLast?
  rw [htake, hdrop]
  simp

theorem splitLast?_eq_none {cs : List Char} (hcs : '.' ∉ cs) : splitLast? cs = none := by
  have hall : ∀ c ∈ cs.reverse, decide (c ≠ '.') = true := by
    intro c hc
    exact decide_eq_true fun heq => hcs (heq ▸ List.mem_reverse.mp hc)
  have hdrop : cs.reverse.dropWhile (· ≠ '.') = [] := by
    rw [← List.append_nil cs.reverse, List.dropWhile_append_of_pos hall]
    rfl
  unfold splitLast?
  rw [hdrop]
  rfl

/-- A text is cut at its last dot. -/
theorem splitLast?_eq_some {cs before behind : List Char}
    (h : splitLast? cs = some (before, behind)) :
    cs = before ++ '.' :: behind ∧ '.' ∉ behind := by
  by_cases hdot : '.' ∈ cs.reverse
  · -- the first dot of the reversed text is the last one of the text
    obtain ⟨last, first, hcut, hlast⟩ := List.eq_append_cons_of_mem hdot
    have hcs : cs = first.reverse ++ '.' :: last.reverse := by
      rw [← cs.reverse_reverse, hcut]
      simp
    have hnone : '.' ∉ last.reverse := fun hmem => hlast (List.mem_reverse.mp hmem)
    rw [hcs, splitLast?_append hnone] at h
    cases h
    exact ⟨hcs, hnone⟩
  · rw [splitLast?_eq_none fun hmem => hdot (List.mem_reverse.mpr hmem)] at h
    cases h

/-- A header and claims with a dot between them: what a tag is of. -/
def message (headerPart claimsPart : List Char) : List Char := headerPart ++ '.' :: claimsPart

/-- A message with a text behind it in the place of its tag. -/
def sealed (message signature : List Char) : List Char := message ++ '.' :: signature

/-- What can be decoded has no dot in it. -/
theorem dot_not_mem_of_decode? {cs : List Char} {bs : List UInt8}
    (h : Base64Url.decode? cs = some bs) : '.' ∉ cs :=
  Base64Url.decode?_eq_some_iff.mp h ▸ Base64Url.dot_not_mem_encode bs

/-! ## Readings -/

/-- A value that must be there is there. -/
theorem orFault_eq_ok {α : Type} {fault : TokenFault} {o : Option α} {a : α} :
    orFault fault o = .ok a ↔ o = some a := by
  cases o with
  | none => simp [orFault]
  | some b => simp [orFault]

/-- Two checks in a row succeed exactly if the first does, and the second with what it gives. -/
theorem bind_eq_ok {α β : Type} {x : Except TokenFault α} {f : α → Except TokenFault β} {b : β} :
    x >>= f = .ok b ↔ ∃ a, x = .ok a ∧ f a = .ok b := by
  cases x with
  | error e => simp [bind, Except.bind]
  | ok a => simp [bind, Except.bind]

theorem ok_bind {α β : Type} {a : α} {f : α → Except TokenFault β} : Except.ok a >>= f = f a := rfl

theorem pure_eq_ok {α : Type} {a b : α} : (pure a : Except TokenFault α) = .ok b ↔ a = b := by
  simp [pure, Except.pure]

/-- What comes after a check that passes over a fault. -/
theorem guard_eq_ok {p : Prop} [Decidable p] {fault : TokenFault} {α : Type}
    {f : PUnit → Except TokenFault α} {a : α} :
    (if p then throw fault >>= f else f ⟨⟩) = .ok a ↔ ¬p ∧ f ⟨⟩ = .ok a := by
  by_cases hp : p
  · simp [hp, throw, throwThe, MonadExceptOf.throw, bind, Except.bind]
  · simp [hp]

/-- A header part is base64 of a JSON value that names the algorithm. -/
theorem readHeader_eq_ok {cs : List Char} {alg : String} :
    readHeader cs = .ok alg ↔
      ∃ bs v, Base64Url.decode? cs = some bs ∧ Json.parseBytes? bs = some v ∧
        algorithm? v = some alg := by
  simp only [readHeader, bind_eq_ok, orFault_eq_ok, Option.bind_eq_some_iff]
  constructor
  · rintro ⟨bs, hbs, v, hv, halg⟩
    exact ⟨bs, v, hbs, hv, halg⟩
  · rintro ⟨bs, v, hbs, hv, halg⟩
    exact ⟨bs, hbs, v, hv, halg⟩

/-- A claims part is base64 of a JSON value with the claims, and of one that can be passed through
to its end. -/
theorem readClaims_eq_ok {cs : List Char} {r : Reading} :
    readClaims cs = .ok r ↔
      ∃ bs v w, Base64Url.decode? cs = some bs ∧ Json.parseBytes? bs = some v ∧
        reading? v = some r ∧ Json.parseMarked? (Json.markFor bs) bs = some w ∧
          allPass (Json.markFor bs) w = true := by
  simp only [readClaims, bind_eq_ok, guard_eq_ok, pure_eq_ok, orFault_eq_ok,
    Option.bind_eq_some_iff, Bool.not_eq_true, Bool.not_eq_false', Option.any_eq_true]
  constructor
  · rintro ⟨bs, hbs, r, ⟨v, hv, hr⟩, ⟨w, hw, hpass⟩, rfl⟩
    exact ⟨bs, v, w, hbs, hv, hr, hw, hpass⟩
  · rintro ⟨bs, v, w, hbs, hv, hr, hw, hpass⟩
    exact ⟨bs, hbs, r, ⟨v, hv, hr⟩, ⟨w, hw, hpass⟩, rfl⟩

/-! ## Judging -/

/-- What is left to judge of claims that were read. -/
def judge (now : Int) (r : Reading) : Except TokenFault Claims := do
  if r.claims.expires < 0 then throw (.missingClaim "exp")
  if r.claims.expires < now then throw .expired
  if r.audience then throw .audience
  return r.claims

variable {now : Int}

/-- Claims are judged by their time of expiry first, and then by their audience. -/
theorem judge_eq (r : Reading) :
    judge now r =
      if r.claims.expires < 0 then .error (.missingClaim "exp")
      else if r.claims.expires < now then .error .expired
      else if r.audience then .error .audience
      else .ok r.claims := by
  unfold judge
  by_cases hneg : r.claims.expires < 0
  · rw [if_pos hneg, if_pos hneg]
    rfl
  by_cases hlate : r.claims.expires < now
  · rw [if_neg hneg, if_neg hneg, if_pos hlate, if_pos hlate]
    rfl
  by_cases haudience : r.audience
  · rw [if_neg hneg, if_neg hneg, if_neg hlate, if_neg hlate, if_pos haudience, if_pos haudience]
    rfl
  · rw [if_neg hneg, if_neg hneg, if_neg hlate, if_neg hlate, if_neg haudience,
      if_neg haudience]
    rfl

/-- Claims pass if they have not expired and no audience was read with them. -/
theorem judge_eq_ok {r : Reading} {c : Claims} :
    judge now r = .ok c ↔
      r.claims = c ∧ 0 ≤ c.expires ∧ now ≤ c.expires ∧ r.audience = false := by
  simp only [judge, guard_eq_ok, pure_eq_ok, Int.not_lt, Bool.not_eq_true]
  constructor
  · rintro ⟨hneg, hlate, haudience, rfl⟩
    exact ⟨rfl, hneg, hlate, haudience⟩
  · rintro ⟨rfl, hneg, hlate, haudience⟩
    exact ⟨hneg, hlate, haudience, rfl⟩

/-! ## Checking -/

section Check

variable {mac : Crypto.Mac} {secret : Secret} {headerPart claimsPart : List Char}

theorem dot_not_mem_tag (m : List Char) : '.' ∉ tag mac secret m :=
  Base64Url.dot_not_mem_encode _

/-- Of a message under its own tag only the claims are left to judge. -/
theorem check_sealed {r : Reading} (hheader : readHeader headerPart = .ok "HS256")
    (hclaims : readClaims claimsPart = .ok r) :
    check mac secret now (sealed (message headerPart claimsPart)
      (tag mac secret (message headerPart claimsPart))) = judge now r := by
  obtain ⟨bs, v, w, hbs, -⟩ := readClaims_eq_ok.mp hclaims
  have hshape : splitLast? (sealed (message headerPart claimsPart)
      (tag mac secret (message headerPart claimsPart))) =
        some (message headerPart claimsPart, tag mac secret (message headerPart claimsPart)) :=
    splitLast?_append (dot_not_mem_tag _)
  have hmessage : splitLast? (message headerPart claimsPart) = some (headerPart, claimsPart) :=
    splitLast?_append (dot_not_mem_of_decode? hbs)
  simp only [check, hshape, hmessage, hheader, hclaims, orFault, ok_bind, ne_eq,
    not_true_eq_false, if_false]
  rfl

/-- Whatever is accepted has a header and claims that can be read, the one tag that its
message has, and claims that hold. -/
theorem check_eq_ok {token : List Char} {c : Claims} :
    check mac secret now token = .ok c ↔
      ∃ headerPart claimsPart r,
        token = sealed (message headerPart claimsPart)
            (tag mac secret (message headerPart claimsPart)) ∧
          readHeader headerPart = .ok "HS256" ∧ readClaims claimsPart = .ok r ∧
            judge now r = .ok c := by
  constructor
  · intro h
    simp only [check, bind_eq_ok, guard_eq_ok, orFault_eq_ok] at h
    obtain ⟨⟨m, signature⟩, hshape, ⟨headerPart, claimsPart⟩, hmessage, alg, hheader, halg, htag,
      r, hclaims, hjudge⟩ := h
    obtain ⟨rfl, -⟩ := splitLast?_eq_some hshape
    obtain ⟨rfl, -⟩ := splitLast?_eq_some hmessage
    obtain rfl := Decidable.not_not.mp halg
    have hsignature : signature = tag mac secret (message headerPart claimsPart) :=
      Decidable.not_not.mp htag
    refine ⟨headerPart, claimsPart, r, hsignature ▸ rfl, hheader, hclaims, ?_⟩
    simpa only [judge, guard_eq_ok] using hjudge
  · rintro ⟨headerPart, claimsPart, r, rfl, hheader, hclaims, hjudge⟩
    rw [check_sealed hheader hclaims, hjudge]

/-- A text that is not empty stands and falls with the checks; behind them only the name is left
to look at. -/
theorem verify_ofList {token : List Char} (htoken : token ≠ []) :
    verify mac secret now (String.ofList token) =
      match check mac secret now token with
      | .error fault => .error (.invalid fault)
      | .ok c => if isBlank c.name then .error .blankName else .ok ⟨c.user, c.name⟩ := by
  have hnonempty : (String.ofList token).isEmpty = false := by
    rw [Bool.eq_false_iff, ne_eq, String.isEmpty_iff]
    intro hempty
    exact htoken (by simpa using congrArg String.toList hempty)
  unfold verify
  rw [hnonempty, String.toList_ofList]
  rfl

theorem sealed_ne_nil (m signature : List Char) : sealed m signature ≠ [] :=
  List.append_ne_nil_of_right_ne_nil _ (List.cons_ne_nil _ _)

end Check

end RoomHub.Token
