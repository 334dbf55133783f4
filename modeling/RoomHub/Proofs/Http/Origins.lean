import Mathlib.Data.List.TakeWhile
import RoomHub.Http.Router
import RoomHub.Proofs.Programs
import RoomHub.Proofs.Text.Utf8

/-!
# Which origins a list of entries lets in

The list is gone through twice, once for a star and once for the origins to compare with. An
entry counts when it is not blank and a header can hold it once it is trimmed. Those that do
not count leave no trace in the policy, and a star, which counts, never ends up beside other
origins or credentials.

> `usable_eq`: the origins to compare with are the trimmed entries that count;
> `ofOrigins_filter`: the other entries change nothing;
> `grants_ensured`: an answer has the headers of the policy and no others of their kind;
> `listed_origins_only`: what follows for every list, every origin and every request.
-/

namespace RoomHub

/-! ## Blank entries -/

/-- Nothing is left of a text exactly if it is blank. -/
theorem Text.trim_eq_empty_iff {s : String} : trim s = "" ↔ isBlank s = true := by
  have hall : ∀ cs : List Char, (∀ c ∈ cs.dropWhile isBlankChar, isBlankChar c = true) ↔
      ∀ c ∈ cs, isBlankChar c = true := by
    intro cs
    -- what is dropped in front is blank anyway
    refine ⟨fun h c hc => ?_, fun h c hc => h c ((List.dropWhile_sublist _).mem hc)⟩
    rw [← List.takeWhile_append_dropWhile (l := cs), List.mem_append] at hc
    exact hc.elim List.mem_takeWhile_imp (h c)
  have hempty (cs : List Char) : String.ofList cs = "" ↔ cs = [] := by
    rw [← String.toList_inj, String.toList_ofList]
    rfl
  unfold trim isBlank
  rw [hempty, List.reverse_eq_nil_iff, List.dropWhile_eq_nil_iff, List.all_eq_true]
  simp only [List.mem_reverse]
  exact hall s.toList

namespace Http

namespace Cors

/-- An entry that counts: it is not blank, and a header can hold it once it is trimmed. -/
def Counts (entry : String) : Prop :=
  Text.isBlank entry = false ∧ isHeaderValue (Text.trim entry) = true

instance : DecidablePred Counts := fun _ => inferInstanceAs (Decidable (_ ∧ _))

/-- The headers by which a response lets other origins in. -/
def isGrant (h : String × String) : Bool :=
  h.1 = "access-control-allow-origin" || h.1 = "access-control-allow-credentials"

variable {origins : List String} {entry o : String}

/-! ## The entries that count -/

/-- The origins to compare with are the trimmed entries that count. -/
theorem usable_eq (origins : List String) :
    usable origins = (origins.filter Counts).map Text.trim := by
  unfold usable entries
  rw [List.filter_map, List.filter_map, List.filter_filter]
  refine congrArg (List.map Text.trim) (List.filter_congr fun entry _ => ?_)
  have hblank : (Text.trim entry).isEmpty = Text.isBlank entry := by
    rw [Bool.eq_iff_iff, String.isEmpty_iff]
    exact Text.trim_eq_empty_iff
  rw [Bool.eq_iff_iff, decide_eq_true_eq]
  simp only [Function.comp_apply, hblank, Bool.and_eq_true, Bool.not_eq_true']
  exact and_comm

/-- The origins to compare with are the trimmed entries that count. -/
theorem mem_usable : o ∈ usable origins ↔ ∃ entry ∈ origins, Counts entry ∧ Text.trim entry = o := by
  rw [usable_eq, List.mem_map]
  simp only [List.mem_filter, decide_eq_true_eq, and_assoc]

/-- A star counts. -/
theorem counts_of_star (hstar : Text.trim entry = "*") : Counts entry := by
  refine ⟨?_, by rw [hstar]; decide⟩
  rw [Bool.eq_false_iff]
  intro hblank
  rw [Text.trim_eq_empty_iff.mpr hblank] at hstar
  exact absurd hstar (by decide)

/-- A star is listed if one of the entries is a star but for spaces. -/
theorem hasStar_iff : hasStar origins = true ↔ ∃ entry ∈ origins, Text.trim entry = "*" := by
  unfold hasStar
  simp only [List.any_eq_true, decide_eq_true_eq]

/-- Dropping the entries that do not count drops no star. -/
theorem hasStar_filter (origins : List String) :
    hasStar (origins.filter Counts) = hasStar origins := by
  rw [Bool.eq_iff_iff, hasStar_iff, hasStar_iff]
  simp only [List.mem_filter, decide_eq_true_eq]
  exact exists_congr fun entry =>
    ⟨fun ⟨⟨hmem, _⟩, hstar⟩ => ⟨hmem, hstar⟩,
      fun ⟨hmem, hstar⟩ => ⟨⟨hmem, counts_of_star hstar⟩, hstar⟩⟩

/-- Entries that do not count change nothing. -/
theorem ofOrigins_filter (origins : List String) :
    ofOrigins (origins.filter Counts) = ofOrigins origins := by
  have hsame : usable (origins.filter Counts) = usable origins := by
    rw [usable_eq, usable_eq, List.filter_filter]
    simp
  unfold ofOrigins
  rw [hasStar_filter, hsame]

/-! ## The policy -/

/-- With a star every origin is allowed, and none with credentials. -/
theorem ofOrigins_of_star (hstar : ∃ entry ∈ origins, Text.trim entry = "*") :
    ofOrigins origins = ⟨.any, false⟩ := if_pos (hasStar_iff.mpr hstar)

/-- Without a star the usable entries are allowed, with credentials if there are any. -/
theorem ofOrigins_of_no_star (hno : ∀ entry ∈ origins, Text.trim entry ≠ "*") :
    ofOrigins origins = ⟨.listed (usable origins), !(usable origins).isEmpty⟩ :=
  if_neg fun h => by
    obtain ⟨entry, hmem, hstar⟩ := hasStar_iff.mp h
    exact hno entry hmem hstar

/-- A star stands for itself only. -/
theorem isLawful_ofOrigins (origins : List String) : (ofOrigins origins).isLawful = true := by
  by_cases hstar : ∃ entry ∈ origins, Text.trim entry = "*"
  · rw [ofOrigins_of_star hstar]
    rfl
  · rw [ofOrigins_of_no_star fun entry hmem heq => hstar ⟨entry, hmem, heq⟩]
    show (!(usable origins).contains "*") = true
    -- the first time through the list would have found the entry
    rw [Bool.not_eq_true', List.contains_eq_mem, decide_eq_false_iff_not, mem_usable]
    exact fun ⟨entry, hmem, _, heq⟩ => hstar ⟨entry, hmem, heq⟩

section Listed

variable (hno : ∀ entry ∈ origins, Text.trim entry ≠ "*")

include hno

/-- The origin that is named is the one that asks, if an entry that counts is trimmed to it. -/
theorem allowedOrigin?_eq_some_iff {origin : Option (List UInt8)} :
    (ofOrigins origins).allowedOrigin? origin = some o ↔
      (∃ entry ∈ origins, Counts entry ∧ Text.trim entry = o) ∧
        origin = some (Text.Utf8.bytes o) := by
  rw [ofOrigins_of_no_star hno, ← mem_usable]
  show (usable origins).find? _ = some o ↔ _
  constructor
  · intro h
    have hfound := List.find?_some h
    rw [decide_eq_true_eq] at hfound
    exact ⟨List.mem_of_find?_eq_some h, hfound.symm⟩
  · rintro ⟨hmem, rfl⟩
    -- an entry before it may be found, but one with the same bytes is the same
    cases hfound : (usable origins).find? _ with
    | none => exact absurd (decide_eq_true rfl) (List.find?_eq_none.mp hfound o hmem)
    | some o' =>
      have hsame := List.find?_some hfound
      rw [decide_eq_true_eq, Option.some.injEq] at hsame
      rw [Text.Utf8.bytes_injective hsame]

/-- An origin is let in if an entry that counts is trimmed to it, byte for byte. -/
theorem exists_allowedOrigin?_iff {bs : List UInt8} :
    (∃ o, (ofOrigins origins).allowedOrigin? (some bs) = some o) ↔
      ∃ entry ∈ origins, Counts entry ∧ Text.Utf8.bytes (Text.trim entry) = bs := by
  simp only [allowedOrigin?_eq_some_iff hno, Option.some.injEq]
  constructor
  · rintro ⟨o, ⟨entry, hmem, hcounts, rfl⟩, rfl⟩
    exact ⟨entry, hmem, hcounts, rfl⟩
  · rintro ⟨entry, hmem, hcounts, rfl⟩
    exact ⟨_, ⟨entry, hmem, hcounts, rfl⟩, rfl⟩

/-- Credentials go with any entry that counts. -/
theorem credentials_iff :
    (ofOrigins origins).credentials = true ↔ ∃ entry ∈ origins, Counts entry := by
  rw [ofOrigins_of_no_star hno]
  show (!(usable origins).isEmpty) = true ↔ _
  rw [Bool.not_eq_true', List.isEmpty_eq_false_iff_exists_mem]
  simp only [mem_usable]
  exact ⟨fun ⟨_, entry, hmem, hcounts, _⟩ => ⟨entry, hmem, hcounts⟩,
    fun ⟨entry, hmem, hcounts⟩ => ⟨_, entry, hmem, hcounts, rfl⟩⟩

/-- Without an entry that counts no response lets anyone in. -/
theorem headers_eq_nil (hnone : ∀ entry ∈ origins, ¬Counts entry)
    (origin : Option (List UInt8)) : (ofOrigins origins).headers origin = [] := by
  have horigin : (ofOrigins origins).allowedOrigin? origin = none := by
    rw [Option.eq_none_iff_forall_ne_some]
    intro o ho
    obtain ⟨⟨entry, hmem, hcounts, -⟩, -⟩ := (allowedOrigin?_eq_some_iff hno).mp ho
    exact hnone entry hmem hcounts
  have hcredentials : ¬(ofOrigins origins).credentials = true := by
    rw [credentials_iff hno]
    exact fun ⟨entry, hmem, hcounts⟩ => hnone entry hmem hcounts
  unfold headers
  rw [horigin, if_neg hcredentials]
  rfl

end Listed

end Cors

/-! ## The headers of answers -/

open Cors (Counts isGrant ofOrigins)
open Program (done ensures_done ensures_true)

section Answers

variable {site : Site} {verify : Verifier} {upgradable : Bool} {req : Request} {room : String}

/-- A reply that, as far as it is a response, says nothing about other origins. -/
def Reply.Reticent : Reply → Prop
  | .response r => r.headers.filter isGrant = []
  | .upgrade .. => True

/-- All headers that a policy adds are grants. -/
theorem filter_headers (p : Cors) (origin : Option (List UInt8)) :
    (p.headers origin).filter isGrant = p.headers origin := by
  refine List.filter_eq_self.mpr fun h hmem => ?_
  unfold Cors.headers at hmem
  rcases List.mem_append.mp hmem with horigin | hcredentials
  · obtain ⟨o, -, rfl⟩ := List.mem_map.mp horigin
    rfl
  · split at hcredentials
    next => rw [List.mem_singleton.mp hcredentials]; rfl
    next => cases hcredentials

/-- A reply on the presence of a room grants nothing to another origin by itself. -/
theorem presence_reticent : (presence verify req room).Ensures Reply.Reticent := by
  refine ensures_true.bind fun granted _ => ?_
  rcases granted with refusal | ⟨who, r⟩
  · exact ensures_done rfl
  · refine ensures_true.bind fun listed _ => ?_
    cases listed <;> exact ensures_done rfl

/-- A reply on the call of a room grants nothing by itself. -/
theorem callParticipants_reticent :
    (callParticipants verify req room).Ensures Reply.Reticent := by
  refine ensures_true.bind fun granted _ => ?_
  rcases granted with refusal | ⟨who, r⟩
  · exact ensures_done rfl
  · exact ensures_true.bind fun people _ => ensures_done rfl

/-- Neither does a reply about a room that cannot be read, if the others do not. -/
theorem withRoom_reticent {k : String → Program Reply}
    (hk : ∀ text, (k text).Ensures Reply.Reticent) :
    (withRoom room k).Ensures Reply.Reticent := by
  unfold withRoom
  split
  next text _ => exact hk text
  next => exact ensures_done rfl

/-- A refused handshake grants nothing by itself. -/
theorem handshakeFault?_reticent {fault : Response}
    (h : handshakeFault? upgradable req = some fault) : fault.headers.filter isGrant = [] := by
  unfold handshakeFault? at h
  dsimp only at h
  split_ifs at h <;> cases h <;> rfl

/-- Nor does the reply to whoever asks for a socket. -/
theorem socket_reticent : (socket verify upgradable req room).Ensures Reply.Reticent := by
  unfold socket
  split
  next fault hfault => exact ensures_done (handshakeFault?_reticent hfault)
  next =>
    refine withRoom_reticent fun text => ?_
    split
    next => exact ensures_done rfl
    next token _ =>
      refine ensures_true.bind fun granted _ => ?_
      rcases granted with refusal | ⟨who, r⟩
      · exact ensures_done rfl
      · exact ensures_done trivial

/-- No route grants anything by itself. -/
theorem route_reticent (route : Route) :
    (route.answer verify upgradable req).Ensures Reply.Reticent := by
  cases route with
  | socket => exact socket_reticent
  | health => exact ensures_done rfl
  | presence => exact withRoom_reticent fun text => presence_reticent
  | callParticipants => exact withRoom_reticent fun text => callParticipants_reticent

/-- No answer but that to a preflight has grants of its own, found or not. -/
theorem answerPlain_reticent : (answerPlain site upgradable req).Ensures Reply.Reticent := by
  unfold answerPlain
  split
  next => exact ensures_done rfl
  next route _ =>
    split_ifs
    · exact route_reticent route
    · -- taking the body away leaves the headers
      refine (route_reticent route).bind fun reply hreply => ?_
      cases reply with
      | response r => exact ensures_done hreply
      | upgrade => exact ensures_done trivial
    · exact ensures_done rfl

/-- An answer has the headers of the policy and no others of their kind, also when it is asked
beforehand what is allowed. -/
theorem grants_ensured : (answer site upgradable req).Ensures fun reply =>
    ∀ resp, reply = .response resp →
      resp.headers.filter isGrant = site.cors.headers (req.header? "origin") := by
  unfold answer
  split
  next =>
    refine ensures_done fun resp heq => ?_
    cases heq
    have hrest (known : Bool) :
        (Cors.preflightHeaders ++ if known then [allowHeader] else []).filter isGrant = [] := by
      cases known <;> rfl
    show (_ ++ Cors.preflightHeaders ++ _).filter isGrant = _
    rw [List.append_assoc, List.filter_append, filter_headers, hrest, List.append_nil]
  next =>
    refine answerPlain_reticent.bind fun reply hreply => ?_
    cases reply with
    | upgrade => exact ensures_done nofun
    | response r =>
      refine ensures_done fun resp heq => ?_
      cases heq
      show (r.headers ++ _).filter isGrant = _
      rw [List.filter_append, show r.headers.filter isGrant = [] from hreply, filter_headers,
        List.nil_append]

end Answers

/-! ## Every list, origin and request -/

/-- The policy of any list of entries is one that may be put to use. With a star among the
entries every origin is named as allowed, and credentials are not. Without one an origin that
asks is named, and nothing else is, if it is byte for byte what an entry that counts is trimmed
to; credentials are allowed if there is such an entry; and if there is none, no response lets
anyone in. Entries that do not count change nothing. Every response says what the policy says
to the origin of its request, and no more. -/
theorem listed_origins_only (origins : List String) :
    (ofOrigins origins).isLawful = true ∧
    ((∃ entry ∈ origins, Text.trim entry = "*") →
      (ofOrigins origins).credentials = false ∧
      ∀ origin, (ofOrigins origins).allowedOrigin? origin = some "*") ∧
    ((∀ entry ∈ origins, Text.trim entry ≠ "*") →
      (ofOrigins origins).allowedOrigin? none = none ∧
      (∀ bs, (∃ o, (ofOrigins origins).allowedOrigin? (some bs) = some o) ↔
        ∃ entry ∈ origins, Counts entry ∧ Text.Utf8.bytes (Text.trim entry) = bs) ∧
      (∀ bs o, (ofOrigins origins).allowedOrigin? (some bs) = some o → Text.Utf8.bytes o = bs) ∧
      ((ofOrigins origins).credentials = true ↔ ∃ entry ∈ origins, Counts entry) ∧
      ((∀ entry ∈ origins, ¬Counts entry) →
        ∀ origin, (ofOrigins origins).headers origin = [])) ∧
    ofOrigins (origins.filter Counts) = ofOrigins origins ∧
    ∀ (verify : Verifier) (upgradable : Bool) (req : Request) (turns : List Turn)
        (resp : Response),
      (answer ⟨verify, ofOrigins origins⟩ upgradable req).Path turns (done (.response resp)) →
      resp.headers.filter isGrant = (ofOrigins origins).headers (req.header? "origin") := by
  refine ⟨Cors.isLawful_ofOrigins origins, fun hstar => ?_, fun hno => ?_,
    Cors.ofOrigins_filter origins,
    fun verify upgradable req turns resp hp => grants_ensured turns _ hp resp rfl⟩
  · rw [Cors.ofOrigins_of_star hstar]
    exact ⟨rfl, fun origin => rfl⟩
  · refine ⟨?_, fun bs => Cors.exists_allowedOrigin?_iff hno, fun bs o ho => ?_,
      Cors.credentials_iff hno, fun hnone => Cors.headers_eq_nil hno hnone⟩
    · rw [Option.eq_none_iff_forall_ne_some]
      intro o ho
      cases ((Cors.allowedOrigin?_eq_some_iff hno).mp ho).2
    · exact (Option.some.inj ((Cors.allowedOrigin?_eq_some_iff hno).mp ho).2).symm

/-- Entries of all kinds but a star. -/
def mixedOrigins : List String :=
  [" http://localhost:5173 ", "", "bad\norigin", "\u3000", "http://localhost:8080"]

/-- A page of the first origin that asks beforehand what is allowed. -/
def preflight : Request :=
  ⟨"OPTIONS", "/api/health", [("Origin", Text.Utf8.bytes "http://localhost:5173")]⟩

/-- A list with blank, broken and proper entries, and the same list with a star. -/
theorem listed_origins_only_mixed :
    (∃ o, (ofOrigins mixedOrigins).allowedOrigin?
      (some (Text.Utf8.bytes "http://localhost:5173")) = some o) ∧
    (¬∃ o, (ofOrigins mixedOrigins).allowedOrigin?
      (some (Text.Utf8.bytes "bad\norigin")) = some o) ∧
    (ofOrigins mixedOrigins).credentials = true ∧
    (ofOrigins (mixedOrigins ++ ["\t* "])).credentials = false ∧
    ∃ resp, answer ⟨fun _ => .error .missing, ofOrigins mixedOrigins⟩ true preflight
        = done (.response resp) ∧
      resp.headers.filter isGrant =
        [("access-control-allow-origin", "http://localhost:5173"),
          ("access-control-allow-credentials", "true")] := by
  obtain ⟨-, -, hlisted, -, hresponse⟩ := listed_origins_only mixedOrigins
  obtain ⟨-, hallowed, -, hcredentials, -⟩ := hlisted (by decide)
  obtain ⟨-, hstar, -⟩ := listed_origins_only (mixedOrigins ++ ["\t* "])
  refine ⟨(hallowed _).mpr (by decide), fun h => ?_, hcredentials.mpr (by decide),
    (hstar (by decide)).1, _, rfl, ?_⟩
  · exact absurd ((hallowed _).mp h) (by decide)
  · exact (hresponse _ true preflight [] _ .nil).trans (by decide)

end Http

end RoomHub
